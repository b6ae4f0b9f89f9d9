import AiLabOs.Base.Substitution
import AiLabOs.Base.Unicode

/-!
# Errors: sanitised texts

The messages of failures are cleared of credentials by two expressions, one after the other, and cut
at a length. The first expression asks for word boundaries, so a key that touches a character of
words is left.

## Main definitions

* `sanitizeText`: the function
* `fragments`: the text between the matches of both expressions
* `shown`, `cut`: what is left of the fragments, and the one that is cut
* `HasKey`, `HasBearer`: the credentials that a text must not have
* `Clean`: the result has no credential, and is not changed by the function
* `Covered`, `Untouched`, `OpenRun`: what stands beside the keys and the runs of a text

## Main results

* `redact_eq`: the result is the fragments, with the replacement between them
* `not_hasBearer_fragments`, `not_occurs_fragments`: what no fragment has
* `clean_iff_shown`: when the result is clean, by the fragments
* `clean_iff_covered`: when it is, by the characters of the text
-/

namespace Errors

open Regex (Place Spans)

/-! ## The function -/

section Patterns

variable (uni : Unicode)

/-- `[A-Za-z0-9_-]`. -/
def keyChar (c : Char) : Bool := c.isAlphanum || c == '_' || c == '-'

/-- `(?i)[A-Za-z0-9._~+/=-]`: regardless of case, four other letters are taken for ASCII ones. -/
def tokenChar (c : Char) : Bool :=
  c.isAlphanum || ['.', '_', '~', '+', '/', '=', '-', '\u0130', '\u0131', '\u017f',
    '\u212a'].contains c

/-- `\bsk-[A-Za-z0-9_-]{8,}\b`. -/
def keyPattern : Regex :=
  .seq (.boundary uni.isWord) (.seq (.lit "sk-") (.seq (.atLeast 8 (.set keyChar))
    (.boundary uni.isWord)))

/-- A word of ASCII letters, without regard to case. -/
def anyCase : List Char → Regex
  | [] => .look fun _ => true
  | c :: word => .seq (.set fun x => x.toLower == c) (anyCase word)

/-- `(?i)bearer\s+[A-Za-z0-9._~+/=-]{8,}`. -/
def bearerPattern : Regex :=
  .seq (anyCase "bearer".toList) (.seq (.atLeast 1 (.set Text.isSpace))
    (.atLeast 8 (.set tokenChar)))

/-- `<REDACTED>`. -/
def redacted : List Char := "<REDACTED>".toList

/-- The text after both replacements. -/
def redact (s : List Char) : List Char :=
  bearerPattern.sub redacted ((keyPattern uni).sub redacted s)

/-- `sanitize_text`. -/
def sanitizeText (value : String) : String := String.ofList ((redact uni value.toList).take 1000)

end Patterns

/-! ## What is asked for -/

/-- `sk-` with eight letters or digits of ASCII. -/
def HasKey (s : List Char) : Prop :=
  ∃ w : List Char, w.length = 8 ∧ (∀ c ∈ w, c.isAlphanum = true) ∧ "sk-".toList ++ w <:+: s

/-- `bearer`, white space and eight characters of a token. -/
structure IsBearer (m : List Char) : Prop where
  parts : ∃ b sp tok, m = b ++ (sp ++ tok) ∧ b.map Char.toLower = "bearer".toList ∧ 1 ≤ sp.length ∧
    (∀ c ∈ sp, Text.isSpace c = true) ∧ 8 ≤ tok.length ∧ ∀ c ∈ tok, tokenChar c = true

/-- A text with a bearer token in it. -/
def HasBearer (s : List Char) : Prop := ∃ m, IsBearer m ∧ m <:+: s

/-- **The result is clean**: it has no key and no bearer token, and sanitising it again changes
nothing. -/
def Clean (uni : Unicode) (value : String) : Prop :=
  ¬HasKey (sanitizeText uni value).toList ∧ ¬HasBearer (sanitizeText uni value).toList ∧
    sanitizeText uni (sanitizeText uni value) = sanitizeText uni value

/-- The table of the characters of words has the letters, digits and underscore of ASCII, and no
white space. -/
structure WordTable (uni : Unicode) : Prop where
  ascii : ∀ c : Char, c.toNat < 128 → uni.isWord c = (c.isAlphanum || c == '_')
  space : ∀ c, Text.isSpace c = true → uni.isWord c = false

/-! ## Bearer tokens -/

section Bearer

theorem mem_ends_anyCase {word : List Char} {c d : Place} :
    d ∈ (anyCase word).ends c ↔ ∃ b, b.map Char.toLower = word ∧ Spans c d b := by
  induction word generalizing c with
  | nil =>
    rw [anyCase, Regex.mem_ends_look]
    constructor
    · rintro ⟨rfl, -⟩
      exact ⟨[], rfl, Spans.refl d⟩
    · rintro ⟨b, hb, hspans⟩
      obtain rfl := List.map_eq_nil_iff.mp hb
      exact ⟨Regex.spans_nil_iff.mp hspans, rfl⟩
  | cons x word ih =>
    rw [anyCase, Regex.mem_ends_seq]
    constructor
    · rintro ⟨e, he, hd⟩
      obtain ⟨y, hy, hspans⟩ := Regex.mem_ends_set.mp he
      obtain ⟨b, rfl, hrest⟩ := ih.mp hd
      exact ⟨y :: b, by rw [List.map_cons, beq_iff_eq.mp hy], hspans.trans hrest⟩
    · rintro ⟨b, hb, hspans⟩
      obtain ⟨y, b, rfl, hy, hrest⟩ := List.map_eq_cons_iff.mp hb
      obtain ⟨e, hfirst, hd⟩ := Regex.spans_cons_iff.mp hspans
      exact ⟨e, Regex.mem_ends_set.mpr ⟨y, beq_iff_eq.mpr hy, hfirst⟩, ih.mpr ⟨b, hrest, hd⟩⟩

theorem length_ends_anyCase (word : List Char) (c : Place) :
    ((anyCase word).ends c).length ≤ 1 := by
  induction word generalizing c with
  | nil => exact Regex.length_ends_look _ c
  | cons x word ih => exact Regex.length_ends_seq (Regex.length_ends_set _) ih c

/-- The letters and digits of ASCII by their numbers. -/
theorem isAlphanum_iff {c : Char} : c.isAlphanum = true ↔ (65 ≤ c.toNat ∧ c.toNat ≤ 90) ∨
    (97 ≤ c.toNat ∧ c.toNat ≤ 122) ∨ (48 ≤ c.toNat ∧ c.toNat ≤ 57) := by
  change ((decide (65 ≤ c.toNat ∧ c.toNat ≤ 90) ||
    (decide (97 ≤ c.toNat) && decide (c.toNat ≤ 122))) ||
    (decide (48 ≤ c.toNat) && decide (c.toNat ≤ 57))) = true ↔ _
  simp only [Bool.or_eq_true, Bool.and_eq_true, decide_eq_true_eq, or_assoc]

theorem isAlphanum_of_isSpace {c : Char} (h : Text.isSpace c = true) : c.isAlphanum = false := by
  unfold Text.isSpace at h
  rw [Bool.eq_false_iff]
  intro hletter
  rw [isAlphanum_iff] at hletter
  simp only [Bool.or_eq_true, Bool.and_eq_true, decide_eq_true_eq, beq_iff_eq] at h
  omega

theorem tokenChar_of_isSpace {c : Char} (h : Text.isSpace c = true) : tokenChar c = false := by
  rw [tokenChar, isAlphanum_of_isSpace h, Bool.false_or, Bool.eq_false_iff]
  intro hother
  rw [List.contains_iff_mem] at hother
  revert h
  simp only [List.mem_cons, List.not_mem_nil, or_false] at hother
  rcases hother with rfl | rfl | rfl | rfl | rfl | rfl | rfl | rfl | rfl | rfl | rfl <;> decide

theorem plain_bearer : bearerPattern.Plain IsBearer where
  mem_ends := by
    intro c d
    simp only [bearerPattern, Regex.mem_ends_seq, Regex.mem_ends_atLeast, mem_ends_anyCase]
    constructor
    · rintro ⟨e, ⟨b, hb, hspans⟩, f, ⟨sp, hsp, hspace, hspans'⟩, tok, htok, htoken, hspans''⟩
      exact ⟨b ++ (sp ++ tok), ⟨b, sp, tok, rfl, hb, hsp, hspace, htok, htoken⟩,
        hspans.trans (hspans'.trans hspans'')⟩
    · rintro ⟨m, ⟨b, sp, tok, rfl, hb, hsp, hspace, htok, htoken⟩, hspans⟩
      obtain ⟨e, hfirst, hrest⟩ := Regex.spans_append_iff.mp hspans
      obtain ⟨f, hsecond, hthird⟩ := Regex.spans_append_iff.mp hrest
      exact ⟨e, ⟨b, hb, hfirst⟩, f, ⟨sp, hsp, hspace, hsecond⟩, tok, htok, htoken, hthird⟩
  greedy := by
    refine .seq (length_ends_anyCase _) (.run_seq (Regex.greedy_atLeast 8 tokenChar) 1 ?_)
    -- a token does not begin with white space
    intro c x after hafter hspace
    rw [List.eq_nil_iff_forall_not_mem]
    intro d hd
    obtain ⟨w, hlength, hw, hspans⟩ := Regex.mem_ends_atLeast.mp hd
    cases w with
    | nil => cases hlength
    | cons y w =>
      rw [hspans.after, List.cons_append] at hafter
      have htoken := hw y List.mem_cons_self
      rw [(List.cons.inj hafter).1, tokenChar_of_isSpace hspace] at htoken
      cases htoken
  not_nil := by
    rintro ⟨b, sp, tok, hnil, -, -, -, htok, -⟩
    have hlength := congrArg List.length hnil
    simp only [List.length_nil, List.length_append] at hlength
    omega

theorem IsBearer.length_le {m : List Char} (h : IsBearer m) : 15 ≤ m.length := by
  obtain ⟨b, sp, tok, rfl, hb, hsp, -, htok, -⟩ := h.parts
  have hlength : b.length = 6 := by
    have hmap := congrArg List.length hb
    rwa [List.length_map] at hmap
  simp only [List.length_append]
  omega

theorem spans_bearer {c d : Place} (hd : d ∈ bearerPattern.ends c) :
    15 + d.after.length ≤ c.after.length := by
  obtain ⟨m, hm, hspans⟩ := plain_bearer.mem_ends.mp hd
  have hle := hm.length_le
  have hrest := hspans.length
  omega

theorem length_sub_bearer (s : List Char) : (bearerPattern.sub redacted s).length ≤ s.length := by
  have hten : redacted.length = 10 := rfl
  refine (Regex.length_sub_le plain_bearer.advances redacted (fun c d hd => ?_) s).1
  have hspans := spans_bearer hd
  omega

/-- The characters of a bearer token are none of the brackets. -/
theorem IsBearer.not_mem {m : List Char} (h : IsBearer m) : '<' ∉ m ∧ '>' ∉ m := by
  obtain ⟨b, sp, tok, rfl, hb, -, hspace, -, htoken⟩ := h.parts
  have hnot : ∀ c : Char, c.toLower ∉ "bearer".toList → Text.isSpace c = false →
      tokenChar c = false → c ∉ b ++ (sp ++ tok) := by
    intro c hletter hsp htok hmem
    rcases List.mem_append.mp hmem with hmem | hmem
    · rw [← hb] at hletter
      exact hletter (List.mem_map_of_mem hmem)
    · rcases List.mem_append.mp hmem with hmem | hmem
      · rw [hspace c hmem] at hsp
        cases hsp
      · rw [htoken c hmem] at htok
        cases htok
  exact ⟨hnot '<' (by decide) (by decide) (by decide), hnot '>' (by decide) (by decide) (by decide)⟩

end Bearer

/-! ## Keys -/

section Keys

variable {uni : Unicode} (htable : WordTable uni)

/-- A run after `sk-`, between two texts, as the expression asks for it. -/
structure KeyAt (uni : Unicode) (u w v : List Char) : Prop where
  long : 8 ≤ w.length
  run : ∀ c ∈ w, keyChar c = true
  free : u.getLast?.any uni.isWord = false
  boundary : w.getLast?.any uni.isWord ≠ v.head?.any uni.isWord

/-- **A key after `u` is covered**: it stands in a run of letters, digits, underscores and hyphens
in which, at the key or before it, `sk-` begins after no character of words, with eight or more
characters up to a boundary after it. -/
def CoveredAt (uni : Unicode) (s u : List Char) : Prop :=
  ∃ u₁ m w₁ v₁, u = u₁ ++ m ∧ (∀ c ∈ m, keyChar c = true) ∧
    s = u₁ ++ (("sk-".toList ++ w₁) ++ v₁) ∧ KeyAt uni u₁ w₁ v₁

/-- Every key is covered. -/
def Covered (uni : Unicode) (s : List Char) : Prop :=
  ∀ u w v, s = u ++ (("sk-".toList ++ w) ++ v) → w.length = 8 → (∀ c ∈ w, c.isAlphanum = true) →
    CoveredAt uni s u

/-- No bearer token touches the text `t` after `u`. -/
def Untouched (s u t : List Char) : Prop :=
  ∀ u₁ m v₁, s = u₁ ++ (m ++ v₁) → IsBearer m → (u₁ ++ m) <+: u ∨ (u ++ t) <+: u₁

/-- **A run that stays open**: eight or more characters after an `sk-` that begins after no
character of words, the last of them one of words, and then a character of words that is not of the
run. To cut the text in it can make a match of it. -/
structure OpenRunAt (uni : Unicode) (u w v : List Char) : Prop where
  long : 8 ≤ w.length
  run : ∀ c ∈ w, keyChar c = true
  free : u.getLast?.any uni.isWord = false
  word : w.getLast?.any uni.isWord = true
  goesOn : v.head?.any (fun c => uni.isWord c && !keyChar c) = true

/-- The text has an open run that ends after `n` characters or later. -/
def OpenRun (uni : Unicode) (n : ℕ) (s : List Char) : Prop :=
  ∃ u w v, s = u ++ (("sk-".toList ++ w) ++ v) ∧ OpenRunAt uni u w v ∧
    n ≤ (u ++ ("sk-".toList ++ w)).length

theorem KeyAt.ne_nil {u w v : List Char} (h : KeyAt uni u w v) : w ≠ [] :=
  List.length_pos_iff.mp (lt_of_lt_of_le (by decide) h.long)

theorem getLast?_append {α : Type} (a : List α) {b : List α} (hb : b ≠ []) :
    (a ++ b).getLast? = b.getLast? := by
  rw [List.getLast?_append]
  cases hlast : b.getLast? with
  | none => exact absurd (List.getLast?_eq_none_iff.mp hlast) hb
  | some x => rfl

include htable

/-- **What the first expression matches**. -/
theorem mem_ends_key {u rest : List Char} {d : Place} :
    d ∈ (keyPattern uni).ends ⟨u.reverse, rest⟩ ↔
      ∃ w v, rest = "sk-".toList ++ (w ++ v) ∧ KeyAt uni u w v ∧
        d = ⟨("sk-".toList ++ w).reverse ++ u.reverse, v⟩ := by
  have hs : uni.isWord 's' = true := htable.ascii 's' (by decide)
  have hstart : "sk-".toList = ['s', 'k', '-'] := rfl
  simp only [keyPattern, Regex.boundary, Regex.mem_ends_seq, Regex.mem_ends_look,
    Regex.mem_ends_lit, Regex.mem_ends_atLeast, bne_iff_ne]
  constructor
  · rintro ⟨e, ⟨rfl, hbefore⟩, f, hlit, g, ⟨w, hlong, hrun, hspans⟩, rfl, hafter⟩
    have hne : w ≠ [] := List.length_pos_iff.mp (lt_of_lt_of_le (by decide) hlong)
    rw [hspans.head?_before hne] at hafter
    have hwhole := hlit.trans hspans
    have hrest := hwhole.after
    dsimp only at hrest
    rw [hrest, hstart, List.head?_append, List.head?_reverse] at hbefore
    refine ⟨w, d.after, by rw [hrest, List.append_assoc], ⟨hlong, hrun, ?_, hafter⟩,
      hwhole.eq ⟨hrest, rfl⟩⟩
    simpa [hs] using hbefore
  · rintro ⟨w, v, rfl, hkey, rfl⟩
    refine ⟨_, ⟨rfl, ?_⟩, ⟨"sk-".toList.reverse ++ u.reverse, w ++ v⟩, ⟨rfl, rfl⟩, _,
      ⟨w, hkey.long, hkey.run, ⟨rfl, ?_⟩⟩, rfl, ?_⟩
    · rw [hstart, List.head?_reverse, hkey.free]
      simp [hs]
    · rw [List.reverse_append, List.append_assoc]
    · have hend : Spans ⟨"sk-".toList.reverse ++ u.reverse, w ++ v⟩
          ⟨("sk-".toList ++ w).reverse ++ u.reverse, v⟩ w :=
        ⟨rfl, by rw [List.reverse_append, List.append_assoc]⟩
      rw [hend.head?_before hkey.ne_nil]
      exact hkey.boundary

/-- What it prefers at a place is a key. -/
theorem key_of_first {u m v before : List Char}
    (h : (keyPattern uni).first ⟨u.reverse, m ++ v⟩ = some ⟨before, v⟩) :
    ∃ w, m = "sk-".toList ++ w ∧ KeyAt uni u w v := by
  obtain ⟨w, v', heq, hkey, hend⟩ := (mem_ends_key htable).mp (Regex.mem_of_first h)
  obtain rfl : v = v' := congrArg Place.after hend
  refine ⟨w, ?_, hkey⟩
  rw [← List.append_assoc] at heq
  exact List.append_cancel_right heq

theorem occurs_key_iff {s : List Char} : (keyPattern uni).Occurs s ↔
    ∃ u w v, s = u ++ (("sk-".toList ++ w) ++ v) ∧ KeyAt uni u w v := by
  constructor
  · rintro ⟨u, rest, d, rfl, hd⟩
    obtain ⟨w, v, rfl, hkey, -⟩ := (mem_ends_key htable).mp hd
    exact ⟨u, w, v, by rw [List.append_assoc], hkey⟩
  · rintro ⟨u, w, v, rfl, hkey⟩
    exact ⟨u, _, _, rfl, (mem_ends_key htable).mpr ⟨w, v, List.append_assoc .., hkey, rfl⟩⟩

omit htable in
theorem greedy_key : (keyPattern uni).Greedy :=
  .seq (Regex.length_ends_look _) (.seq (Regex.length_ends_lit _)
    ((Regex.greedy_atLeast 8 keyChar).seq_look _))

omit htable in
theorem spans_key {c d : Place} (hd : d ∈ (keyPattern uni).ends c) :
    11 + d.after.length ≤ c.after.length := by
  simp only [keyPattern, Regex.boundary, Regex.mem_ends_seq, Regex.mem_ends_look,
    Regex.mem_ends_lit, Regex.mem_ends_atLeast] at hd
  obtain ⟨e, ⟨rfl, -⟩, f, hlit, g, ⟨w, hlong, -, hspans⟩, rfl, -⟩ := hd
  have hlength := (hlit.trans hspans).length
  have hthree : "sk-".toList.length = 3 := rfl
  rw [List.length_append, hthree] at hlength
  omega

omit htable in
theorem advances_key : (keyPattern uni).Advances := by
  intro c d hd
  have hlength := spans_key hd
  omega

end Keys

/-! ## Characters that separate -/

section Separators

variable {α : Type} {stop : α} {u m v x y : List α}

/-- **A text without the separator** stands before it or after it. -/
theorem append_eq_append_cons_iff (hm : stop ∉ m) (hne : m ≠ []) :
    u ++ (m ++ v) = x ++ stop :: y ↔
      (∃ v', x = u ++ (m ++ v') ∧ v = v' ++ stop :: y) ∨
        ∃ u', u = x ++ stop :: u' ∧ y = u' ++ (m ++ v) := by
  constructor
  · intro h
    rcases List.append_eq_append_iff.mp h with ⟨a, rfl, ha⟩ | ⟨a, rfl, ha⟩
    · rcases List.append_eq_append_iff.mp ha with ⟨b, rfl, hb⟩ | ⟨b, rfl, hb⟩
      · exact .inl ⟨b, rfl, hb⟩
      · cases b with
        | nil => exact .inl ⟨[], by simp, hb.symm⟩
        | cons z b =>
          refine absurd ?_ hm
          rw [(List.cons.inj hb).1]
          simp
    · cases a with
      | nil =>
        cases m with
        | nil => exact absurd rfl hne
        | cons z m =>
          refine absurd ?_ hm
          rw [(List.cons.inj ha).1]
          simp
      | cons z a =>
        obtain ⟨rfl, hy⟩ := List.cons.inj ha
        exact .inr ⟨a, rfl, hy⟩
  · rintro (⟨v', rfl, rfl⟩ | ⟨u', rfl, rfl⟩) <;> simp

theorem infix_append_cons_iff (hm : stop ∉ m) (hne : m ≠ []) :
    m <:+: x ++ stop :: y ↔ m <:+: x ∨ m <:+: y := by
  constructor
  · rintro ⟨u, v, h⟩
    rw [List.append_assoc] at h
    rcases (append_eq_append_cons_iff hm hne).mp h with ⟨v', rfl, -⟩ | ⟨u', -, rfl⟩
    · exact .inl ⟨u, v', by rw [List.append_assoc]⟩
    · exact .inr ⟨u', v, by rw [List.append_assoc]⟩
  · rintro (⟨u, v, rfl⟩ | ⟨u, v, rfl⟩)
    · exact ⟨u, v ++ stop :: y, by simp⟩
    · exact ⟨x ++ stop :: u, v, by simp⟩

end Separators

theorem keyChar_of_isAlphanum {c : Char} (h : c.isAlphanum = true) : keyChar c = true := by
  rw [keyChar, h]
  rfl

theorem not_mem_key {stop : Char} (hstop : keyChar stop = false) {w : List Char}
    (hw : ∀ c ∈ w, keyChar c = true) : stop ∉ "sk-".toList ++ w := by
  have hlead : ∀ c ∈ "sk-".toList, keyChar c = true := List.all_eq_true.mp rfl
  intro hmem
  rcases List.mem_append.mp hmem with hmem | hmem
  · rw [hlead stop hmem] at hstop
    cases hstop
  · rw [hw stop hmem] at hstop
    cases hstop

theorem hasKey_append_cons {stop : Char} (hstop : keyChar stop = false) (x y : List Char) :
    HasKey (x ++ stop :: y) ↔ HasKey x ∨ HasKey y := by
  have hnot : ∀ w : List Char, (∀ c ∈ w, c.isAlphanum = true) → stop ∉ "sk-".toList ++ w :=
    fun w hw => not_mem_key hstop fun c hc => keyChar_of_isAlphanum (hw c hc)
  constructor
  · rintro ⟨w, hlength, hw, hin⟩
    rw [infix_append_cons_iff (hnot w hw) (by simp)] at hin
    exact hin.imp (fun h => ⟨w, hlength, hw, h⟩) fun h => ⟨w, hlength, hw, h⟩
  · rintro (⟨w, hlength, hw, h⟩ | ⟨w, hlength, hw, h⟩)
    · exact ⟨w, hlength, hw, (infix_append_cons_iff (hnot w hw) (by simp)).mpr (.inl h)⟩
    · exact ⟨w, hlength, hw, (infix_append_cons_iff (hnot w hw) (by simp)).mpr (.inr h)⟩

theorem hasBearer_append_cons {stop : Char} (hstop : ∀ m, IsBearer m → stop ∉ m)
    (x y : List Char) : HasBearer (x ++ stop :: y) ↔ HasBearer x ∨ HasBearer y := by
  have hne : ∀ m, IsBearer m → m ≠ [] := fun m hm hnil => plain_bearer.not_nil (hnil ▸ hm)
  constructor
  · rintro ⟨m, hm, hin⟩
    rw [infix_append_cons_iff (hstop m hm) (hne m hm)] at hin
    exact hin.imp (fun h => ⟨m, hm, h⟩) fun h => ⟨m, hm, h⟩
  · rintro (⟨m, hm, h⟩ | ⟨m, hm, h⟩)
    · exact ⟨m, hm, (infix_append_cons_iff (hstop m hm) (hne m hm)).mpr (.inl h)⟩
    · exact ⟨m, hm, (infix_append_cons_iff (hstop m hm) (hne m hm)).mpr (.inr h)⟩

/-- A separator that is no character of words is a boundary as the end of a text is. -/
theorem occurs_key_append_cons {uni : Unicode} (htable : WordTable uni) {stop : Char}
    (hstop : keyChar stop = false) (hword : uni.isWord stop = false) (x y : List Char) :
    (keyPattern uni).Occurs (x ++ stop :: y) ↔
      (keyPattern uni).Occurs x ∨ (keyPattern uni).Occurs y := by
  have hhead : ∀ v : List Char, (v ++ stop :: y).head?.any uni.isWord = v.head?.any uni.isWord := by
    intro v
    cases v with
    | nil => simpa using hword
    | cons c v => rfl
  have hlast : ∀ u : List Char,
      (x ++ stop :: u).getLast?.any uni.isWord = u.getLast?.any uni.isWord := by
    intro u
    rw [getLast?_append x (List.cons_ne_nil stop u)]
    cases u with
    | nil => simpa using hword
    | cons c u => rw [List.getLast?_cons_cons]
  simp only [occurs_key_iff htable]
  constructor
  · rintro ⟨u, w, v, heq, hkey⟩
    rcases (append_eq_append_cons_iff (not_mem_key hstop hkey.run) (by simp)).mp heq.symm with
      ⟨v', rfl, rfl⟩ | ⟨u', rfl, rfl⟩
    · exact .inl ⟨u, w, v', rfl, hkey.long, hkey.run, hkey.free, hhead v' ▸ hkey.boundary⟩
    · exact .inr ⟨u', w, v, rfl, hkey.long, hkey.run, hlast u' ▸ hkey.free, hkey.boundary⟩
  · rintro (⟨u, w, v, rfl, hkey⟩ | ⟨u, w, v, rfl, hkey⟩)
    · exact ⟨u, w, v ++ stop :: y, by simp, hkey.long, hkey.run, hkey.free,
        (hhead v).symm ▸ hkey.boundary⟩
    · exact ⟨x ++ stop :: u, w, v, by simp, hkey.long, hkey.run, (hlast u).symm ▸ hkey.free,
        hkey.boundary⟩

/-! ## Fragments -/

/-- **The text between the matches**, of the second expression where the first one has none. -/
def fragments (uni : Unicode) (s : List Char) : List (List Char) :=
  ((keyPattern uni).parts s).flatMap bearerPattern.parts

/-- What is shown of fragments, of so many characters. -/
def shown : ℕ → List (List Char) → List (List Char)
  | _, [] => []
  | n, f :: fs => f.take n :: shown (n - f.length - redacted.length) fs

/-- The fragment that is cut, up to where it is cut. -/
def cut : ℕ → List (List Char) → Option (List Char)
  | _, [] => none
  | n, f :: fs => if n < f.length then some (f.take n) else cut (n - f.length - redacted.length) fs

section Fragments

variable {uni : Unicode}

theorem intercalate_append {new : List Char} {xs ys : List (List Char)} (hxs : xs ≠ [])
    (hys : ys ≠ []) :
    new.intercalate (xs ++ ys) = new.intercalate xs ++ new ++ new.intercalate ys := by
  induction xs with
  | nil => exact absurd rfl hxs
  | cons x xs ih =>
    rw [List.cons_append, Regex.intercalate_cons_of_ne_nil x (by simp [hys])]
    cases xs with
    | nil => simp [List.intercalate]
    | cons z xs =>
      rw [ih (List.cons_ne_nil _ _), Regex.intercalate_cons_of_ne_nil x (List.cons_ne_nil _ _)]
      simp only [List.append_assoc]

theorem parts_ne_nil (r : Regex) (s : List Char) : r.parts s ≠ [] :=
  Regex.partsFrom_ne_nil _ _ _ _

/-- The word between the brackets of a replacement. -/
def redactedWord : List Char := ['R', 'E', 'D', 'A', 'C', 'T', 'E', 'D']

theorem append_redacted (x y : List Char) :
    x ++ redacted ++ y = x ++ '<' :: (redactedWord ++ '>' :: y) := by
  have hbrackets : redacted = '<' :: (redactedWord ++ ['>']) := by decide +kernel
  rw [hbrackets]
  simp only [List.append_assoc, List.cons_append, List.nil_append]

theorem sub_bearer_redactedWord :
    bearerPattern.sub redacted redactedWord = redactedWord := by
  apply Regex.sub_of_not_occurs
  rintro ⟨u, rest, d, heq, hd⟩
  obtain ⟨m, hm, hspans⟩ := plain_bearer.mem_ends.mp hd
  have hlength := congrArg List.length heq
  have height : redactedWord.length = 8 := rfl
  have hle := hm.length_le
  have hrest := hspans.length
  rw [height, List.length_append] at hlength
  dsimp only at hrest
  omega

/-- A replacement is not touched by the second expression. -/
theorem sub_bearer_append (x y : List Char) : bearerPattern.sub redacted (x ++ redacted ++ y) =
    bearerPattern.sub redacted x ++ redacted ++ bearerPattern.sub redacted y := by
  rw [append_redacted, append_redacted, plain_bearer.sub_append_cons fun m hm => hm.not_mem.1,
    plain_bearer.sub_append_cons fun m hm => hm.not_mem.2, sub_bearer_redactedWord]

theorem sub_bearer_intercalate (ps : List (List Char)) :
    bearerPattern.sub redacted (redacted.intercalate ps) =
      redacted.intercalate (ps.flatMap bearerPattern.parts) := by
  induction ps with
  | nil => rfl
  | cons p ps ih =>
    rw [List.flatMap_cons]
    by_cases hps : ps = []
    · rw [hps, List.flatMap_nil, List.append_nil, ← Regex.sub_eq_intercalate]
      simp [List.intercalate]
    · have hne : ps.flatMap bearerPattern.parts ≠ [] := by
        obtain ⟨q, qs, rfl⟩ := List.exists_cons_of_ne_nil hps
        rw [List.flatMap_cons]
        exact List.append_ne_nil_of_left_ne_nil (parts_ne_nil _ _) _
      rw [Regex.intercalate_cons_of_ne_nil p hps, sub_bearer_append, ih,
        intercalate_append (parts_ne_nil _ _) hne, Regex.sub_eq_intercalate]

/-- **The result** is the fragments with the replacement between them. -/
theorem redact_eq (s : List Char) : redact uni s = redacted.intercalate (fragments uni s) := by
  rw [redact, Regex.sub_eq_intercalate (keyPattern uni), sub_bearer_intercalate]
  rfl

/-! ### What is shown -/

theorem shown_prefix {n : ℕ} {fs : List (List Char)} {g : List Char} (h : g ∈ shown n fs) :
    ∃ f ∈ fs, g <+: f := by
  induction fs generalizing n with
  | nil => cases h
  | cons f fs ih =>
    rcases List.mem_cons.mp h with rfl | h
    · exact ⟨f, List.mem_cons_self, List.take_prefix n f⟩
    · obtain ⟨f', hf', hlead⟩ := ih h
      exact ⟨f', List.mem_cons_of_mem _ hf', hlead⟩

theorem eq_nil_of_mem_shown_zero {fs : List (List Char)} {g : List Char} (h : g ∈ shown 0 fs) :
    g = [] := by
  induction fs with
  | nil => cases h
  | cons f fs ih =>
    rw [shown, Nat.zero_sub, Nat.zero_sub] at h
    rcases List.mem_cons.mp h with rfl | h
    · rfl
    · exact ih h

/-- A fragment is shown as a whole, or not at all, or it is the one that is cut. -/
theorem mem_shown {n : ℕ} {fs : List (List Char)} {g : List Char} (h : g ∈ shown n fs) :
    g ∈ fs ∨ g = [] ∨ cut n fs = some g := by
  induction fs generalizing n with
  | nil => cases h
  | cons f fs ih =>
    rw [cut]
    rcases List.mem_cons.mp h with rfl | h
    · by_cases hcut : n < f.length
      · exact .inr (.inr (if_pos hcut))
      · rw [List.take_of_length_le (not_lt.mp hcut)]
        exact .inl List.mem_cons_self
    · by_cases hcut : n < f.length
      · have hzero : n - f.length - redacted.length = 0 := by omega
        rw [hzero] at h
        exact .inr (.inl (eq_nil_of_mem_shown_zero h))
      · rw [if_neg hcut]
        exact (ih h).imp_left (List.mem_cons_of_mem _)

theorem mem_shown_of_cut {n : ℕ} {fs : List (List Char)} {g : List Char} (h : cut n fs = some g) :
    g ∈ shown n fs := by
  induction fs generalizing n with
  | nil => cases h
  | cons f fs ih =>
    rw [cut] at h
    rw [shown]
    split at h
    · rw [Option.some.inj h]
      exact List.mem_cons_self
    · exact List.mem_cons_of_mem _ (ih h)

/-- **What the result has**, the shown fragments have, if the brackets separate it and the word
between them does not have it. -/
theorem take_intercalate_iff {Q : List Char → Prop}
    (hopen : ∀ x y, Q (x ++ '<' :: y) ↔ Q x ∨ Q y) (hclose : ∀ x y, Q (x ++ '>' :: y) ↔ Q x ∨ Q y)
    (hword : ∀ k, ¬Q (redactedWord.take k)) (n : ℕ) (fs : List (List Char)) :
    Q ((redacted.intercalate fs).take n) ↔ ∃ g ∈ shown n fs, Q g := by
  have hnil : ¬Q [] := hword 0
  have htake : ∀ (stop : Char), (∀ x y, Q (x ++ stop :: y) ↔ Q x ∨ Q y) → ∀ (x y : List Char)
      (n : ℕ), Q ((x ++ stop :: y).take n) ↔ Q (x.take n) ∨ Q (y.take (n - x.length - 1)) := by
    intro stop hstop x y n
    rw [List.take_append]
    rcases Nat.eq_zero_or_pos (n - x.length) with hzero | hpos
    · simp [hzero, hnil]
    · obtain ⟨k, hk⟩ := Nat.exists_eq_succ_of_ne_zero hpos.ne'
      rw [hk, List.take_succ_cons, hstop]
      rfl
  induction fs generalizing n with
  | nil => simp [List.intercalate, shown, hnil]
  | cons f fs ih =>
    rw [shown, List.exists_mem_cons_iff]
    refine Iff.trans ?_ (or_congr Iff.rfl (ih _))
    by_cases hfs : fs = []
    · rw [hfs]
      simp [List.intercalate, hnil]
    · rw [Regex.intercalate_cons_of_ne_nil f hfs, append_redacted, htake '<' hopen,
        htake '>' hclose, or_iff_right (hword _)]
      have hlength : n - f.length - 1 - redactedWord.length - 1 =
          n - f.length - redacted.length := by
        have height : redactedWord.length = 8 := rfl
        have hten : redacted.length = 10 := rfl
        omega
      rw [hlength]

/-! ### What no fragment has -/

/-- No part has a bearer token. -/
theorem not_hasBearer_parts {p f : List Char} (hf : f ∈ bearerPattern.parts p) : ¬HasBearer f := by
  rintro ⟨m, hm, u, v, rfl⟩
  obtain ⟨x, y, -, hnone, -, -⟩ :=
    (Regex.scanned_parts plain_bearer.advances p).context hf
  have hne : m ++ v ≠ [] := by
    intro hnil
    exact plain_bearer.not_nil ((List.append_eq_nil_iff.mp hnil).1 ▸ hm)
  have hfirst := hnone u (m ++ v) (List.append_assoc ..) hne
  exact (plain_bearer.first_eq_none_iff.mp hfirst) m (v ++ y) (List.append_assoc ..) hm

theorem not_hasBearer_fragments {s f : List Char} (hf : f ∈ fragments uni s) : ¬HasBearer f := by
  obtain ⟨p, -, hfp⟩ := List.mem_flatMap.mp hf
  exact not_hasBearer_parts hfp

theorem occurs_bearer_iff {s : List Char} : bearerPattern.Occurs s ↔ HasBearer s := by
  constructor
  · rintro ⟨u, rest, d, rfl, hd⟩
    obtain ⟨m, hm, hspans⟩ := plain_bearer.mem_ends.mp hd
    have hrest := hspans.after
    dsimp only at hrest
    exact ⟨m, hm, u, d.after, by rw [hrest, List.append_assoc]⟩
  · rintro ⟨m, hm, u, v, rfl⟩
    exact ⟨u, m ++ v, ⟨m.reverse ++ u.reverse, v⟩, List.append_assoc ..,
      plain_bearer.mem_ends.mpr ⟨m, hm, rfl, rfl⟩⟩

theorem isAlphanum_of_toLower {c : Char} (h : c.toLower ∈ "bearer".toList) :
    c.isAlphanum = true := by
  have hletters : ∀ d ∈ "bearer".toList, d.isAlphanum = true := List.all_eq_true.mp rfl
  unfold Char.toLower at h
  split at h
  · rename_i hupper
    exact isAlphanum_iff.mpr (.inl hupper)
  · exact hletters c h

variable (htable : WordTable uni)

include htable

theorem isWord_of_isAlphanum {c : Char} (h : c.isAlphanum = true) : uni.isWord c = true := by
  have hless : c.toNat < 128 := by
    rw [isAlphanum_iff] at h
    omega
  rw [htable.ascii c hless, h]
  rfl

omit htable in
/-- **What begins with `s` in a part** of the second expression begins after no character of words
in the text that is split, if it does so in the part: a token that ends before the part would go on
with the letter. -/
theorem free_of_mem_bearer {x u f : List Char} (rest : List Char) (hf : f = u ++ 's' :: rest)
    (hfree : u.getLast?.any uni.isWord = false) {y : List Char}
    (hx : x = [] ∨ ∃ x' m, x = x' ++ m ∧ bearerPattern.first ⟨x'.reverse ++ [], m ++ (f ++ y)⟩ =
      some ⟨x.reverse ++ [], f ++ y⟩) : (x ++ u).getLast?.any uni.isWord = false := by
  by_cases hu : u = []
  · rcases hx with rfl | ⟨x', m, rfl, hm⟩
    · exact hfree
    · exfalso
      have hend : (x' ++ m).reverse ++ [] = m.reverse ++ (x'.reverse ++ []) := by simp
      rw [hend] at hm
      obtain ⟨hbearer, hlongest⟩ := plain_bearer.first_eq_some_iff.mp hm
      obtain ⟨b, sp, tok, rfl, hb, hsp, hspace, htok, htoken⟩ := hbearer.parts
      have hlonger : IsBearer (b ++ (sp ++ (tok ++ ['s']))) := by
        refine ⟨b, sp, tok ++ ['s'], rfl, hb, hsp, hspace, ?_, ?_⟩
        · rw [List.length_append]
          omega
        · rw [List.forall_mem_append]
          exact ⟨htoken, List.all_eq_true.mp rfl⟩
      have hle := hlongest _ (rest ++ y) (by simp [hf, hu]) hlonger
      simp only [List.length_append, List.length_singleton] at hle
      omega
  · rw [getLast?_append x hu]
    exact hfree

/-- So it does in a part of the first expression: a match ends at a boundary. -/
theorem free_of_mem_key {x u f : List Char} (rest : List Char) (hf : f = u ++ 's' :: rest)
    (hfree : u.getLast?.any uni.isWord = false) {y : List Char}
    (hx : x = [] ∨ ∃ x' m, x = x' ++ m ∧ (keyPattern uni).first ⟨x'.reverse ++ [], m ++ (f ++ y)⟩ =
      some ⟨x.reverse ++ [], f ++ y⟩) : (x ++ u).getLast?.any uni.isWord = false := by
  by_cases hu : u = []
  · rcases hx with rfl | ⟨x', m, rfl, hm⟩
    · exact hfree
    · rw [List.append_nil] at hm
      obtain ⟨w, hmw, hkey⟩ := key_of_first htable hm
      have hboundary := hkey.boundary
      have hs : uni.isWord 's' = true := htable.ascii 's' (by decide)
      rw [hf, hu, List.nil_append, List.cons_append, List.head?_cons, Option.any_some,
        hs] at hboundary
      rw [hu, List.append_nil, hmw, ← List.append_assoc, getLast?_append _ hkey.ne_nil]
      exact Bool.eq_false_iff.mpr hboundary
  · rw [getLast?_append x hu]
    exact hfree

/-- **A match in a part** of the second expression is one, or can be extended to one, in the text
that is split. -/
theorem occurs_of_mem_parts {p f : List Char} (hf : f ∈ bearerPattern.parts p)
    (h : (keyPattern uni).Occurs f) : (keyPattern uni).Occurs p := by
  obtain ⟨u, w, v, rfl, hkey⟩ := (occurs_key_iff htable).mp h
  obtain ⟨x, y, rfl, -, hx, hy⟩ := (Regex.scanned_parts plain_bearer.advances p).context hf
  rw [occurs_key_iff htable]
  have hfree : (x ++ u).getLast?.any uni.isWord = false :=
    free_of_mem_bearer ("k-".toList ++ (w ++ v)) (by simp) hkey.free hx
  by_cases hv : v = []
  · rcases hy with rfl | ⟨m, y', rfl, hm⟩
    · exact ⟨x ++ u, w, v, by simp, hkey.long, hkey.run, hfree, hkey.boundary⟩
    · -- the run goes on with the word that begins the token
      obtain ⟨hbearer, -⟩ := plain_bearer.first_eq_some_iff.mp hm
      obtain ⟨b, sp, tok, rfl, hb, hsp, hspace, -, -⟩ := hbearer.parts
      have hletters : ∀ c ∈ b, c.isAlphanum = true := by
        intro c hc
        apply isAlphanum_of_toLower
        rw [← hb]
        exact List.mem_map_of_mem hc
      have hbne : b ≠ [] := by
        rintro rfl
        cases hb
      obtain ⟨last, hlast⟩ := Option.ne_none_iff_exists'.mp (List.getLast?_eq_none_iff.not.mpr hbne)
      cases sp with
      | nil => cases hsp
      | cons space sp =>
        refine ⟨x ++ u, w ++ b, (space :: sp) ++ (tok ++ y'), by simp [hv], ?_, ?_, hfree, ?_⟩
        · have hlong := hkey.long
          rw [List.length_append]
          omega
        · rw [List.forall_mem_append]
          exact ⟨hkey.run, fun c hc => keyChar_of_isAlphanum (hletters c hc)⟩
        · rw [getLast?_append w hbne, hlast, Option.any_some,
            isWord_of_isAlphanum htable (hletters last (List.mem_of_getLast? hlast)),
            List.cons_append, List.head?_cons, Option.any_some,
            htable.space space (hspace space List.mem_cons_self)]
          decide
  · obtain ⟨c, v, rfl⟩ := List.exists_cons_of_ne_nil hv
    exact ⟨x ++ u, w, (c :: v) ++ y, by simp, hkey.long, hkey.run, hfree, hkey.boundary⟩

/-- **No part of the first expression** has a match of its own. -/
theorem not_occurs_parts {s p : List Char} (hp : p ∈ (keyPattern uni).parts s) :
    ¬(keyPattern uni).Occurs p := by
  intro h
  obtain ⟨u, w, v, rfl, hkey⟩ := (occurs_key_iff htable).mp h
  obtain ⟨x, y, rfl, hnone, hx, hy⟩ := (Regex.scanned_parts advances_key s).context hp
  -- the run ends where it did: a match that begins there asks for a boundary
  have hboundary : w.getLast?.any uni.isWord ≠ (v ++ y).head?.any uni.isWord := by
    by_cases hv : v = []
    · rcases hy with rfl | ⟨m, y', rfl, hm⟩
      · rw [List.append_nil]
        exact hkey.boundary
      · exfalso
        have hmem := Regex.mem_of_first hm
        have hplace : (u ++ (("sk-".toList ++ w) ++ v)).reverse ++ (x.reverse ++ []) =
            (x ++ (u ++ (("sk-".toList ++ w) ++ v))).reverse := by simp
        rw [hplace] at hmem
        obtain ⟨w', v', _, hkey', _⟩ := (mem_ends_key htable).mp hmem
        have hfree := hkey'.free
        have hlast : (x ++ (u ++ (("sk-".toList ++ w) ++ v))).getLast? = w.getLast? := by
          rw [hv, List.append_nil, ← List.append_assoc, ← List.append_assoc]
          exact getLast?_append _ hkey.ne_nil
        rw [hlast] at hfree
        have hbound := hkey.boundary
        rw [hfree, hv] at hbound
        exact hbound rfl
    · obtain ⟨c, v, rfl⟩ := List.exists_cons_of_ne_nil hv
      exact hkey.boundary
  by_cases hstart : u = [] ∧ x ≠ []
  · -- the match before the part would have gone on to the end of the run
    obtain ⟨rfl, hne⟩ := hstart
    obtain ⟨x', m, rfl, hm⟩ := hx.resolve_left hne
    rw [List.append_nil] at hm
    obtain ⟨w', hmw, hkey'⟩ := key_of_first htable hm
    have hlonger : KeyAt uni x' (w' ++ ("sk-".toList ++ w)) (v ++ y) := by
      refine ⟨?_, ?_, hkey'.free, ?_⟩
      · have hlong := hkey'.long
        rw [List.length_append]
        omega
      · rw [List.forall_mem_append, List.forall_mem_append]
        exact ⟨hkey'.run, List.all_eq_true.mp rfl, hkey.run⟩
      · rw [getLast?_append w' (by simp), getLast?_append _ hkey.ne_nil]
        exact hboundary
    have hle := greedy_key.first_le hm ((mem_ends_key htable).mpr
      ⟨_, v ++ y, by rw [hmw]; simp only [List.nil_append, List.append_assoc], hlonger, rfl⟩)
    simp only [List.nil_append, List.length_append] at hle
    have hlong := hkey.long
    omega
  · have hfree : (x ++ u).getLast?.any uni.isWord = false := by
      by_cases hu : u = []
      · have hxnil : x = [] := by
          by_contra hne
          exact hstart ⟨hu, hne⟩
        rw [hxnil]
        exact hkey.free
      · rw [getLast?_append x hu]
        exact hkey.free
    have hfirst := hnone u _ rfl (by simp)
    rw [List.append_nil, ← List.reverse_append, Regex.first_eq_none_iff] at hfirst
    exact hfirst _ ((mem_ends_key htable).mpr ⟨w, v ++ y, by simp only [List.append_assoc],
      ⟨hkey.long, hkey.run, hfree, hboundary⟩, rfl⟩)

theorem not_occurs_fragments {s f : List Char} (hf : f ∈ fragments uni s) :
    ¬(keyPattern uni).Occurs f := by
  obtain ⟨p, hp, hfp⟩ := List.mem_flatMap.mp hf
  exact fun h => not_occurs_parts htable hp (occurs_of_mem_parts htable hfp h)

/-! ### Keys and runs of the text -/

/-- **Where every key is covered**, no part of the first expression has one: the match before the
part would have gone on to the key. -/
theorem not_hasKey_parts {s p : List Char} (hcovered : Covered uni s)
    (hp : p ∈ (keyPattern uni).parts s) : ¬HasKey p := by
  rintro ⟨w, hlength, hletters, a, b, rfl⟩
  obtain ⟨x, y, rfl, hnone, hx, -⟩ := (Regex.scanned_parts advances_key s).context hp
  obtain ⟨u₁, m, w₁, v₁, hu, hm, hs, hkey⟩ :=
    hcovered (x ++ a) w (b ++ y) (by simp) hlength hletters
  by_cases hin : ∃ a₁, u₁ = x ++ a₁
  · obtain ⟨a₁, rfl⟩ := hin
    rw [List.append_assoc] at hu
    obtain rfl := List.append_cancel_left hu
    have hfirst := hnone a₁ (m ++ (("sk-".toList ++ w) ++ b)) (by simp) (by simp)
    rw [List.append_nil, ← List.reverse_append, Regex.first_eq_none_iff] at hfirst
    refine hfirst _ ((mem_ends_key htable).mpr ⟨w₁, v₁, ?_, hkey, rfl⟩)
    refine List.append_cancel_left (?_ : (x ++ a₁) ++ _ = (x ++ a₁) ++ _)
    rw [← List.append_assoc "sk-".toList, ← hs]
    simp
  · obtain ⟨x₁, hx₁, rfl⟩ : ∃ x₁, x = u₁ ++ x₁ ∧ m = x₁ ++ a := by
      rcases List.append_eq_append_iff.mp hu with ⟨k, hk, hk'⟩ | ⟨k, hk, hk'⟩
      · exact absurd ⟨k, hk⟩ hin
      · exact ⟨k, hk, hk'⟩
    have hxne : x ≠ [] := by
      rintro rfl
      obtain ⟨hnil, -⟩ := List.append_eq_nil_iff.mp hx₁.symm
      exact hin ⟨[], by rw [hnil]; rfl⟩
    obtain ⟨x', m', rfl, hm'⟩ := hx.resolve_left hxne
    rw [List.append_nil] at hm'
    obtain ⟨w', hmw, hkey'⟩ := key_of_first htable hm'
    have hlonger : KeyAt uni x' (w' ++ (a ++ ['s', 'k'])) ('-' :: (w ++ (b ++ y))) := by
      refine ⟨?_, ?_, hkey'.free, ?_⟩
      · have hlong := hkey'.long
        rw [List.length_append]
        omega
      · rw [List.forall_mem_append, List.forall_mem_append]
        exact ⟨hkey'.run, fun c hc => hm c (List.mem_append_right _ hc), List.all_eq_true.mp rfl⟩
      · rw [getLast?_append w' (by simp), getLast?_append a (by simp), List.head?_cons]
        show uni.isWord 'k' ≠ uni.isWord '-'
        rw [htable.ascii 'k' (by decide), htable.ascii '-' (by decide)]
        decide
    have hle := greedy_key.first_le hm' ((mem_ends_key htable).mpr
      ⟨_, '-' :: (w ++ (b ++ y)), by rw [hmw]; simp, hlonger, rfl⟩)
    simp only [List.length_append, List.length_cons] at hle
    have hthree : "sk-".toList.length = 3 := rfl
    omega

/-- So no fragment has one. -/
theorem not_hasKey_fragments {s f : List Char} (hcovered : Covered uni s)
    (hf : f ∈ fragments uni s) :
    ¬HasKey f := by
  obtain ⟨p, hp, hfp⟩ := List.mem_flatMap.mp hf
  rintro ⟨w, hlength, hletters, hin⟩
  obtain ⟨x, y, hxy, -⟩ := (Regex.scanned_parts plain_bearer.advances p).context hfp
  refine not_hasKey_parts htable hcovered hp ⟨w, hlength, hletters, hin.trans ⟨x, y, ?_⟩⟩
  rw [hxy, List.append_assoc]

/-- A key and a match of the first expression that overlap: the match begins at the key or before
it, in its run. -/
theorem overlap_key {s u w v u₁ w₁ v₁ : List Char} (hs : s = u ++ (("sk-".toList ++ w) ++ v))
    (hlength : w.length = 8) (hletters : ∀ c ∈ w, c.isAlphanum = true)
    (hs₁ : s = u₁ ++ (("sk-".toList ++ w₁) ++ v₁)) (hkey : KeyAt uni u₁ w₁ v₁) :
    (u₁ ++ ("sk-".toList ++ w₁)) <+: u ∨ (u ++ ("sk-".toList ++ w)) <+: u₁ ∨
      ∃ m, u = u₁ ++ m ∧ ∀ c ∈ m, keyChar c = true := by
  have hrun : ∀ c ∈ "sk-".toList ++ w₁, keyChar c = true :=
    List.forall_mem_append.mpr ⟨List.all_eq_true.mp rfl, hkey.run⟩
  have heq := hs.symm.trans hs₁
  rcases List.append_eq_append_iff.mp heq with ⟨k, rfl, hk⟩ | ⟨k, rfl, hk⟩
  · -- the match begins behind the key's place
    rcases List.append_eq_append_iff.mp hk with ⟨l, rfl, -⟩ | ⟨l, hl, hl'⟩
    · exact .inr (.inl ⟨l, by simp⟩)
    · have hstart : "sk-".toList = ['s', 'k', '-'] := rfl
      have hfree := hkey.free
      rw [hstart] at hl hl'
      rcases k with _ | ⟨c, _ | ⟨c', _ | ⟨c'', k⟩⟩⟩
      · exact .inr (.inr ⟨[], by simp, fun c hc => absurd hc List.not_mem_nil⟩)
      · obtain ⟨rfl, -⟩ := List.cons.inj hl
        rw [List.getLast?_concat, Option.any_some, htable.ascii 's' (by decide)] at hfree
        cases hfree
      · obtain ⟨-, hl⟩ := List.cons.inj hl
        obtain ⟨rfl, -⟩ := List.cons.inj hl
        rw [getLast?_append u (by simp), List.getLast?_cons_cons, List.getLast?_singleton,
          Option.any_some, htable.ascii 'k' (by decide)] at hfree
        cases hfree
      · have hw : w = k ++ l :=
          (List.cons.inj (List.cons.inj (List.cons.inj hl).2).2).2
        by_cases hk : k = []
        · -- the match begins with the key's letters, and has a hyphen where they have none
          rw [hk, List.nil_append] at hw
          rw [← hw] at hl'
          rcases w with _ | ⟨a, _ | ⟨b, _ | ⟨x, w⟩⟩⟩ <;> try cases hlength
          have hx : '-' = x := (List.cons.inj (List.cons.inj (List.cons.inj hl').2).2).1
          have hletter := hletters x (by simp)
          rw [← hx] at hletter
          cases hletter
        · obtain ⟨last, hlast⟩ :=
            Option.ne_none_iff_exists'.mp (List.getLast?_eq_none_iff.not.mpr hk)
          have hword := isWord_of_isAlphanum htable
            (hletters last (hw ▸ List.mem_append_left l (List.mem_of_getLast? hlast)))
          have hend : u ++ c :: c' :: c'' :: k = (u ++ [c, c', c'']) ++ k := by simp
          rw [hend, getLast?_append _ hk, hlast, Option.any_some, hword] at hfree
          cases hfree
  · rcases List.append_eq_append_iff.mp hk with ⟨l, rfl, -⟩ | ⟨l, hl, -⟩
    · exact .inl ⟨l, by simp⟩
    · refine .inr (.inr ⟨k, rfl, fun c hc => hrun c ?_⟩)
      rw [hl]
      exact List.mem_append_left _ hc

omit htable in
/-- The second expression makes no more room. -/
theorem room_flatMap_parts_le (ps : List (List Char)) :
    Regex.room redacted.length (ps.flatMap bearerPattern.parts) ≤
      Regex.room redacted.length ps := by
  induction ps with
  | nil => exact le_rfl
  | cons p ps ih =>
    have hsub := length_sub_bearer p
    rw [Regex.sub_eq_intercalate] at hsub
    have hroom := Regex.length_intercalate redacted (parts_ne_nil bearerPattern p)
    rw [List.flatMap_cons, Regex.room_append, Regex.room]
    omega

/-- **A key that is not covered**, and that no bearer token touches, is in a fragment, which stands
no further back than the key did. -/
theorem exists_fragment {s u w v : List Char} (hs : s = u ++ (("sk-".toList ++ w) ++ v))
    (hlength : w.length = 8) (hletters : ∀ c ∈ w, c.isAlphanum = true)
    (huncovered : ¬CoveredAt uni s u) (huntouched : Untouched s u ("sk-".toList ++ w)) :
    ∃ fs f gs a b, fragments uni s = fs ++ f :: gs ∧ f = a ++ (("sk-".toList ++ w) ++ b) ∧
      Regex.room redacted.length fs + a.length ≤ u.length := by
  have hten : redacted.length = 10 := rfl
  -- no match of the first expression overlaps the key
  obtain ⟨ps, p, qs, x, y, a, b, hparts, hxy, rfl, hp, hroom⟩ :=
    (Regex.scanned_parts advances_key s).exists_part (k := redacted.length)
      (fun c d hd => by have hspans := spans_key hd; omega) hs
      fun u₁ m v₁ hs₁ hfirst => by
        rw [List.append_nil] at hfirst
        obtain ⟨w₁, hm, hkey⟩ := key_of_first htable hfirst
        rw [hm] at hs₁ ⊢
        rcases overlap_key htable hs hlength hletters hs₁ hkey with
          hbefore | hafter | ⟨m', hu, hm'⟩
        · exact .inl hbefore
        · exact .inr hafter
        · exact absurd ⟨u₁, m', w₁, v₁, hu, hm', hs₁, hkey⟩ huncovered
  -- nor does one of the second expression, in that part
  obtain ⟨ps', f, qs', x', y', a', b', hparts', -, rfl, hf, hroom'⟩ :=
    (Regex.scanned_parts plain_bearer.advances p).exists_part (k := redacted.length)
      (fun c d hd => by have hspans := spans_bearer hd; omega) hp
      fun u₁ m v₁ hp₁ hfirst => by
        rw [List.append_nil] at hfirst
        have hwhere := huntouched (x ++ u₁) m (v₁ ++ y) (by rw [hxy, hp₁]; simp)
          (plain_bearer.first_eq_some_iff.mp hfirst).1
        rw [List.append_assoc, List.append_assoc] at hwhere
        exact hwhere.imp (List.prefix_append_right_inj _).mp (List.prefix_append_right_inj _).mp
  refine ⟨ps.flatMap bearerPattern.parts ++ ps', f, qs' ++ qs.flatMap bearerPattern.parts, a', b',
    ?_, hf, ?_⟩
  · rw [fragments, hparts, List.flatMap_append, List.flatMap_cons, hparts', List.append_assoc,
      List.append_assoc, List.cons_append]
  · have hbefore := room_flatMap_parts_le ps
    rw [Regex.room_append, List.length_append, List.length_append]
    omega

theorem isWord_of_letter {c : Char} (h : (c.isAlphanum || c == '_') = true) :
    uni.isWord c = true := by
  have hless : c.toNat < 128 := by
    rcases Bool.or_eq_true _ _ |>.mp h with hletter | hline
    · rw [isAlphanum_iff] at hletter
      omega
    · rw [beq_iff_eq.mp hline]
      decide
  rw [htable.ascii c hless, h]

omit htable in
/-- The letters, digits and underscores that a text begins with. -/
theorem exists_letters (s : List Char) : ∃ x y, s = x ++ y ∧
    (∀ c ∈ x, (c.isAlphanum || c == '_') = true) ∧
    ∀ c, y.head? = some c → (c.isAlphanum || c == '_') = false := by
  refine ⟨_, _, List.takeWhile_append_dropWhile.symm, List.all_eq_true.mp List.all_takeWhile,
    fun c hc => ?_⟩
  have hhead := List.head?_dropWhile_not (fun c : Char => c.isAlphanum || c == '_') s
  rwa [hc] at hhead

/-- **A match that only the cut makes** is an open run. -/
theorem openRun_of_lead {f g : List Char} (hlead : g <+: f) (hg : (keyPattern uni).Occurs g)
    (hf : ¬(keyPattern uni).Occurs f) : OpenRun uni g.length f := by
  obtain ⟨u, w, v, rfl, hkey⟩ := (occurs_key_iff htable).mp hg
  obtain ⟨rest, rfl⟩ := hlead
  rw [occurs_key_iff htable] at hf
  have hv : v = [] := by
    by_contra hne
    obtain ⟨c, v, rfl⟩ := List.exists_cons_of_ne_nil hne
    exact hf ⟨u, w, c :: v ++ rest, by simp, hkey.long, hkey.run, hkey.free, hkey.boundary⟩
  have hword : w.getLast?.any uni.isWord = true := by
    have hboundary := hkey.boundary
    rw [hv] at hboundary
    simpa using hboundary
  obtain ⟨x, y, rfl, hx, hy⟩ := exists_letters rest
  -- the run goes on to the end of its last word
  have hend : (w ++ x).getLast?.any uni.isWord = true := by
    by_cases hne : x = []
    · rw [hne, List.append_nil, hword]
    · obtain ⟨last, hlast⟩ := Option.ne_none_iff_exists'.mp (List.getLast?_eq_none_iff.not.mpr hne)
      rw [getLast?_append w hne, hlast, Option.any_some]
      exact isWord_of_letter htable (hx last (List.mem_of_getLast? hlast))
  have hrun : ∀ c ∈ w ++ x, keyChar c = true := List.forall_mem_append.mpr
    ⟨hkey.run, fun c hc => by rw [keyChar, hx c hc, Bool.true_or]⟩
  have hlong : 8 ≤ (w ++ x).length := by
    have hlong := hkey.long
    rw [List.length_append]
    omega
  refine ⟨u, w ++ x, y, by simp [hv], ⟨hlong, hrun, hkey.free, hend, ?_⟩, by simp [hv]⟩
  cases hhead : y.head? with
  | none =>
    refine absurd ⟨u, w ++ x, y, by simp [hv], hlong, hrun, hkey.free, ?_⟩ hf
    rw [hend, hhead, Option.any_none]
    decide
  | some c =>
    have hletter := hy c hhead
    have hc : uni.isWord c = true := by
      by_contra hnot
      refine hf ⟨u, w ++ x, y, by simp [hv], hlong, hrun, hkey.free, ?_⟩
      rw [hend, hhead, Option.any_some, Bool.eq_false_iff.mpr hnot]
      decide
    have hhyphen : (c == '-') = false := by
      rw [beq_eq_false_iff_ne]
      rintro rfl
      rw [htable.ascii '-' (by decide)] at hc
      cases hc
    rw [Option.any_some, hc, keyChar, hletter, hhyphen]
    rfl

omit htable in
/-- An open run of a part is one of the text. -/
theorem OpenRunAt.widen {u w v : List Char} (h : OpenRunAt uni u w v) {x : List Char}
    (hfree : (x ++ u).getLast?.any uni.isWord = false) (y : List Char) :
    OpenRunAt uni (x ++ u) w (v ++ y) := by
  refine ⟨h.long, h.run, hfree, h.word, ?_⟩
  have hgoesOn := h.goesOn
  cases v with
  | nil => cases hgoesOn
  | cons c v => exact hgoesOn

omit htable in
theorem openRun_of_bearer {p f : List Char} {ps qs : List (List Char)} {n : ℕ}
    (hparts : bearerPattern.parts p = ps ++ f :: qs) (h : OpenRun uni n f) :
    OpenRun uni (Regex.room redacted.length ps + n) p := by
  have hten : redacted.length = 10 := rfl
  obtain ⟨u, w, v, rfl, hopen, hn⟩ := h
  obtain ⟨x, y, rfl, -, hx, -, hroom⟩ :=
    (Regex.scanned_parts plain_bearer.advances p).context_at hparts
  have hle := hroom redacted.length fun c d hd => by
    have hspans := spans_bearer hd
    omega
  have hfree := free_of_mem_bearer ("k-".toList ++ (w ++ v)) (by simp) hopen.free hx
  refine ⟨x ++ u, w, v ++ y, by simp, hopen.widen hfree y, ?_⟩
  rw [List.append_assoc, List.length_append]
  exact Nat.add_le_add hle hn

theorem openRun_of_key {s p : List Char} {ps qs : List (List Char)} {n : ℕ}
    (hparts : (keyPattern uni).parts s = ps ++ p :: qs) (h : OpenRun uni n p) :
    OpenRun uni (Regex.room redacted.length ps + n) s := by
  have hten : redacted.length = 10 := rfl
  obtain ⟨u, w, v, rfl, hopen, hn⟩ := h
  obtain ⟨x, y, rfl, -, hx, -, hroom⟩ := (Regex.scanned_parts advances_key s).context_at hparts
  have hle := hroom redacted.length fun c d hd => by
    have hspans := spans_key hd
    omega
  have hfree := free_of_mem_key htable ("k-".toList ++ (w ++ v)) (by simp) hopen.free hx
  refine ⟨x ++ u, w, v ++ y, by simp, hopen.widen hfree y, ?_⟩
  rw [List.append_assoc, List.length_append]
  exact Nat.add_le_add hle hn

omit htable in
/-- A part of the parts is a part of one of them. -/
theorem exists_of_flatMap_eq {f : List Char} {l ps qs : List (List Char)}
    (h : l.flatMap bearerPattern.parts = ps ++ f :: qs) : ∃ as p bs ps' qs', l = as ++ p :: bs ∧
      bearerPattern.parts p = ps' ++ f :: qs' ∧ ps = as.flatMap bearerPattern.parts ++ ps' := by
  induction l generalizing ps with
  | nil => cases ps <;> cases h
  | cons p l ih =>
    have hlater : ∀ {k}, ps = bearerPattern.parts p ++ k →
        l.flatMap bearerPattern.parts = k ++ f :: qs → ∃ as q bs ps' qs',
          p :: l = as ++ q :: bs ∧ bearerPattern.parts q = ps' ++ f :: qs' ∧
            ps = as.flatMap bearerPattern.parts ++ ps' := by
      rintro k rfl hk
      obtain ⟨as, q, bs, ps', qs', rfl, hq, rfl⟩ := ih hk
      exact ⟨p :: as, q, bs, ps', qs', rfl, hq, by rw [List.flatMap_cons, List.append_assoc]⟩
    rw [List.flatMap_cons] at h
    rcases List.append_eq_append_iff.mp h with ⟨k, hps, hk⟩ | ⟨k, hp, hk⟩
    · exact hlater hps hk
    · cases k with
      | nil => exact hlater (k := []) (by rw [hp, List.append_nil, List.append_nil]) hk.symm
      | cons g k =>
        obtain ⟨rfl, -⟩ := List.cons.inj hk
        exact ⟨[], p, l, ps, k, rfl, hp, rfl⟩

/-- **An open run of a fragment** is one of the text, where it stands no further to the front. -/
theorem openRun_of_fragment {s f : List Char} {ps qs : List (List Char)} {n : ℕ}
    (hparts : fragments uni s = ps ++ f :: qs) (h : OpenRun uni n f) :
    OpenRun uni (Regex.room redacted.length ps + n) s := by
  obtain ⟨as, p, bs, ps', qs', has, hp, rfl⟩ := exists_of_flatMap_eq hparts
  obtain ⟨u, w, v, hs, hopen, hn⟩ := openRun_of_key htable has (openRun_of_bearer hp h)
  refine ⟨u, w, v, hs, hopen, le_trans ?_ hn⟩
  have hle := room_flatMap_parts_le as
  rw [Regex.room_append]
  omega

end Fragments

/-! ## The result -/

section Result

variable {uni : Unicode} (htable : WordTable uni) (value : String)

theorem toList_sanitizeText (uni : Unicode) (value : String) :
    (sanitizeText uni value).toList =
      (redacted.intercalate (fragments uni value.toList)).take 1000 := by
  rw [sanitizeText, String.toList_ofList, redact_eq]

/-- A start of the word between the brackets has none of the letters that a credential begins
with. -/
theorem not_mem_redactedWord (k : ℕ) :
    's' ∉ redactedWord.take k ∧ ∀ c ∈ redactedWord.take k, c.toLower ≠ 'b' := by
  have hkey : 's' ∉ redactedWord := by decide
  have hbearer : redactedWord.all (fun c => c.toLower ≠ 'b') := by decide
  exact ⟨fun h => hkey (List.mem_of_mem_take h), fun c hc =>
    of_decide_eq_true (List.all_eq_true.mp hbearer c (List.mem_of_mem_take hc))⟩

theorem hasKey_iff : HasKey (sanitizeText uni value).toList ↔
    ∃ g ∈ shown 1000 (fragments uni value.toList), HasKey g := by
  rw [toList_sanitizeText]
  refine take_intercalate_iff (hasKey_append_cons (by decide)) (hasKey_append_cons (by decide))
    ?_ _ _
  rintro k ⟨w, -, -, hin⟩
  exact (not_mem_redactedWord k).1 (hin.subset (by simp))

theorem not_hasBearer : ¬HasBearer (sanitizeText uni value).toList := by
  rw [toList_sanitizeText, take_intercalate_iff
    (hasBearer_append_cons fun m hm => hm.not_mem.1)
    (hasBearer_append_cons fun m hm => hm.not_mem.2)]
  · rintro ⟨g, hg, m, hm, hin⟩
    obtain ⟨f, hf, hlead⟩ := shown_prefix hg
    exact not_hasBearer_fragments hf ⟨m, hm, hin.trans hlead.isInfix⟩
  · rintro k ⟨m, hm, hin⟩
    obtain ⟨b, sp, tok, rfl, hb, -⟩ := hm.parts
    cases b with
    | nil => cases hb
    | cons c b =>
      rw [List.map_cons] at hb
      exact (not_mem_redactedWord k).2 c (hin.subset (by simp)) (List.cons.inj hb).1

/-- A key that is replaced makes the text shorter. -/
theorem length_sub_key (uni : Unicode) (s : List Char) :
    ((keyPattern uni).sub redacted s).length ≤ s.length ∧
      ((keyPattern uni).Occurs s → ((keyPattern uni).sub redacted s).length < s.length) := by
  have hten : redacted.length = 10 := rfl
  refine Regex.length_sub_le advances_key redacted (fun c d hd => ?_) s
  have hspans := spans_key hd
  omega

/-- **A second time** the function changes nothing just when the first expression has no match in
the result. -/
theorem idempotent_iff : sanitizeText uni (sanitizeText uni value) = sanitizeText uni value ↔
    ¬(keyPattern uni).Occurs (sanitizeText uni value).toList := by
  have hlength : (sanitizeText uni value).toList.length ≤ 1000 := by
    rw [toList_sanitizeText]
    exact List.length_take_le ..
  have hbearer : ¬bearerPattern.Occurs (sanitizeText uni value).toList :=
    occurs_bearer_iff.not.mpr (not_hasBearer value)
  generalize sanitizeText uni value = result at hlength hbearer ⊢
  constructor
  · intro heq hoccurs
    have hkey := (length_sub_key uni result.toList).2 hoccurs
    have htoken := length_sub_bearer ((keyPattern uni).sub redacted result.toList)
    have hlist := congrArg String.toList heq
    rw [sanitizeText, String.toList_ofList, redact] at hlist
    have hcut := congrArg List.length hlist
    rw [List.length_take] at hcut
    omega
  · intro hnot
    apply String.toList_inj.mp
    rw [sanitizeText, String.toList_ofList, redact, Regex.sub_of_not_occurs hnot,
      Regex.sub_of_not_occurs hbearer, List.take_of_length_le hlength]

include htable

theorem occurs_key_shown_iff : (keyPattern uni).Occurs (sanitizeText uni value).toList ↔
    ∃ g, cut 1000 (fragments uni value.toList) = some g ∧ (keyPattern uni).Occurs g := by
  have hnil : ∀ g : List Char, 's' ∉ g → ¬(keyPattern uni).Occurs g := by
    intro g hg hoccurs
    obtain ⟨u, w, v, rfl, -⟩ := (occurs_key_iff htable).mp hoccurs
    exact hg (by simp)
  rw [toList_sanitizeText, take_intercalate_iff
    (occurs_key_append_cons htable (by decide) (htable.ascii '<' (by decide)))
    (occurs_key_append_cons htable (by decide) (htable.ascii '>' (by decide)))
    fun k => hnil _ (not_mem_redactedWord k).1]
  constructor
  · rintro ⟨g, hg, hoccurs⟩
    rcases mem_shown hg with hf | rfl | hcut
    · exact absurd hoccurs (not_occurs_fragments htable hf)
    · exact absurd hoccurs (hnil [] List.not_mem_nil)
    · exact ⟨g, hcut, hoccurs⟩
  · rintro ⟨g, hcut, hoccurs⟩
    exact ⟨g, mem_shown_of_cut hcut, hoccurs⟩

/-- **When the result is clean**: no fragment shows a key, and the one that is cut, if any, has no
match of the first expression up to where it is cut. -/
theorem clean_iff_shown : Clean uni value ↔
    (∀ g ∈ shown 1000 (fragments uni value.toList), ¬HasKey g) ∧
      ∀ g, cut 1000 (fragments uni value.toList) = some g → ¬(keyPattern uni).Occurs g := by
  rw [Clean, hasKey_iff, idempotent_iff, occurs_key_shown_iff htable,
    and_iff_right (not_hasBearer value)]
  simp only [not_exists, not_and]

end Result

/-! ## The characters of the text -/

section Characters

variable {uni : Unicode}

/-- The fragment that is cut, and what stands before it. -/
theorem cut_some {n : ℕ} {fs : List (List Char)} {g : List Char} (h : cut n fs = some g)
    (hg : g ≠ []) : ∃ ps f qs, fs = ps ++ f :: qs ∧ g <+: f ∧
      Regex.room redacted.length ps + g.length = n := by
  induction fs generalizing n with
  | nil => cases h
  | cons f fs ih =>
    rw [cut] at h
    split at h
    · rename_i hlt
      obtain rfl := Option.some.inj h
      refine ⟨[], f, fs, rfl, List.take_prefix n f, ?_⟩
      rw [Regex.room, List.length_take]
      omega
    · obtain ⟨ps, f', qs, rfl, hlead, hroom⟩ := ih h
      have hpos := List.length_pos_iff.mpr hg
      refine ⟨f :: ps, f', qs, rfl, hlead, ?_⟩
      rw [Regex.room]
      omega

/-- After an open run there is another character. -/
theorem not_openRun {n : ℕ} {s : List Char} (h : s.length ≤ n) : ¬OpenRun uni n s := by
  rintro ⟨u, w, v, rfl, hopen, hlate⟩
  have hv : v ≠ [] := by
    rintro rfl
    cases hopen.goesOn
  have hpos := List.length_pos_iff.mpr hv
  simp only [List.length_append] at h hlate
  omega

/-- **A key that stays**: one that is not covered, that no bearer token touches and that ends before
the cut, is in the result. -/
theorem hasKey_of_not_coveredAt (htable : WordTable uni) (value : String) {u w v : List Char}
    (hs : value.toList = u ++ (("sk-".toList ++ w) ++ v)) (hlength : w.length = 8)
    (hletters : ∀ c ∈ w, c.isAlphanum = true) (huncovered : ¬CoveredAt uni value.toList u)
    (huntouched : Untouched value.toList u ("sk-".toList ++ w)) (hshort : u.length + 11 ≤ 1000) :
    HasKey (sanitizeText uni value).toList := by
  obtain ⟨fs, f, gs, a, b, hfragments, rfl, hroom⟩ :=
    exists_fragment htable hs hlength hletters huncovered huntouched
  obtain ⟨x, rest, hresult, hx⟩ := Regex.exists_intercalate redacted fs
    (a ++ (("sk-".toList ++ w) ++ b)) gs
  have hthree : "sk-".toList.length = 3 := rfl
  refine ⟨w, hlength, hletters, ?_⟩
  rw [toList_sanitizeText, hfragments, hresult]
  have hlead : (x ++ a) ++ ("sk-".toList ++ w) <+: x ++ (a ++ (("sk-".toList ++ w) ++ b) ++ rest) :=
    ⟨b ++ rest, by simp⟩
  refine List.IsInfix.trans ⟨x ++ a, [], List.append_nil _⟩
    (List.prefix_take_iff.mpr ⟨hlead, ?_⟩).isInfix
  simp only [List.length_append]
  omega

/-- **When the result is clean**, by the characters of the text. It is where every key is covered
and no run stays open up to the cut. Where it is, every key is covered that no bearer token touches
and that ends within the first thousand characters. So for the texts that are not cut and have no
bearer token it is just for those with every key covered. -/
theorem clean_iff_covered (htable : WordTable uni) (value : String) :
    (Covered uni value.toList → ¬OpenRun uni 1000 value.toList → Clean uni value) ∧
    (Clean uni value → ∀ u w v, value.toList = u ++ (("sk-".toList ++ w) ++ v) → w.length = 8 →
      (∀ c ∈ w, c.isAlphanum = true) → Untouched value.toList u ("sk-".toList ++ w) →
      u.length + 11 ≤ 1000 → CoveredAt uni value.toList u) ∧
    (value.toList.length ≤ 1000 → ¬HasBearer value.toList →
      (Clean uni value ↔ Covered uni value.toList)) := by
  have hclean : Covered uni value.toList → ¬OpenRun uni 1000 value.toList → Clean uni value := by
    intro hcovered hopen
    rw [clean_iff_shown htable]
    constructor
    · rintro g hg ⟨w, hlength, hletters, hin⟩
      -- a key that is shown is in a fragment
      obtain ⟨f, hf, hlead⟩ := shown_prefix hg
      exact not_hasKey_fragments htable hcovered hf ⟨w, hlength, hletters, hin.trans hlead.isInfix⟩
    · intro g hcut hoccurs
      -- the cut makes a match only of a run that stays open
      have hg : g ≠ [] := by
        rintro rfl
        obtain ⟨u, w, v, hnil, -⟩ := (occurs_key_iff htable).mp hoccurs
        cases u <;> cases hnil
      obtain ⟨ps, f, qs, hfragments, hlead, hroom⟩ := cut_some hcut hg
      have hf : f ∈ fragments uni value.toList := hfragments ▸ List.mem_append_right ps
        List.mem_cons_self
      exact hopen (hroom ▸ openRun_of_fragment htable hfragments
        (openRun_of_lead htable hlead hoccurs (not_occurs_fragments htable hf)))
  have hcovered : Clean uni value → ∀ u w v, value.toList = u ++ (("sk-".toList ++ w) ++ v) →
      w.length = 8 → (∀ c ∈ w, c.isAlphanum = true) →
      Untouched value.toList u ("sk-".toList ++ w) → u.length + 11 ≤ 1000 →
      CoveredAt uni value.toList u := by
    intro h u w v hs hlength hletters huntouched hshort
    by_contra hnot
    exact h.1 (hasKey_of_not_coveredAt htable value hs hlength hletters hnot huntouched hshort)
  refine ⟨hclean, hcovered, fun hshort hbearer => ⟨fun h u w v hs hlength hletters => ?_,
    fun hall => hclean hall (not_openRun hshort)⟩⟩
  have huntouched : Untouched value.toList u ("sk-".toList ++ w) :=
    fun u₁ m v₁ hs₁ hm => absurd ⟨m, hm, u₁, v₁, by rw [hs₁, List.append_assoc]⟩ hbearer
  have hthree : "sk-".toList.length = 3 := rfl
  have htotal := congrArg List.length hs
  simp only [List.length_append] at htotal
  exact hcovered h u w v hs hlength hletters huntouched (by omega)

end Characters

/-! ## A key after an ideograph -/

theorem wordTable_ascii : WordTable .ascii where
  ascii c hc := by
    have hideograph : isIdeograph c = false := by
      rw [isIdeograph, Bool.and_eq_false_iff, decide_eq_false_iff_not]
      exact .inl (by omega)
    change (c.isAlphanum || c == '_' || isIdeograph c) = _
    rw [hideograph, Bool.or_false]
  space c hc := by
    change (c.isAlphanum || c == '_' || isIdeograph c) = false
    rw [isAlphanum_of_isSpace hc, Bool.false_or, Bool.or_eq_false_iff]
    constructor
    · rw [beq_eq_false_iff_ne]
      rintro rfl
      exact absurd hc (by decide)
    · unfold Text.isSpace at hc
      rw [isIdeograph, Bool.and_eq_false_iff, decide_eq_false_iff_not, decide_eq_false_iff_not]
      simp at hc
      omega

/-- A key that follows an ideograph stays. -/
theorem not_clean : ¬∀ (uni : Unicode), WordTable uni → ∀ value, Clean uni value := by
  intro h
  have hclean := h .ascii wordTable_ascii "钥sk-abcd1234"
  have hsame : (sanitizeText .ascii "钥sk-abcd1234").toList = '钥' :: "sk-abcd1234".toList := by
    decide +kernel
  refine hclean.1 ⟨"abcd1234".toList, by decide, List.all_eq_true.mp rfl, ?_⟩
  rw [hsame]
  exact ⟨['钥'], [], by decide⟩

/-- A text with two credentials. -/
def twoSecrets : String := "sk-abcd1234, Bearer abcd1234"

example : sanitizeText .ascii twoSecrets = "<REDACTED>, <REDACTED>" := by decide +kernel

theorem clean_twoSecrets : Clean .ascii twoSecrets := by
  refine (clean_iff_covered wordTable_ascii twoSecrets).1 ?_ (not_openRun (by decide))
  have htext : twoSecrets.toList = 's' :: "k-abcd1234, Bearer abcd1234".toList := by decide +kernel
  have honce : 's' ∉ "k-abcd1234, Bearer abcd1234".toList := by decide +kernel
  intro u w v hs _ _
  -- the only key is at the start
  have hu : u = [] := by
    rcases u with _ | ⟨c, u⟩
    · rfl
    · rw [htext, List.cons_append] at hs
      refine absurd ?_ honce
      rw [(List.cons.inj hs).2]
      simp
  exact ⟨[], [], "abcd1234".toList, ", Bearer abcd1234".toList, hu, by simp, by decide +kernel,
    by decide, List.all_eq_true.mp rfl, rfl, by decide⟩

end Errors
