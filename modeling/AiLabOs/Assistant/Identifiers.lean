import AiLabOs.Assistant.Intent
import AiLabOs.Base.Matching
import Mathlib.Data.List.Induction

/-!
# CEO Assistant: identifiers

Identifiers are searched for with a word boundary on both sides. An ideograph is a character of
words, so an identifier that touches one is not found.

## Main definitions

* `extractInboxId`, `taskIdOf`, `reminderTarget`: the searches
* `IdAt`: an identifier with no character of words next to it
* `FirstId`: the first such identifier of a text
* `Finder`: the four searches

## Main results

* `mem_ends_idOf`: what the expression of an identifier matches
* `search_idOf_iff`: a search finds the first identifier with no character of words next to it
* `finds_iff`: when an identifier is found that touches no letter, digit or underscore of ASCII
-/

namespace Assistants

open Regex (Spans)

section Searches

variable (uni : Unicode)

/-- `\b<lead>[...]+\b`. -/
def idOf (lead : String) (letter : Char → Bool) : Regex :=
  .seq (.boundary uni.isWord) (.seq (.lit lead) (.seq (.plus (.set letter))
    (.boundary uni.isWord)))

/-- `extract_inbox_id`. -/
def extractInboxId (text : String) : Option String := (idPattern uni "inbox_").search text

/-- The task identifier that `_handle_task` searches for. -/
def taskIdOf (userInput : String) : Option String := (idPattern uni "ut_").search userInput

/-- The text before the first of the markers: `re.split("…|…", text, maxsplit=1)[0]`. -/
def untilMarker (markers : List String) : List Char → List Char
  | [] => []
  | c :: text =>
    if markers.any fun marker => marker.toList.isPrefixOf (c :: text) then []
    else c :: untilMarker markers text

/-- `re.sub(r"^(?:把|将)\s*", "", text)`. -/
def dropObject (text : String) : String :=
  match text.toList with
  | c :: rest => if c = '把' ∨ c = '将' then String.ofList (rest.dropWhile Text.isSpace) else text
  | [] => text

/-- The characters that a title is stripped of. -/
def titleEnds : List Char := [' ', '，', '。', ':', '：']

/-- `_reminder_target`: an identifier, or what is left of the text as a title. -/
def reminderTarget (text : String) : Option String × Option String :=
  match (idOf uni "rem_" Char.isAlphanum).search text with
  | some reminderId => (some reminderId, none)
  | none =>
    let title := ["查看这条提醒", "查看提醒", "取消这条提醒", "取消提醒", "把提醒", "将提醒", "取消",
      "的提醒"].foldl (fun title marker => Text.replace marker " " title) text
    let title := String.ofList (untilMarker ["改到", "延后到"] title.toList)
    let title := Text.dropTrailing (· ∈ titleEnds) (Text.dropLeading titleEnds title)
    let title := dropObject title
    (none, if title = "" then none else some title)

end Searches

/-! ## Identifiers in a text -/

section Places

variable (word letter : Char → Bool) (lead : String)

/-- No character of words is next to a place between two texts. -/
def Free (u v : List Char) : Prop := u.getLast?.any word = false ∧ v.head?.any word = false

/-- An identifier between two texts, with no character of words next to it. -/
structure IdAt (u id v : List Char) : Prop where
  spelled : ∃ w, w ≠ [] ∧ (∀ c ∈ w, letter c = true) ∧ id = lead.toList ++ w
  free : Free word u v

/-- **The first identifier** of a text with no character of words next to it. -/
def FirstId (text id : List Char) : Prop :=
  ∃ u v, text = u ++ id ++ v ∧ IdAt word letter lead u id v ∧
    ∀ u' id' v', text = u' ++ id' ++ v' → IdAt word letter lead u' id' v' → u.length ≤ u'.length

end Places

section Matches

variable {uni : Unicode} {lead : String} {letter : Char → Bool}
  (hlead : ∃ c rest, lead.toList = c :: rest ∧ uni.isWord c = true)
  (hletter : ∀ c, letter c = true → uni.isWord c = true)

include hlead hletter

/-- **What the expression matches**: an identifier with no character of words next to it. -/
theorem mem_ends_idOf {c d : Regex.Place} : d ∈ (idOf uni lead letter).ends c ↔
    c.before.head?.any uni.isWord = false ∧ d.after.head?.any uni.isWord = false ∧
      ∃ w, w ≠ [] ∧ (∀ x ∈ w, letter x = true) ∧ Spans c d (lead.toList ++ w) := by
  obtain ⟨first, rest, hfirst, hword⟩ := hlead
  have hlast : ∀ {w : List Char} {e : Regex.Place}, w ≠ [] → (∀ x ∈ w, letter x = true) →
      Spans e d w → d.before.head?.any uni.isWord = true := by
    intro w e hne hw hspans
    rw [hspans.head?_before hne]
    cases hget : w.getLast? with
    | none => exact absurd (List.getLast?_eq_none_iff.mp hget) hne
    | some x => exact hletter x (hw x (List.mem_of_getLast? hget))
  simp only [idOf, Regex.boundary, Regex.mem_ends_seq, Regex.mem_ends_look, Regex.mem_ends_lit]
  constructor
  · rintro ⟨e, ⟨rfl, hbefore⟩, f, hlit, g, hrun, rfl, hafter⟩
    obtain ⟨w, hlength, hw, hspans⟩ := Regex.mem_ends_atLeast (n := 1) |>.mp hrun
    have hne : w ≠ [] := List.length_pos_iff.mp hlength
    refine ⟨?_, ?_, w, hne, hw, hlit.trans hspans⟩
    · rw [hlit.after, hfirst, List.cons_append, List.head?_cons, Option.any_some, hword] at hbefore
      simpa using hbefore
    · rw [hlast hne hw hspans] at hafter
      simpa using hafter
  · rintro ⟨hbefore, hafter, w, hne, hw, hspans⟩
    obtain ⟨f, hlit, hrun⟩ := Regex.spans_append_iff.mp hspans
    refine ⟨c, ⟨rfl, ?_⟩, f, hlit, d, ?_, rfl, ?_⟩
    · rw [hlit.after, hfirst, List.cons_append, List.head?_cons, Option.any_some, hword, hbefore]
      rfl
    · exact Regex.mem_ends_atLeast (n := 1) |>.mpr ⟨w, List.length_pos_iff.mpr hne, hw, hrun⟩
    · rw [hlast hne hw hrun, hafter]
      rfl

/-- From one place there is one identifier at most. -/
theorem ends_idOf_unique {c d d' : Regex.Place} (hd : d ∈ (idOf uni lead letter).ends c)
    (hd' : d' ∈ (idOf uni lead letter).ends c) : d = d' := by
  obtain ⟨-, hafter, w, -, hw, hspans⟩ := (mem_ends_idOf hlead hletter).mp hd
  obtain ⟨-, hafter', w', -, hw', hspans'⟩ := (mem_ends_idOf hlead hletter).mp hd'
  -- the next character of the longer one would be no character of words
  have hlonger : ∀ {w w' : List Char} {d d' : Regex.Place}, (∀ x ∈ w', letter x = true) →
      d.after.head?.any uni.isWord = false → Spans c d (lead.toList ++ w) →
      Spans c d' (lead.toList ++ w') → w.length < w'.length → False := by
    intro w w' d d' hw' hafter hspans hspans' hless
    have heq := hspans.after.symm.trans hspans'.after
    rw [List.append_assoc, List.append_assoc, List.append_cancel_left_eq] at heq
    rcases List.append_eq_append_iff.mp heq with ⟨m, rfl, hm⟩ | ⟨m, rfl, -⟩
    · cases m with
      | nil => simp at hless
      | cons x m =>
        have hx := hletter x (hw' x (by simp))
        rw [hm, List.cons_append, List.head?_cons, Option.any_some, hx] at hafter
        cases hafter
    · rw [List.length_append] at hless
      omega
  have hlength : w.length = w'.length := by
    by_contra hne
    rcases Nat.lt_or_gt_of_ne hne with hless | hless
    · exact hlonger hw' hafter hspans hspans' hless
    · exact hlonger hw hafter' hspans' hspans hless
  have heq := hspans.after.symm.trans hspans'.after
  rw [List.append_assoc, List.append_assoc, List.append_cancel_left_eq] at heq
  obtain ⟨rfl, -⟩ := List.append_inj heq hlength
  exact hspans.eq hspans'

theorem mem_first_idOf {c d : Regex.Place} :
    (idOf uni lead letter).first c = some d ↔ d ∈ (idOf uni lead letter).ends c := by
  constructor
  · exact Regex.mem_of_first
  · intro hd
    cases hfirst : (idOf uni lead letter).first c with
    | none => exact absurd hd (Regex.first_eq_none_iff.mp hfirst d)
    | some e => rw [ends_idOf_unique hlead hletter hd (Regex.mem_of_first hfirst)]

/-- A match is an identifier of the text. -/
theorem mem_ends_iff_idAt {u rest : List Char} {d : Regex.Place} :
    d ∈ (idOf uni lead letter).ends ⟨u.reverse, rest⟩ ↔
      ∃ id v, rest = id ++ v ∧ IdAt uni.isWord letter lead u id v ∧
        Spans ⟨u.reverse, rest⟩ d id := by
  rw [mem_ends_idOf hlead hletter, List.head?_reverse]
  constructor
  · rintro ⟨hu, hd, w, hne, hw, hspans⟩
    exact ⟨lead.toList ++ w, d.after, hspans.after, ⟨⟨w, hne, hw, rfl⟩, hu, hd⟩, hspans⟩
  · rintro ⟨id, v, rfl, ⟨⟨w, hne, hw, rfl⟩, hu, hv⟩, hspans⟩
    have hafter : v = d.after := List.append_cancel_left hspans.after
    exact ⟨hu, hafter ▸ hv, w, hne, hw, hspans⟩

/-- **A search** finds the first identifier with no character of words next to it. -/
theorem search_idOf_iff {text id : List Char} :
    (idOf uni lead letter).search (String.ofList text) = some (String.ofList id) ↔
      FirstId uni.isWord letter lead text id := by
  rw [Regex.search_eq_some_iff, String.toList_ofList]
  constructor
  · rintro ⟨u, rest, rfl, hfound, hnone⟩
    obtain ⟨d, hd, hbetween⟩ := Option.map_eq_some_iff.mp hfound
    obtain ⟨id', v, rfl, hat, hspans⟩ :=
      (mem_ends_iff_idAt hlead hletter).mp (Regex.mem_of_first hd)
    rw [Regex.between_eq hspans] at hbetween
    obtain rfl := String.ofList_injective hbetween
    refine ⟨u, v, (List.append_assoc ..).symm, hat, fun u' id' v' heq hat' => ?_⟩
    by_contra hless
    have hfirst := hnone u' (id' ++ v') (by rw [heq, List.append_assoc]) (by omega)
    rw [Regex.first_eq_none_iff] at hfirst
    exact hfirst ⟨id'.reverse ++ u'.reverse, v'⟩
      ((mem_ends_iff_idAt hlead hletter).mpr ⟨id', v', rfl, hat', rfl, rfl⟩)
  · rintro ⟨u, v, rfl, hat, hleast⟩
    have hspans : Spans ⟨u.reverse, id ++ v⟩ ⟨id.reverse ++ u.reverse, v⟩ id := ⟨rfl, rfl⟩
    refine ⟨u, id ++ v, List.append_assoc .., ?_, fun u' rest' heq hless => ?_⟩
    · have hmem := (mem_ends_iff_idAt hlead hletter).mpr ⟨id, v, rfl, hat, hspans⟩
      rw [(mem_first_idOf hlead hletter).mpr hmem, Option.map_some, Regex.between_eq hspans]
    · rw [Regex.first_eq_none_iff]
      intro d hd
      obtain ⟨id', v', rfl, hat', -⟩ := (mem_ends_iff_idAt hlead hletter).mp hd
      have hle := hleast u' id' v' (by rw [heq, List.append_assoc]) hat'
      omega

end Matches

/-! ## The four searches -/

/-- The searches for identifiers. -/
inductive Finder where
  | waitingFor
  | inbox
  | task
  | reminder
deriving DecidableEq, Repr

namespace Finder

/-- How the identifiers begin. -/
def lead : Finder → String
  | waitingFor => "wf_"
  | inbox => "inbox_"
  | task => "ut_"
  | reminder => "rem_"

/-- The characters that follow. -/
def letter : Finder → Char → Bool
  | reminder => Char.isAlphanum
  | _ => isIdLetter

/-- The search returns exactly this identifier. -/
def Returns (uni : Unicode) (text id : String) : Finder → Prop
  | waitingFor => extractWaitingForId uni text = some id
  | inbox => extractInboxId uni text = some id
  | task => taskIdOf uni text = some id
  | reminder => reminderTarget uni text = (some id, none)

/-- **An identifier in its place**: no letter, digit or underscore of ASCII touches it, and no
identifier begins before it. -/
structure Placed (f : Finder) (u w v : List Char) : Prop where
  ne_nil : w ≠ []
  letters : ∀ c ∈ w, f.letter c = true
  before : ∀ c ∈ u.getLast?, isIdLetter c = false
  after : ∀ c ∈ v.head?, isIdLetter c = false
  leftmost : ∀ u' w' v', u ++ (f.lead.toList ++ w) ++ v = u' ++ (f.lead.toList ++ w') ++ v' →
    w' ≠ [] → (∀ c ∈ w', f.letter c = true) → (∀ c ∈ u'.getLast?, isIdLetter c = false) →
    u.length ≤ u'.length

/-- **The same identifier stands again**: further on, it is the first identifier of the text with no
character of words next to it. -/
def Again (word : Char → Bool) (f : Finder) (u w v : List Char) : Prop :=
  ∃ u' v', u.length < u'.length ∧
    u ++ (f.lead.toList ++ w) ++ v = u' ++ (f.lead.toList ++ w) ++ v' ∧
    Free word u' v' ∧
    ∀ u'' id v'', u ++ (f.lead.toList ++ w) ++ v = u'' ++ id ++ v'' →
      IdAt word f.letter f.lead u'' id v'' → u'.length ≤ u''.length

variable {uni : Unicode}

theorem returns_iff (f : Finder) {text id : String} :
    f.Returns uni text id ↔ (idOf uni f.lead f.letter).search text = some id := by
  cases f with
  | reminder =>
    change reminderTarget uni text = (some id, none) ↔
      (idOf uni "rem_" Char.isAlphanum).search text = some id
    unfold reminderTarget
    cases (idOf uni "rem_" Char.isAlphanum).search text with
    | none => exact iff_of_false (by simp) (by simp)
    | some found => simp
  | _ => exact Iff.rfl

theorem isIdLetter_of_letter {f : Finder} {c : Char} (h : f.letter c = true) :
    isIdLetter c = true := by
  cases f with
  | reminder =>
    change c.isAlphanum = true at h
    rw [isIdLetter, h]
    rfl
  | _ => exact h

theorem exists_lead (f : Finder) : ∃ c rest, f.lead.toList = c :: rest ∧ isIdLetter c = true := by
  cases f with
  | waitingFor => exact ⟨'w', ['f', '_'], rfl, by decide⟩
  | inbox => exact ⟨'i', ['n', 'b', 'o', 'x', '_'], rfl, by decide⟩
  | task => exact ⟨'u', ['t', '_'], rfl, by decide⟩
  | reminder => exact ⟨'r', ['e', 'm', '_'], rfl, by decide⟩

/-- **When an identifier is found** that touches no letter, digit or underscore of ASCII: no
character of words touches it, or it stands again further on. -/
theorem finds_iff (hword : ∀ c, isIdLetter c = true → uni.isWord c = true) (f : Finder)
    {u w v : List Char} (h : f.Placed u w v) :
    f.Returns uni (String.ofList (u ++ (f.lead.toList ++ w) ++ v))
        (String.ofList (f.lead.toList ++ w)) ↔
      Free uni.isWord u v ∨ f.Again uni.isWord u w v := by
  obtain ⟨c, rest, hlead, hc⟩ := f.exists_lead
  have hletter : ∀ c, f.letter c = true → uni.isWord c = true := fun c hc =>
    hword c (isIdLetter_of_letter hc)
  -- an identifier of the text that has free sides does not begin before
  have hleast : ∀ u' id v', u ++ (f.lead.toList ++ w) ++ v = u' ++ id ++ v' →
      IdAt uni.isWord f.letter f.lead u' id v' → u.length ≤ u'.length := by
    rintro u' id v' heq ⟨⟨w', hne, hw', rfl⟩, hfree, -⟩
    refine h.leftmost u' w' v' heq hne hw' fun c hc => ?_
    rw [Option.mem_def.mp hc, Option.any_some] at hfree
    by_contra hid
    rw [hword c (by simpa using hid)] at hfree
    cases hfree
  rw [returns_iff, search_idOf_iff ⟨c, rest, hlead, hword c hc⟩ hletter]
  constructor
  · rintro ⟨u', v', heq, hat, hfirst⟩
    rcases Nat.lt_or_ge u.length u'.length with hless | hge
    · exact .inr ⟨u', v', hless, heq, hat.free, hfirst⟩
    · have hlength : u.length = u'.length := le_antisymm (hleast u' _ v' heq hat) hge
      rw [List.append_assoc, List.append_assoc u'] at heq
      obtain ⟨rfl, htail⟩ := List.append_inj heq hlength
      obtain rfl := List.append_cancel_left htail
      exact .inl hat.free
  · have hspelled : ∃ w', w' ≠ [] ∧ (∀ c ∈ w', f.letter c = true) ∧
        f.lead.toList ++ w = f.lead.toList ++ w' := ⟨w, h.ne_nil, h.letters, rfl⟩
    rintro (hfree | ⟨u', v', -, heq, hfree, hfirst⟩)
    · exact ⟨u, v, rfl, ⟨hspelled, hfree⟩, hleast⟩
    · exact ⟨u', v', heq, ⟨hspelled, hfree⟩, hfirst⟩

/-! ### An ideograph before an identifier -/

/-- An identifier after one character. -/
theorem placed_after {c : Char} (hc : isIdLetter c = false) (hc' : c ≠ 'w') :
    waitingFor.Placed [c] ['1'] [] where
  ne_nil := List.cons_ne_nil _ _
  letters := List.all_eq_true.mp rfl
  before d hd := by
    obtain rfl := Option.some.inj hd
    exact hc
  after d hd := nomatch hd
  leftmost u' w' v' heq _ _ _ := by
    cases u' with
    | nil =>
      -- the text begins with another character
      have hhead := congrArg List.head? heq
      exact absurd (Option.some.inj hhead) hc'
    | cons d u' => exact Nat.succ_le_succ (Nat.zero_le _)

theorem isWord_of_isIdLetter (c : Char) (h : isIdLetter c = true) :
    Unicode.ascii.isWord c = true := by
  change (c.isAlphanum || c == '_' || isIdeograph c) = true
  rw [isIdLetter] at h
  rw [h]
  rfl

/-- The identifier that follows an ideograph is not found. -/
theorem not_finds : ¬∀ (uni : Unicode), (∀ c, isIdLetter c = true → uni.isWord c = true) →
    ∀ (f : Finder) (u w v : List Char), f.Placed u w v →
      f.Returns uni (String.ofList (u ++ (f.lead.toList ++ w) ++ v))
        (String.ofList (f.lead.toList ++ w)) := by
  intro h
  have hfound := h .ascii isWord_of_isIdLetter .waitingFor ['看'] ['1'] []
    (placed_after (by decide) (by decide))
  have hnone : extractWaitingForId .ascii
      (String.ofList (['看'] ++ ("wf_".toList ++ ['1']) ++ [])) = none := by decide +kernel
  exact absurd (hnone.symm.trans hfound) (by simp)

/-- The identifier that follows a space is found. -/
theorem finds_after_space : waitingFor.Placed [' '] ['1'] [] ∧
    waitingFor.Returns .ascii (String.ofList ([' '] ++ ("wf_".toList ++ ['1']) ++ []))
      (String.ofList ("wf_".toList ++ ['1'])) := by
  have hplaced : waitingFor.Placed [' '] ['1'] [] := placed_after (by decide) (by decide)
  exact ⟨hplaced, (finds_iff isWord_of_isIdLetter .waitingFor hplaced).mpr (.inl ⟨rfl, rfl⟩)⟩

end Finder

end Assistants
