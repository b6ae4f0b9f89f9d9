import AiLabOs.Base.Matching

/-!
# Replacing the matches of a regular expression

The matches of an expression, which matches no empty text, are replaced from left to right. The
parts between them are kept.

## Main definitions

* `Regex.sub`: `re.sub`
* `Regex.parts`: `re.split`, the parts that are kept
* `Regex.Scanned`: the parts and the matches of a text
* `Regex.Occurs`: the expression has a match in a text
* `Regex.room`: how much room parts take with a replacement after each
* `Regex.Plain`: an expression that does not look around

## Main results

* `Regex.sub_eq_intercalate`: the parts with the replacement between them
* `Regex.scanned_parts`: what the parts are
* `Regex.Scanned.context_at`: what stands around a part
* `Regex.Scanned.exists_part`: what no match touches is in a part
* `Regex.length_sub_le`: replacements that are shorter than the matches
* `Regex.Plain.sub_append_cons`: a character that no match has
-/

namespace Regex

/-- The expression matches no empty text. -/
def Advances (r : Regex) : Prop := ∀ c, ∀ d ∈ r.ends c, d.after.length < c.after.length

section Substitution

variable (r : Regex) (new : List Char)

/-- `re.sub`, from a place on. Of a match, so many characters are still to come. -/
def subFrom : ℕ → List Char → List Char → List Char
  | _, _, [] => []
  | skip + 1, before, c :: after => subFrom skip (c :: before) after
  | 0, before, c :: after =>
    match r.first ⟨before, c :: after⟩ with
    | some d => new ++ subFrom (after.length - d.after.length) (c :: before) after
    | none => c :: subFrom 0 (c :: before) after

/-- `re.sub(r, new, s)`. -/
def sub (s : List Char) : List Char := subFrom r new 0 [] s

/-- `re.split`, from a place on, with the part so far. -/
def partsFrom : ℕ → List Char → List Char → List Char → List (List Char)
  | _, _, part, [] => [part]
  | skip + 1, before, part, c :: after => partsFrom skip (c :: before) part after
  | 0, before, part, c :: after =>
    match r.first ⟨before, c :: after⟩ with
    | some d => part :: partsFrom (after.length - d.after.length) (c :: before) [] after
    | none => partsFrom 0 (c :: before) (part ++ [c]) after

/-- `re.split(r, s)`. -/
def parts (s : List Char) : List (List Char) := partsFrom r 0 [] [] s

end Substitution

/-- **The parts of a text**: no match begins in a part, and between two parts stands the preferred
match. -/
inductive Scanned (r : Regex) : List Char → List Char → List (List Char) → Prop
  | last {before after : List Char}
      (hnone : ∀ u v, after = u ++ v → v ≠ [] → r.first ⟨u.reverse ++ before, v⟩ = none) :
      Scanned r before after [after]
  | step {before p m rest : List Char} {parts : List (List Char)}
      (hnone : ∀ u v, p = u ++ v → v ≠ [] →
        r.first ⟨u.reverse ++ before, v ++ (m ++ rest)⟩ = none)
      (hmatch : r.first ⟨p.reverse ++ before, m ++ rest⟩ =
        some ⟨m.reverse ++ (p.reverse ++ before), rest⟩)
      (hrest : Scanned r (m.reverse ++ (p.reverse ++ before)) rest parts) :
      Scanned r before (p ++ (m ++ rest)) (p :: parts)

section Parts

variable {r : Regex} {new : List Char}

attribute [local simp] subFrom partsFrom

theorem partsFrom_ne_nil (skip : ℕ) (before part after : List Char) :
    partsFrom r skip before part after ≠ [] := by
  induction after generalizing skip before part with
  | nil => cases skip <;> exact List.cons_ne_nil _ _
  | cons c after ih =>
    cases skip with
    | succ skip => exact ih skip (c :: before) part
    | zero =>
      rw [partsFrom]
      split
      · exact List.cons_ne_nil _ _
      · exact ih 0 (c :: before) (part ++ [c])

theorem intercalate_cons_of_ne_nil (part : List Char) {parts : List (List Char)}
    (h : parts ≠ []) : new.intercalate (part :: parts) = part ++ new ++ new.intercalate parts := by
  cases parts with
  | nil => exact absurd rfl h
  | cons next parts => simp [List.intercalate]

/-- The room that parts take, each with `k` characters after it. -/
def room (k : ℕ) : List (List Char) → ℕ
  | [] => 0
  | part :: parts => part.length + k + room k parts

theorem room_append (k : ℕ) (ps qs : List (List Char)) :
    room k (ps ++ qs) = room k ps + room k qs := by
  induction ps with
  | nil => rw [List.nil_append, room, Nat.zero_add]
  | cons p ps ih =>
    rw [List.cons_append, room, room, ih]
    omega

theorem length_intercalate (new : List Char) {parts : List (List Char)} (h : parts ≠ []) :
    (new.intercalate parts).length + new.length = room new.length parts := by
  induction parts with
  | nil => exact absurd rfl h
  | cons part parts ih =>
    rw [room]
    by_cases hparts : parts = []
    · rw [hparts]
      simp [List.intercalate, room]
    · rw [intercalate_cons_of_ne_nil part hparts, ← ih hparts]
      simp only [List.length_append]
      omega

/-- **Where a part stands** after the replacement: behind the room of those before it. -/
theorem exists_intercalate (new : List Char) (ps : List (List Char)) (p : List Char)
    (qs : List (List Char)) :
    ∃ x rest, new.intercalate (ps ++ p :: qs) = x ++ (p ++ rest) ∧
      x.length = room new.length ps := by
  induction ps with
  | nil =>
    by_cases hqs : qs = []
    · exact ⟨[], [], by simp [hqs, List.intercalate], rfl⟩
    · exact ⟨[], new ++ new.intercalate qs, by
        rw [List.nil_append, intercalate_cons_of_ne_nil p hqs, List.append_assoc, List.nil_append],
        rfl⟩
  | cons q ps ih =>
    obtain ⟨x, rest, heq, hlength⟩ := ih
    refine ⟨q ++ (new ++ x), rest, ?_, ?_⟩
    · rw [List.cons_append, intercalate_cons_of_ne_nil q (by simp), heq]
      simp
    · rw [room, List.length_append, List.length_append, hlength, Nat.add_assoc]

theorem intercalate_partsFrom (skip : ℕ) (before part after : List Char) :
    new.intercalate (partsFrom r skip before part after) =
      part ++ subFrom r new skip before after := by
  induction after generalizing skip before part with
  | nil => cases skip <;> simp [partsFrom, subFrom, List.intercalate]
  | cons c after ih =>
    cases skip with
    | succ skip => exact ih skip (c :: before) part
    | zero =>
      rw [partsFrom, subFrom]
      cases r.first ⟨before, c :: after⟩ with
      | some d =>
        dsimp only
        rw [intercalate_cons_of_ne_nil part (partsFrom_ne_nil _ _ _ _), ih, List.nil_append,
          List.append_assoc]
      | none =>
        dsimp only
        rw [ih, List.append_assoc]
        rfl

/-- **A substitution** keeps the parts, with the replacement between them. -/
theorem sub_eq_intercalate (r : Regex) (new s : List Char) :
    r.sub new s = new.intercalate (r.parts s) := by
  rw [sub, parts, intercalate_partsFrom, List.nil_append]

/-- The rest of a match is dropped. -/
theorem partsFrom_skip {before part m after : List Char} :
    partsFrom r m.length before part (m ++ after) =
      partsFrom r 0 (m.reverse ++ before) part after := by
  induction m generalizing before with
  | nil => rfl
  | cons c m ih =>
    rw [List.length_cons, List.cons_append, partsFrom, ih, List.reverse_cons, List.append_assoc]
    rfl

theorem subFrom_skip {before m after : List Char} :
    subFrom r new m.length before (m ++ after) = subFrom r new 0 (m.reverse ++ before) after := by
  induction m generalizing before with
  | nil => rfl
  | cons c m ih =>
    rw [List.length_cons, List.cons_append, subFrom, ih, List.reverse_cons, List.append_assoc]
    rfl

theorem subFrom_none {before after : List Char} {c : Char}
    (h : r.first ⟨before, c :: after⟩ = none) :
    subFrom r new 0 before (c :: after) = c :: subFrom r new 0 (c :: before) after := by
  rw [subFrom, h]

/-- A match is replaced. -/
theorem subFrom_match {before m after : List Char} (hm : m ≠ [])
    (h : r.first ⟨before, m ++ after⟩ = some ⟨m.reverse ++ before, after⟩) :
    subFrom r new 0 before (m ++ after) = new ++ subFrom r new 0 (m.reverse ++ before) after := by
  cases m with
  | nil => exact absurd rfl hm
  | cons c m =>
    rw [List.cons_append] at h ⊢
    rw [subFrom, h]
    dsimp only
    rw [List.length_append, Nat.add_sub_cancel, subFrom_skip, List.reverse_cons, List.append_assoc]
    rfl

/-- **What the parts are**. -/
theorem scanned_parts (hr : r.Advances) (s : List Char) : Scanned r [] s (r.parts s) := by
  have hfrom : ∀ (n : ℕ) (before part after : List Char), after.length ≤ n →
      (∀ u v, part = u ++ v → v ≠ [] → r.first ⟨u.reverse ++ before, v ++ after⟩ = none) →
      Scanned r before (part ++ after) (partsFrom r 0 (part.reverse ++ before) part after) := by
    intro n
    induction n with
    | zero =>
      intro before part after hlength hpart
      obtain rfl := List.length_eq_zero_iff.mp (Nat.le_zero.mp hlength)
      rw [List.append_nil]
      refine .last fun u v heq hv => ?_
      have hnone := hpart u v heq hv
      rwa [List.append_nil] at hnone
    | succ n ih =>
      intro before part after hlength hpart
      cases after with
      | nil =>
        rw [List.append_nil]
        refine .last fun u v heq hv => ?_
        have hnone := hpart u v heq hv
        rwa [List.append_nil] at hnone
      | cons c after =>
        rw [List.length_cons] at hlength
        rw [partsFrom]
        cases hfirst : r.first ⟨part.reverse ++ before, c :: after⟩ with
        | some d =>
          obtain ⟨m, hspans⟩ := spans_of_mem_ends (mem_of_first hfirst)
          have hless := hr _ d (mem_of_first hfirst)
          obtain ⟨before', rest⟩ := d
          obtain ⟨hafter, hbefore⟩ := hspans
          dsimp only at hafter hbefore hless ⊢
          cases m with
          | nil =>
            rw [hafter, List.nil_append] at hless
            exact absurd hless (lt_irrefl _)
          | cons x m =>
            rw [List.cons_append] at hafter
            obtain ⟨rfl, rfl⟩ := List.cons.inj hafter
            obtain rfl := hbefore
            rw [List.length_append, Nat.add_sub_cancel, partsFrom_skip]
            have hbefore : m.reverse ++ c :: (part.reverse ++ before) =
                (c :: m).reverse ++ (part.reverse ++ before) := by simp
            have hnext := ih ((c :: m).reverse ++ (part.reverse ++ before)) [] rest
              (by rw [List.length_append] at hlength; omega)
              (fun u v heq hv => absurd (List.append_eq_nil_iff.mp heq.symm).2 hv)
            rw [hbefore]
            exact Scanned.step hpart hfirst hnext
        | none =>
          dsimp only
          have hnext := ih before (part ++ [c]) after (by omega) (by
            intro u v heq hv
            obtain ⟨v, x, rfl⟩ := List.eq_nil_or_concat' v |>.resolve_left hv
            rw [← List.append_assoc] at heq
            obtain ⟨rfl, hx⟩ := List.append_inj' heq rfl
            obtain rfl := (List.cons.inj hx).1
            by_cases hv : v = []
            · rw [hv, List.append_nil] at hfirst
              rw [hv]
              exact hfirst
            · have hnone := hpart u v rfl hv
              rw [List.append_assoc]
              exact hnone)
          rw [List.append_assoc, List.reverse_append] at hnext
          exact hnext
  have hstart := hfrom s.length [] [] s le_rfl
    (fun u v heq hv => absurd (List.append_eq_nil_iff.mp heq.symm).2 hv)
  exact hstart

/-- **What stands around a part**: the text begins or a match ends before it, and the text ends or a
match begins after it. Where no match is shorter than `k` characters, the parts before it, with as
many after each, take no more room than the text before it. -/
theorem Scanned.context_at {before after : List Char} {parts ps qs : List (List Char)}
    {f : List Char} (h : Scanned r before after parts) (hparts : parts = ps ++ f :: qs) :
    ∃ x y, after = x ++ (f ++ y) ∧
      (∀ u v, f = u ++ v → v ≠ [] → r.first ⟨u.reverse ++ (x.reverse ++ before), v ++ y⟩ = none) ∧
      (x = [] ∨ ∃ x' m, x = x' ++ m ∧ r.first ⟨x'.reverse ++ before, m ++ (f ++ y)⟩ =
        some ⟨x.reverse ++ before, f ++ y⟩) ∧
      (y = [] ∨ ∃ m y', y = m ++ y' ∧ r.first ⟨f.reverse ++ (x.reverse ++ before), y⟩ =
        some ⟨m.reverse ++ (f.reverse ++ (x.reverse ++ before)), y'⟩) ∧
      ∀ k, (∀ c, ∀ d ∈ r.ends c, k + d.after.length ≤ c.after.length) →
        room k ps ≤ x.length := by
  induction h generalizing ps with
  | last hnone =>
    cases ps with
    | cons q ps => cases ps <;> cases hparts
    | nil =>
      obtain ⟨rfl, -⟩ := List.cons.inj hparts
      refine ⟨[], [], (List.append_nil _).symm, fun u v heq hv => ?_, .inl rfl, .inl rfl,
        fun _ _ => Nat.zero_le _⟩
      rw [List.append_nil]
      exact hnone u v heq hv
  | @step before p m rest parts hnone hmatch hrest ih =>
    cases ps with
    | nil =>
      obtain ⟨rfl, -⟩ := List.cons.inj hparts
      exact ⟨[], m ++ rest, rfl, hnone, .inl rfl, .inr ⟨m, rest, rfl, hmatch⟩,
        fun _ _ => Nat.zero_le _⟩
    | cons q ps =>
      obtain ⟨rfl, hlater⟩ := List.cons.inj hparts
      obtain ⟨x, y, rfl, hfirst, hx, hy, hroom⟩ := ih hlater
      have hbefore : ∀ x : List Char, x.reverse ++ (m.reverse ++ (p.reverse ++ before)) =
          (p ++ (m ++ x)).reverse ++ before := by simp
      refine ⟨p ++ (m ++ x), y, by simp, ?_, .inr ?_, ?_, fun k hk => ?_⟩
      · rw [hbefore] at hfirst
        exact hfirst
      · rcases hx with rfl | ⟨x', m', rfl, hm'⟩
        · refine ⟨p, m, by simp, ?_⟩
          rw [List.append_nil, List.reverse_append, List.append_assoc]
          exact hmatch
        · refine ⟨p ++ (m ++ x'), m', by simp, ?_⟩
          rw [hbefore, hbefore] at hm'
          exact hm'
      · rw [hbefore] at hy
        exact hy
      · have hm := hk _ _ (mem_of_first hmatch)
        have hle := hroom k hk
        simp only [List.length_append] at hm
        rw [room, List.length_append, List.length_append]
        omega

theorem Scanned.context {before after : List Char} {parts : List (List Char)}
    (h : Scanned r before after parts) {f : List Char} (hf : f ∈ parts) :
    ∃ x y, after = x ++ (f ++ y) ∧
      (∀ u v, f = u ++ v → v ≠ [] → r.first ⟨u.reverse ++ (x.reverse ++ before), v ++ y⟩ = none) ∧
      (x = [] ∨ ∃ x' m, x = x' ++ m ∧ r.first ⟨x'.reverse ++ before, m ++ (f ++ y)⟩ =
        some ⟨x.reverse ++ before, f ++ y⟩) ∧
      (y = [] ∨ ∃ m y', y = m ++ y' ∧ r.first ⟨f.reverse ++ (x.reverse ++ before), y⟩ =
        some ⟨m.reverse ++ (f.reverse ++ (x.reverse ++ before)), y'⟩) := by
  obtain ⟨ps, qs, hparts⟩ := List.append_of_mem hf
  obtain ⟨x, y, hafter, hnone, hx, hy, -⟩ := h.context_at hparts
  exact ⟨x, y, hafter, hnone, hx, hy⟩

/-- **What no match touches** is in a part, and where no match is shorter than `k` characters, the
parts before it, with as many after each, take no more room than the text before it. -/
theorem Scanned.exists_part {before after : List Char} {parts : List (List Char)}
    (h : Scanned r before after parts) {k : ℕ}
    (hk : ∀ c, ∀ d ∈ r.ends c, k + d.after.length ≤ c.after.length) {u t v : List Char}
    (ht : after = u ++ (t ++ v))
    (hfree : ∀ u₁ m v₁, after = u₁ ++ (m ++ v₁) →
      r.first ⟨u₁.reverse ++ before, m ++ v₁⟩ = some ⟨m.reverse ++ (u₁.reverse ++ before), v₁⟩ →
      (u₁ ++ m) <+: u ∨ (u ++ t) <+: u₁) :
    ∃ ps p qs x y a b, parts = ps ++ p :: qs ∧ after = x ++ (p ++ y) ∧ u = x ++ a ∧
      p = a ++ (t ++ b) ∧ room k ps ≤ x.length := by
  induction h generalizing u with
  | @last before after hnone =>
    exact ⟨[], after, [], [], [], u, v, rfl, (List.append_nil after).symm, rfl, ht, Nat.zero_le _⟩
  | @step before p m rest parts hnone hmatch hrest ih =>
    rcases hfree p m rest rfl hmatch with ⟨u', rfl⟩ | ⟨v', rfl⟩
    · rw [List.append_assoc, List.append_assoc] at ht
      have hrest' := List.append_cancel_left (List.append_cancel_left ht)
      obtain ⟨ps, q, qs, x, y, a, b, rfl, rfl, rfl, rfl, hroom⟩ := ih hrest'
        fun u₁ m₁ v₁ heq hfirst => by
          have hbefore : u₁.reverse ++ (m.reverse ++ (p.reverse ++ before)) =
              (p ++ m ++ u₁).reverse ++ before := by simp
          rw [hbefore] at hfirst
          have hwhere := hfree (p ++ m ++ u₁) m₁ v₁ (by rw [heq]; simp) hfirst
          rw [List.append_assoc (p ++ m), List.append_assoc (p ++ m)] at hwhere
          exact hwhere.imp (List.prefix_append_right_inj _).mp (List.prefix_append_right_inj _).mp
      refine ⟨p :: ps, a ++ (t ++ b), qs, p ++ (m ++ x), y, a, b, rfl, by simp, by simp, rfl, ?_⟩
      have hm := hk _ _ (mem_of_first hmatch)
      simp only [List.length_append] at hm
      rw [room, List.length_append, List.length_append]
      omega
    · exact ⟨[], _, parts, [], m ++ rest, u, v', rfl, rfl, rfl, List.append_assoc ..,
        Nat.zero_le _⟩

/-! ## Texts with a match -/

/-- The expression has a match in the text. -/
def Occurs (r : Regex) (s : List Char) : Prop :=
  ∃ u rest d, s = u ++ rest ∧ d ∈ r.ends ⟨u.reverse, rest⟩

theorem sub_of_not_occurs {s : List Char} (h : ¬r.Occurs s) : r.sub new s = s := by
  have hfrom : ∀ u rest, s = u ++ rest → subFrom r new 0 u.reverse rest = rest := by
    intro u rest
    induction rest generalizing u with
    | nil => exact fun _ => rfl
    | cons c rest ih =>
      intro hs
      have hnone : r.first ⟨u.reverse, c :: rest⟩ = none := by
        rw [first_eq_none_iff]
        exact fun d hd => h ⟨u, c :: rest, d, hs, hd⟩
      have hnext := ih (u ++ [c]) (by rw [hs, List.append_assoc]; rfl)
      rw [List.reverse_append] at hnext
      rw [subFrom_none hnone]
      exact congrArg (c :: ·) hnext
  exact hfrom [] s rfl

/-- **A replacement that is shorter than the matches** makes the text shorter, if there is a
match. -/
theorem length_sub_le (hr : r.Advances) (new : List Char)
    (hnew : ∀ c, ∀ d ∈ r.ends c, new.length < c.after.length - d.after.length) (s : List Char) :
    (r.sub new s).length ≤ s.length ∧ (r.Occurs s → (r.sub new s).length < s.length) := by
  have hscanned := scanned_parts hr s
  rw [sub_eq_intercalate]
  have hlength : ∀ {before after : List Char} {parts : List (List Char)},
      Scanned r before after parts → (new.intercalate parts).length ≤ after.length ∧
        (parts ≠ [after] → (new.intercalate parts).length < after.length) := by
    intro before after parts h
    induction h with
    | last _ => exact ⟨by simp [List.intercalate], fun hne => absurd rfl hne⟩
    | @step before p m rest parts hnone hmatch hrest ih =>
      have hparts : parts ≠ [] := by
        rintro rfl
        cases hrest
      have hm := hnew _ _ (mem_of_first hmatch)
      dsimp only at hm
      rw [List.length_append, Nat.add_sub_cancel] at hm
      have hle := ih.1
      rw [intercalate_cons_of_ne_nil p hparts, List.length_append, List.length_append,
        List.length_append, List.length_append]
      exact ⟨by omega, fun _ => by omega⟩
  refine ⟨(hlength hscanned).1, fun hoccurs => (hlength hscanned).2 fun hone => ?_⟩
  obtain ⟨u, rest, d, rfl, hd⟩ := hoccurs
  -- no match begins in the only part
  rw [hone] at hscanned
  have hrest : rest ≠ [] := by
    rintro rfl
    exact absurd (hr _ d hd) (Nat.not_lt_zero _)
  obtain ⟨x, y, heq, hfirst, -, -⟩ := hscanned.context List.mem_cons_self
  have hxy := congrArg List.length heq
  simp only [List.length_append] at hxy
  have hx : x = [] := List.length_eq_zero_iff.mp (by omega)
  have hy : y = [] := List.length_eq_zero_iff.mp (by omega)
  have hnone := hfirst u rest rfl hrest
  rw [hx, hy, List.reverse_nil, List.append_nil, List.append_nil, List.append_nil] at hnone
  exact first_eq_none_iff.mp hnone d hd

end Parts

/-! ## Expressions that do not look around -/

/-- An expression that prefers the longest match, whatever stands before and after it. -/
structure Plain (r : Regex) (p : List Char → Prop) : Prop where
  mem_ends : ∀ {c d : Place}, d ∈ r.ends c ↔ ∃ m, p m ∧ Spans c d m
  greedy : r.Greedy
  not_nil : ¬p []

namespace Plain

variable {r : Regex} {p : List Char → Prop} (hr : r.Plain p) {new : List Char}

include hr

theorem advances : r.Advances := by
  intro c d hd
  obtain ⟨m, hm, hspans⟩ := hr.mem_ends.mp hd
  have hne : m ≠ [] := fun hnil => hr.not_nil (hnil ▸ hm)
  have hpos := List.length_pos_iff.mpr hne
  rw [hspans.length]
  omega

theorem first_eq_none_iff {before after : List Char} :
    r.first ⟨before, after⟩ = none ↔ ∀ m rest, after = m ++ rest → ¬p m := by
  rw [Regex.first_eq_none_iff]
  constructor
  · rintro h m rest rfl hm
    exact h ⟨m.reverse ++ before, rest⟩ (hr.mem_ends.mpr ⟨m, hm, rfl, rfl⟩)
  · intro h d hd
    obtain ⟨m, hm, hspans⟩ := hr.mem_ends.mp hd
    exact h m d.after hspans.after hm

theorem first_eq_some_iff {before m rest : List Char} :
    r.first ⟨before, m ++ rest⟩ = some ⟨m.reverse ++ before, rest⟩ ↔
      p m ∧ ∀ m' rest', m ++ rest = m' ++ rest' → p m' → m'.length ≤ m.length := by
  constructor
  · intro h
    obtain ⟨m', hm', hspans⟩ := hr.mem_ends.mp (mem_of_first h)
    obtain rfl : m = m' := List.append_cancel_right hspans.after
    refine ⟨hm', fun m' rest' heq hm' => ?_⟩
    have hle := hr.greedy.first_le h
      (hr.mem_ends.mpr ⟨m', hm', (⟨heq, rfl⟩ : Spans _ ⟨m'.reverse ++ before, rest'⟩ m')⟩)
    have hlength := congrArg List.length heq
    simp only [List.length_append] at hlength
    dsimp only at hle
    omega
  · rintro ⟨hm, hlongest⟩
    cases hfirst : r.first ⟨before, m ++ rest⟩ with
    | none => exact absurd hm ((hr.first_eq_none_iff).mp hfirst m rest rfl)
    | some d =>
      obtain ⟨m', hm', hspans⟩ := hr.mem_ends.mp (mem_of_first hfirst)
      have hle := hr.greedy.first_le hfirst
        (hr.mem_ends.mpr ⟨m, hm, (⟨rfl, rfl⟩ : Spans _ ⟨m.reverse ++ before, rest⟩ m)⟩)
      have hge := hlongest m' d.after hspans.after hm'
      have hlength := hspans.length
      rw [List.length_append] at hlength
      dsimp only at hle
      obtain ⟨rfl, rfl⟩ := List.append_inj hspans.after (by omega)
      have hend : Spans ⟨before, m ++ d.after⟩ ⟨m.reverse ++ before, d.after⟩ m := ⟨rfl, rfl⟩
      rw [hspans.eq hend]

/-- From a place there is a match, the longest one, or there is none. -/
theorem first_cases (before after : List Char) : r.first ⟨before, after⟩ = none ∨
    ∃ m rest, after = m ++ rest ∧ m ≠ [] ∧
      r.first ⟨before, m ++ rest⟩ = some ⟨m.reverse ++ before, rest⟩ := by
  cases hfirst : r.first ⟨before, after⟩ with
  | none => exact .inl rfl
  | some d =>
    obtain ⟨m, hm, hspans⟩ := hr.mem_ends.mp (mem_of_first hfirst)
    obtain ⟨before', rest⟩ := d
    obtain ⟨hafter, hbefore⟩ := hspans
    dsimp only at hafter hbefore
    subst hafter hbefore
    exact .inr ⟨m, rest, rfl, fun hnil => hr.not_nil (hnil ▸ hm), hfirst⟩

/-- **A character that no match has** separates what is replaced before it and after it. -/
theorem subFrom_append_cons {stop : Char} (hstop : ∀ m, p m → stop ∉ m)
    (x y before before' before'' : List Char) :
    subFrom r new 0 before (x ++ stop :: y) =
      subFrom r new 0 before' x ++ stop :: subFrom r new 0 before'' y := by
  -- a match, from a place before the character
  have hlocal : ∀ {x y m rest : List Char}, x ++ stop :: y = m ++ rest → p m →
      ∃ rest', x = m ++ rest' ∧ rest = rest' ++ stop :: y := by
    intro x y m rest heq hm
    rcases List.append_eq_append_iff.mp heq with ⟨k, rfl, hk⟩ | ⟨k, rfl, hk⟩
    · cases k with
      | nil => exact ⟨[], by simp, by simpa using hk.symm⟩
      | cons z k =>
        rw [List.cons_append] at hk
        refine absurd ?_ (hstop _ hm)
        rw [(List.cons.inj hk).1]
        simp
    · exact ⟨k, rfl, hk⟩
  have hsame : ∀ (n : ℕ) (z before before' : List Char), z.length ≤ n →
      subFrom r new 0 before z = subFrom r new 0 before' z := by
    intro n
    induction n with
    | zero =>
      intro z before before' hlength
      obtain rfl := List.length_eq_zero_iff.mp (Nat.le_zero.mp hlength)
      rfl
    | succ n ih =>
      intro z before before' hlength
      rcases hr.first_cases before z with hnone | ⟨m, rest, rfl, hne, hfirst⟩
      · cases z with
        | nil => rfl
        | cons c z =>
          have hnone' : r.first ⟨before', c :: z⟩ = none :=
            hr.first_eq_none_iff.mpr (hr.first_eq_none_iff.mp hnone)
          rw [subFrom_none hnone, subFrom_none hnone',
            ih z (c :: before) (c :: before') (Nat.le_of_succ_le_succ hlength)]
      · have hfirst' : r.first ⟨before', m ++ rest⟩ = some ⟨m.reverse ++ before', rest⟩ :=
          hr.first_eq_some_iff.mpr (hr.first_eq_some_iff.mp hfirst)
        have hpos := List.length_pos_iff.mpr hne
        rw [List.length_append] at hlength
        rw [subFrom_match hne hfirst, subFrom_match hne hfirst',
          ih rest (m.reverse ++ before) (m.reverse ++ before') (by omega)]
  have hfrom : ∀ (n : ℕ) (x before before' : List Char), x.length ≤ n →
      subFrom r new 0 before (x ++ stop :: y) =
        subFrom r new 0 before' x ++ stop :: subFrom r new 0 before'' y := by
    intro n
    have hnil : ∀ before before' : List Char, subFrom r new 0 before ([] ++ stop :: y) =
        subFrom r new 0 before' [] ++ stop :: subFrom r new 0 before'' y := by
      intro before before'
      have hnone : r.first ⟨before, stop :: y⟩ = none := by
        rw [hr.first_eq_none_iff]
        intro m rest heq hm
        obtain ⟨rest', hnil, -⟩ := hlocal (x := []) heq hm
        exact hr.not_nil ((List.append_eq_nil_iff.mp hnil.symm).1 ▸ hm)
      rw [List.nil_append, subFrom_none hnone, hsame _ y (stop :: before) before'' le_rfl]
      rfl
    induction n with
    | zero =>
      intro x before before' hlength
      obtain rfl := List.length_eq_zero_iff.mp (Nat.le_zero.mp hlength)
      exact hnil before before'
    | succ n ih =>
      intro x before before' hlength
      rcases hr.first_cases before (x ++ stop :: y) with hnone | ⟨m, rest, heq, hne, hfirst⟩
      · cases x with
        | nil => exact hnil before before'
        | cons c x =>
          have hnone' : r.first ⟨before', c :: x⟩ = none := by
            rw [hr.first_eq_none_iff] at hnone ⊢
            intro m rest heq
            exact hnone m (rest ++ stop :: y) (by rw [heq, List.append_assoc])
          rw [List.cons_append] at hnone ⊢
          rw [subFrom_none hnone, subFrom_none hnone',
            ih x (c :: before) (c :: before') (Nat.le_of_succ_le_succ hlength)]
          rfl
      · obtain ⟨hm, hlongest⟩ := hr.first_eq_some_iff.mp hfirst
        obtain ⟨rest', rfl, rfl⟩ := hlocal heq hm
        have hfirst' : r.first ⟨before', m ++ rest'⟩ = some ⟨m.reverse ++ before', rest'⟩ := by
          refine hr.first_eq_some_iff.mpr ⟨hm, fun m' rest'' heq' hm' => ?_⟩
          exact hlongest m' (rest'' ++ stop :: y) (by
            rw [← List.append_assoc, heq', List.append_assoc]) hm'
        have hpos := List.length_pos_iff.mpr hne
        rw [List.length_append] at hlength
        rw [List.append_assoc, subFrom_match hne hfirst, subFrom_match hne hfirst',
          ih rest' (m.reverse ++ before) (m.reverse ++ before') (by omega), List.append_assoc]
  exact hfrom x.length x before before' le_rfl

theorem sub_append_cons {stop : Char} (hstop : ∀ m, p m → stop ∉ m) (x y : List Char) :
    r.sub new (x ++ stop :: y) = r.sub new x ++ stop :: r.sub new y :=
  hr.subFrom_append_cons hstop x y [] [] []

end Plain

end Regex
