import Mathlib.Data.List.Basic
import Mathlib.Data.List.Induction

/-!
# Joined parts

Parts are joined by a separator that may stand inside a part. A part has no white space at its ends,
and the separator is not white space. The same text is joined from other parts when one part can be
cut at a separator into pieces that go with its neighbours.

## Main definitions

* `StartsFirm`, `EndsFirm`, `IsPart`: no white space at the ends
* `join`: three parts and what follows them
* `Cuts`, `LastCuts`, `RestCuts`: where a part, or what follows, can be cut

## Main results

* `parts_unique`, `exists_parts`: three parts are told apart exactly when none can be cut
* `rest_unique`, `exists_rest`: the same, with a text that follows them
-/

namespace Joined

variable {α : Type} (space : α → Bool) (sep : α)

/-- The first element is no white space. -/
def StartsFirm (l : List α) : Prop := ∀ x ∈ l.head?, space x = false

/-- The last element is no white space. -/
def EndsFirm (l : List α) : Prop := ∀ x ∈ l.getLast?, space x = false

/-- **A part**: not empty, and stripped. -/
structure IsPart (l : List α) : Prop where
  ne : l ≠ []
  starts : StartsFirm space l
  ends : EndsFirm space l

/-- The three parts, joined. -/
def join (t w n : List α) : List α := t ++ sep :: (w ++ sep :: n)

/-- One of three parts **can be cut** at a separator. The outer pieces of the outer parts must not
be empty, nor both pieces of the one in the middle. -/
def Cuts (t w n : List α) : Prop :=
  (∃ a b, t = a ++ sep :: b ∧ a ≠ [] ∧ EndsFirm space a ∧ StartsFirm space b) ∨
    (∃ a b, w = a ++ sep :: b ∧ (a ≠ [] ∨ b ≠ []) ∧ EndsFirm space a ∧ StartsFirm space b) ∨
    ∃ a b, n = a ++ sep :: b ∧ b ≠ [] ∧ EndsFirm space a ∧ StartsFirm space b

/-- The last part can be cut, for its end to go with what follows. -/
def LastCuts (n : List α) : Prop := ∃ a b, n = a ++ sep :: b ∧ a ≠ [] ∧ EndsFirm space a

/-- What follows can be cut, for its start to go with the last part. -/
def RestCuts (x : List α) : Prop :=
  ∃ a b, x = a ++ sep :: b ∧ EndsFirm space a ∧ ∃ c ∈ b, space c = false

variable {space : α → Bool} {sep : α} {a b t w n x t' w' n' x' : List α}

/-! ## The ends of a text -/

theorem startsFirm_nil : StartsFirm space [] := fun _ h => nomatch h

theorem endsFirm_nil : EndsFirm space [] := fun _ h => nomatch h

theorem StartsFirm.of_append (h : StartsFirm space (a ++ b)) : StartsFirm space a := by
  cases a with
  | nil => exact startsFirm_nil
  | cons x a => exact h

theorem StartsFirm.append (h : StartsFirm space a) (hne : a ≠ []) : StartsFirm space (a ++ b) := by
  cases a with
  | nil => exact absurd rfl hne
  | cons x a => exact h

theorem EndsFirm.of_append (h : EndsFirm space (a ++ b)) : EndsFirm space b := by
  cases b using List.reverseRecOn with
  | nil => exact endsFirm_nil
  | append_singleton b x =>
    intro y hy
    rw [List.getLast?_concat] at hy
    exact h y (by rw [← List.append_assoc, List.getLast?_concat]; exact hy)

theorem EndsFirm.append (h : EndsFirm space b) (hne : b ≠ []) : EndsFirm space (a ++ b) := by
  cases b using List.reverseRecOn with
  | nil => exact absurd rfl hne
  | append_singleton b x =>
    intro y hy
    rw [← List.append_assoc, List.getLast?_concat] at hy
    exact h y (by rw [List.getLast?_concat]; exact hy)

section Separator

variable (hsep : space sep = false)

include hsep

theorem startsFirm_sep : StartsFirm space (sep :: b) := by
  intro x hx
  obtain rfl : sep = x := by simpa using hx
  exact hsep

/-- A text that goes on with a separator. -/
theorem startsFirm_join (h : StartsFirm space a) : StartsFirm space (a ++ sep :: b) := by
  cases a with
  | nil => exact startsFirm_sep hsep
  | cons x a => exact h

/-- A text that a separator comes before. -/
theorem endsFirm_join (h : EndsFirm space b) : EndsFirm space (a ++ sep :: b) := by
  cases b using List.reverseRecOn with
  | nil =>
    intro x hx
    rw [List.getLast?_concat] at hx
    obtain rfl : sep = x := by simpa using hx
    exact hsep
  | append_singleton b y =>
    intro x hx
    rw [← List.cons_append, ← List.append_assoc, List.getLast?_concat] at hx
    exact h x (by rw [List.getLast?_concat]; exact hx)

end Separator

theorem EndsFirm.of_join (h : EndsFirm space (a ++ sep :: b)) : EndsFirm space b :=
  EndsFirm.of_append (a := a ++ [sep]) (by simpa using h)

/-- **Two texts that go on with a separator** are the same, or one of them has the separator of the
other inside. -/
theorem cases_of_eq (h : a ++ sep :: x = b ++ sep :: x') :
    a = b ∧ x = x' ∨ (∃ d, a = b ++ sep :: d ∧ x' = d ++ sep :: x) ∨
      ∃ d, b = a ++ sep :: d ∧ x = d ++ sep :: x' := by
  rcases List.append_eq_append_iff.mp h with ⟨d, hb, hx⟩ | ⟨d, ha, hx⟩
  · cases d with
    | nil =>
      obtain ⟨-, rfl⟩ := List.cons.inj hx
      exact .inl ⟨by rw [hb, List.append_nil], rfl⟩
    | cons y d =>
      obtain ⟨rfl, rfl⟩ := List.cons.inj hx
      exact .inr (.inr ⟨d, hb, rfl⟩)
  · cases d with
    | nil =>
      obtain ⟨-, rfl⟩ := List.cons.inj hx
      exact .inl ⟨by rw [ha, List.append_nil], rfl⟩
    | cons y d =>
      obtain ⟨rfl, rfl⟩ := List.cons.inj hx
      exact .inr (.inl ⟨d, ha, rfl⟩)

/-! ## Three parts -/

/-- The first part of another joining is longer. -/
theorem cuts_of_longer {d : List α} (ht' : IsPart space (t ++ sep :: d)) (hw' : IsPart space w')
    (hn' : IsPart space n') (hw : IsPart space w) (hn : IsPart space n)
    (h : w ++ sep :: n = d ++ sep :: (w' ++ sep :: n')) : Cuts space sep t w n := by
  have hd : EndsFirm space d := ht'.ends.of_join
  rcases cases_of_eq h with ⟨rfl, rfl⟩ | ⟨e, rfl, he⟩ | ⟨e, rfl, rfl⟩
  · exact .inr (.inr ⟨w', n', rfl, hn'.ne, hw'.ends, hn'.starts⟩)
  · -- the second part is cut, unless it is a mere separator
    have hstart : StartsFirm space e := by
      have hfirm : StartsFirm space (w' ++ sep :: n') := hw'.starts.append hw'.ne
      rw [he] at hfirm
      exact hfirm.of_append
    by_cases hempty : d ≠ [] ∨ e ≠ []
    · exact .inr (.inl ⟨d, e, rfl, hempty, hd, hstart⟩)
    obtain ⟨rfl, rfl⟩ : d = [] ∧ e = [] := by
      simpa only [not_or, ne_eq, not_not] using hempty
    rcases cases_of_eq (a := w') (b := []) he with ⟨hnil, -⟩ | ⟨f, rfl, rfl⟩ | ⟨f, hnil, -⟩
    · exact absurd hnil hw'.ne
    · exact .inr (.inr ⟨f, n', rfl, hn'.ne, hw'.ends.of_join (a := []), hn'.starts⟩)
    · cases w' <;> cases hnil
  · refine .inr (.inr ⟨e, w' ++ sep :: n', rfl, by simp, hd.of_join, hw'.starts.append hw'.ne⟩)

/-- **Three parts that cannot be cut** are those of any joining of the same text. -/
theorem parts_unique (hcuts : ¬Cuts space sep t w n) (hw : IsPart space w) (hn : IsPart space n)
    (ht' : IsPart space t') (hw' : IsPart space w') (hn' : IsPart space n')
    (h : join sep t w n = join sep t' w' n') : t = t' ∧ w = w' ∧ n = n' := by
  rcases cases_of_eq h with ⟨rfl, hrest⟩ | ⟨d, rfl, hrest⟩ | ⟨d, rfl, hrest⟩
  · rcases cases_of_eq hrest with ⟨rfl, rfl⟩ | ⟨d, rfl, rfl⟩ | ⟨d, rfl, rfl⟩
    · exact ⟨rfl, rfl, rfl⟩
    · exact absurd (.inr (.inl ⟨w', d, rfl, .inl hw'.ne, hw'.ends, hn'.starts.of_append⟩)) hcuts
    · exact absurd (.inr (.inr ⟨d, n', rfl, hn'.ne, hw'.ends.of_join, hn'.starts⟩)) hcuts
  · have hstart : StartsFirm space d := by
      have hfirm : StartsFirm space (w' ++ sep :: n') := hw'.starts.append hw'.ne
      rw [hrest] at hfirm
      exact hfirm.of_append
    exact absurd (.inl ⟨t', d, rfl, ht'.ne, ht'.ends, hstart⟩) hcuts
  · exact absurd (cuts_of_longer ht' hw' hn' hw hn hrest) hcuts

/-- **Parts that can be cut** are joined to the same text as others. -/
theorem exists_parts (hsep : space sep = false) (ht : IsPart space t) (hw : IsPart space w)
    (hn : IsPart space n) (hcuts : Cuts space sep t w n) :
    ∃ t' w' n', IsPart space t' ∧ IsPart space w' ∧ IsPart space n' ∧
      join sep t' w' n' = join sep t w n ∧ ¬(t = t' ∧ w = w' ∧ n = n') := by
  rcases hcuts with ⟨a, b, rfl, ha, hends, hstarts⟩ | ⟨a, b, rfl, hne, hends, hstarts⟩ |
    ⟨a, b, rfl, hb, hends, hstarts⟩
  · refine ⟨a, b ++ sep :: w, n, ⟨ha, ht.starts.of_append, hends⟩,
      ⟨by simp, startsFirm_join hsep hstarts, endsFirm_join hsep hw.ends⟩, hn, ?_, ?_⟩
    · simp [join]
    · rintro ⟨h, -⟩
      simp at h
  · by_cases ha : a = []
    · have hb : b ≠ [] := hne.resolve_left (fun h => h ha)
      subst ha
      refine ⟨t ++ [sep], b, n, ⟨by simp, ht.starts.append ht.ne,
        endsFirm_join hsep endsFirm_nil⟩, ⟨hb, hstarts, hw.ends.of_join⟩, hn, ?_, ?_⟩
      · simp [join]
      · rintro ⟨h, -⟩
        simp at h
    · refine ⟨t, a, b ++ sep :: n, ht, ⟨ha, hw.starts.of_append, hends⟩,
        ⟨by simp, startsFirm_join hsep hstarts, endsFirm_join hsep hn.ends⟩, ?_, ?_⟩
      · simp [join]
      · rintro ⟨-, h, -⟩
        simp at h
  · refine ⟨t, w ++ sep :: a, b, ht, ⟨by simp, hw.starts.append hw.ne, endsFirm_join hsep hends⟩,
      ⟨hb, hstarts, hn.ends.of_join⟩, ?_, ?_⟩
    · simp [join]
    · rintro ⟨-, h, -⟩
      simp at h

/-- **With a text that follows**: the parts and the text are those of any joining. -/
theorem rest_unique (hcuts : ¬Cuts space sep t w n) (hlast : ¬LastCuts space sep n)
    (hrest : ¬RestCuts space sep x) (hw : IsPart space w) (hn : IsPart space n)
    (ht' : IsPart space t') (hw' : IsPart space w') (hn' : IsPart space n')
    (hx' : ∃ c ∈ x', space c = false)
    (h : join sep t w n ++ sep :: x = join sep t' w' n' ++ sep :: x') :
    (t = t' ∧ w = w' ∧ n = n') ∧ x = x' := by
  have hfirm : ∀ {t w n : List α}, IsPart space n → EndsFirm space (join sep t w n) := by
    intro t w n hn
    have happ : join sep t w n = (t ++ sep :: w ++ [sep]) ++ n := by simp [join]
    rw [happ]
    exact hn.ends.append hn.ne
  rcases cases_of_eq h with ⟨hscope, rfl⟩ | ⟨d, hscope, rfl⟩ | ⟨d, hscope, rfl⟩
  · exact ⟨parts_unique hcuts hw hn ht' hw' hn' hscope, rfl⟩
  · -- the last of the other parts goes on to the end of these
    have hscope' : join sep t w n = join sep t' w' (n' ++ sep :: d) := by
      rw [hscope]
      simp [join]
    have hends : EndsFirm space (t' ++ sep :: w' ++ sep :: (n' ++ sep :: d)) := by
      have hthis := hfirm (t := t) (w := w) hn
      rw [hscope'] at hthis
      simpa [join] using hthis
    have hlong : IsPart space (n' ++ sep :: d) :=
      ⟨by simp, hn'.starts.append hn'.ne, hends.of_join⟩
    obtain ⟨-, -, rfl⟩ := parts_unique hcuts hw hn ht' hw' hlong hscope'
    exact absurd ⟨n', d, rfl, hn'.ne, hn'.ends⟩ hlast
  · have hends : EndsFirm space d := by
      have hthis := hfirm (t := t') (w := w') hn'
      rw [hscope] at hthis
      exact hthis.of_join
    exact absurd ⟨d, x', rfl, hends, hx'⟩ hrest

/-- **Parts that can be cut**, or what follows them, are joined to the same text as others. -/
theorem exists_rest (hsep : space sep = false) (ht : IsPart space t) (hw : IsPart space w)
    (hn : IsPart space n) (hx : ∃ c ∈ x, space c = false)
    (hcuts : Cuts space sep t w n ∨ LastCuts space sep n ∨ RestCuts space sep x) :
    ∃ t' w' n' x', IsPart space t' ∧ IsPart space w' ∧ IsPart space n' ∧
      (∃ c ∈ x', space c = false) ∧
      join sep t' w' n' ++ sep :: x' = join sep t w n ++ sep :: x ∧
      ¬((t = t' ∧ w = w' ∧ n = n') ∧ x = x') := by
  rcases hcuts with hcuts | ⟨a, b, rfl, ha, hends⟩ | ⟨a, b, rfl, hends, hb⟩
  · obtain ⟨t', w', n', ht', hw', hn', hjoin, hne⟩ := exists_parts hsep ht hw hn hcuts
    exact ⟨t', w', n', x, ht', hw', hn', hx, by rw [hjoin], fun h => hne h.1⟩
  · refine ⟨t, w, a, b ++ sep :: x, ht, hw, ⟨ha, hn.starts.of_append, hends⟩,
      ⟨sep, by simp, hsep⟩, ?_, ?_⟩
    · simp [join]
    · rintro ⟨⟨-, -, h⟩, -⟩
      simp at h
  · refine ⟨t, w, n ++ sep :: a, b, ht, hw, ⟨by simp, hn.starts.append hn.ne,
      endsFirm_join hsep hends⟩, hb, ?_, ?_⟩
    · simp [join]
    · rintro ⟨⟨-, -, h⟩, -⟩
      simp at h

end Joined
