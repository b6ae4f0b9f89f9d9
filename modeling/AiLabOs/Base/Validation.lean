import AiLabOs.Base.DateTime
import AiLabOs.Base.Text
import Mathlib.Data.List.DropRight

/-!
# Field validation

What the validators of the models share. A validator returns the value it accepts, which may be a
normalised one.

## Main definitions

* `DateTimeArg`: a `datetime` as a caller passes it
* `Invalid`: why a model rejects its values
* `requiredText`, `optionalText`, `shortText`, `normalizeDatetime`: the checks of single fields

## Main results

* `Text.strip_strip`: stripping once more changes nothing
-/

/-- A `datetime` argument: without a time zone, or with one. The latter is the UTC instant it
names, if that falls in the years 1 to 9999. -/
inductive DateTimeArg where
  | naive
  | aware (utc : Option DateTime)
deriving DecidableEq

/-- An instant read back from a model. -/
abbrev DateTimeArg.utc (d : DateTime) : DateTimeArg := .aware (some d)

/-- The instant an argument denotes. -/
def DateTimeArg.denotes : DateTimeArg → Option DateTime
  | .naive => none
  | .aware d => d

/-- Why values are rejected: a field fails its check (`ValidationError`), or an instant cannot be
expressed in UTC (`OverflowError`). -/
inductive Invalid where
  | field (name reason : String)
  | overflow
deriving DecidableEq, Repr

/-- Peels one check off a validation that passed. -/
theorem Except.of_bind_ok {ε α β : Type} {x : Except ε α} {f : α → Except ε β} {b : β}
    (h : x >>= f = .ok b) : ∃ a, x = .ok a ∧ f a = .ok b := by
  cases x with
  | error e => simp [bind, Except.bind] at h
  | ok a => exact ⟨a, rfl, h⟩

/-- A check that does not change its value. -/
def check (p : Prop) [Decidable p] (name reason : String) : Except Invalid Unit :=
  if p then .ok () else .error (.field name reason)

theorem check_ok {p : Prop} [Decidable p] {name reason : String}
    (h : check p name reason = .ok ()) : p := by
  unfold check at h
  split at h
  · assumption
  · cases h

theorem check_eq_ok {p : Prop} [Decidable p] {name reason : String} (h : p) :
    check p name reason = .ok () :=
  if_pos h

theorem check_iff {p : Prop} [Decidable p] {name reason : String} :
    check p name reason = .ok () ↔ p :=
  ⟨check_ok, check_eq_ok⟩

/-- A validation passes when its first check passes and the rest does. -/
theorem Except.bind_ok_iff {ε α β : Type} {x : Except ε α} {f : α → Except ε β} {b : β} :
    x >>= f = .ok b ↔ ∃ a, x = .ok a ∧ f a = .ok b := by
  refine ⟨Except.of_bind_ok, ?_⟩
  rintro ⟨a, rfl, h⟩
  exact h

/-- The same of a check that only passes or fails. -/
theorem Except.unit_bind_ok_iff {ε β : Type} {x : Except ε Unit} {f : Unit → Except ε β} {b : β} :
    x >>= f = .ok b ↔ x = .ok () ∧ f () = .ok b :=
  Except.bind_ok_iff.trans ⟨fun ⟨_, h⟩ => h, fun h => ⟨(), h⟩⟩

/-- `Field(min_length=…, max_length=…)`. -/
def lengthIn (name : String) (lo hi : ℕ) (s : String) : Except Invalid Unit :=
  check (lo ≤ s.length ∧ s.length ≤ hi) name "length out of range"

/-- A text that must not be blank, stripped. -/
def requiredText (name : String) (hi : ℕ) (s : String) : Except Invalid String := do
  lengthIn name 1 hi s
  check (Text.strip s ≠ "") name "value must not be blank"
  return Text.strip s

/-- A text that may be empty, stripped. -/
def optionalText (name : String) (hi : ℕ) (s : String) : Except Invalid String := do
  lengthIn name 0 hi s
  return Text.strip s

/-- An optional identifier of bounded length. -/
def shortText (name : String) (hi : ℕ) : Option String → Except Invalid Unit
  | none => .ok ()
  | some s => lengthIn name 0 hi s

/-- `_normalize_datetime` of one value. -/
def normalizeDatetime (name : String) : DateTimeArg → Except Invalid DateTime
  | .naive => .error (.field name "datetime must be timezone-aware")
  | .aware none => .error .overflow
  | .aware (some d) => .ok d

/-- `_normalize_datetime` of an optional value. -/
def normalizeOptional (name : String) : Option DateTimeArg → Except Invalid (Option DateTime)
  | none => .ok none
  | some d => some <$> normalizeDatetime name d

theorem lengthIn_iff {name : String} {lo hi : ℕ} {s : String} :
    lengthIn name lo hi s = .ok () ↔ lo ≤ s.length ∧ s.length ≤ hi :=
  check_iff

theorem shortText_iff {name : String} {hi : ℕ} {s : Option String} :
    shortText name hi s = .ok () ↔ ∀ t ∈ s, t.length ≤ hi := by
  cases s with
  | none => simp [shortText]
  | some t => simp [shortText, lengthIn_iff]

theorem normalizeDatetime_ok {name : String} {arg : DateTimeArg} {d : DateTime}
    (h : normalizeDatetime name arg = .ok d) : arg = .utc d := by
  cases arg with
  | naive => cases h
  | aware utc =>
    cases utc with
    | none => cases h
    | some d' =>
      cases h
      rfl

theorem normalizeOptional_ok {name : String} {arg : Option DateTimeArg} {d : Option DateTime}
    (h : normalizeOptional name arg = .ok d) : arg = d.map .utc := by
  cases arg with
  | none =>
    cases h
    rfl
  | some arg =>
    cases hd : normalizeDatetime name arg with
    | error e => simp [normalizeOptional, hd] at h
    | ok d' =>
      obtain rfl : some d' = d := by simpa [normalizeOptional, hd] using h
      rw [normalizeDatetime_ok hd]
      rfl

theorem requiredText_ok {name : String} {hi : ℕ} {s t : String}
    (h : requiredText name hi s = .ok t) : t = Text.strip s ∧ t ≠ "" := by
  obtain ⟨-, -, h⟩ := Except.of_bind_ok h
  obtain ⟨_, hne, h⟩ := Except.of_bind_ok h
  cases h
  exact ⟨rfl, check_ok hne⟩

theorem optionalText_ok {name : String} {hi : ℕ} {s t : String}
    (h : optionalText name hi s = .ok t) : t = Text.strip s := by
  obtain ⟨-, -, h⟩ := Except.of_bind_ok h
  cases h
  rfl

/-- Stripping takes white space off the right of what it leaves on the left. -/
theorem Text.toList_strip (s : String) :
    (Text.strip s).toList = (s.toList.dropWhile Text.isSpace).rdropWhile Text.isSpace := by
  rw [Text.strip, String.toList_ofList]
  rfl

/-- What is stripped does not begin with white space. -/
theorem Text.dropWhile_strip (s : String) :
    ((Text.strip s).toList).dropWhile Text.isSpace = (Text.strip s).toList := by
  rw [List.dropWhile_eq_self_iff]
  intro hpos
  -- the first character is the one the left pass stopped at
  have hstart : (Text.strip s).toList <+: s.toList.dropWhile Text.isSpace := by
    rw [Text.toList_strip]
    exact List.rdropWhile_prefix _ _
  have hne : s.toList.dropWhile Text.isSpace ≠ [] := by
    intro hnil
    rw [hnil, List.prefix_nil] at hstart
    rw [hstart] at hpos
    exact absurd hpos (by simp)
  have hhead := List.head_dropWhile_not Text.isSpace hne
  rw [hstart.getElem hpos, ← List.head_eq_getElem hne, hhead]
  simp

/-- **Stripping once more** changes nothing. -/
@[simp] theorem Text.strip_strip (s : String) : Text.strip (Text.strip s) = Text.strip s := by
  rw [← String.toList_inj, Text.toList_strip, Text.dropWhile_strip, Text.toList_strip,
    List.rdropWhile_idempotent]

/-- Something is left after stripping exactly when some character is no white space. -/
theorem Text.exists_of_strip {s : String} (h : Text.strip s ≠ "") :
    ∃ c ∈ s.toList, Text.isSpace c = false := by
  by_contra hall
  simp only [not_exists, not_and, Bool.not_eq_false] at hall
  apply h
  rw [← String.toList_inj, Text.toList_strip, List.dropWhile_eq_nil_iff.mpr hall]
  rfl
