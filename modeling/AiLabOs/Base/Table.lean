import Mathlib.Data.List.Nodup

/-!
# Tables with a primary key

A table is a list of rows. `UPDATE … WHERE` changes every row that meets a condition and reports
how many there were. When rows have different keys and the condition names a key, it changes at
most one row, and the table after it is the table with that row put in its place.

## Main definitions

* `Table.update p f rows`: the table after an update, whose row count is `rows.countP p`
* `Table.put key new rows`: the table with the row of one key replaced
* `Table.Unique key rows`: no two rows share a key

## Main results

* `Table.update_eq_put`: an update that names a key replaces one row
* `Table.mem_put`, `Table.Unique.put`: the rows and the keys afterwards
-/

namespace Table

variable {α κ : Type}

/-- `UPDATE rows SET f WHERE p`. -/
def update (p : α → Bool) (f : α → α) (rows : List α) : List α :=
  rows.map fun row => if p row then f row else row

theorem mem_update {p : α → Bool} {f : α → α} {rows : List α} {row : α} :
    row ∈ update p f rows ↔ ∃ old ∈ rows, (if p old then f old else old) = row :=
  List.mem_map

/-- No two rows share a key. -/
def Unique (key : α → κ) (rows : List α) : Prop := (rows.map key).Nodup

section Keys

variable {key : α → κ} {rows : List α}

theorem Unique.eq (h : Unique key rows) {a b : α} (ha : a ∈ rows) (hb : b ∈ rows)
    (hkey : key a = key b) : a = b :=
  List.inj_on_of_nodup_map h ha hb hkey

theorem Unique.filter (h : Unique key rows) (p : α → Bool) : Unique key (rows.filter p) :=
  List.Nodup.sublist (List.filter_sublist.map key) h

/-- A row with a new key can be added. -/
theorem Unique.insert (h : Unique key rows) {new : α} (hfree : ∀ row ∈ rows, key row ≠ key new) :
    Unique key (rows ++ [new]) := by
  unfold Unique
  rw [List.map_append, List.map_singleton, List.nodup_append]
  refine ⟨h, List.nodup_singleton _, ?_⟩
  intro k hk k' hk'
  obtain ⟨row, hrow, rfl⟩ := List.mem_map.mp hk
  rw [List.mem_singleton.mp hk']
  exact hfree row hrow

/-- An update that keeps keys keeps them unique. -/
theorem map_key_update {p : α → Bool} {f : α → α} (hf : ∀ row, key (f row) = key row) :
    (update p f rows).map key = rows.map key := by
  unfold update
  rw [List.map_map]
  refine List.map_congr_left fun row _ => ?_
  rw [Function.comp_apply]
  split
  · exact hf row
  · rfl

theorem Unique.update (h : Unique key rows) {p : α → Bool} {f : α → α}
    (hf : ∀ row, key (f row) = key row) : Unique key (update p f rows) := by
  unfold Unique
  rw [map_key_update hf]
  exact h

end Keys

/-- A query by key after an update that keeps keys finds what it found before, updated. -/
theorem find?_update [DecidableEq κ] {key : α → κ} {rows : List α} {p : α → Bool} {f : α → α}
    (hf : ∀ row, key (f row) = key row) (k : κ) :
    (update p f rows).find? (fun row => key row = k) =
      (rows.find? fun row => key row = k).map fun row => if p row then f row else row := by
  have hkey : ∀ row, key (if p row then f row else row) = key row := by
    intro row
    split
    · exact hf row
    · rfl
  unfold update
  rw [List.find?_map]
  congr 2
  funext row
  simp [hkey]

section Counts

/-- A row count of one: some row met the condition. -/
theorem exists_of_countP_eq_one {p : α → Bool} {rows : List α} (h : rows.countP p = 1) :
    ∃ row ∈ rows, p row = true :=
  List.countP_pos_iff.mp (by omega)

/-- The row count of a condition that one row meets. -/
theorem countP_eq_one {p : α → Bool} {rows : List α} {row : α} (h : rows.Nodup) (hrow : row ∈ rows)
    (hp : p row = true) (honly : ∀ other ∈ rows, p other = true → other = row) :
    rows.countP p = 1 := by
  have hall : ∀ other ∈ rows.filter p, other = row := by
    intro other hother
    obtain ⟨hmem, hpo⟩ := List.mem_filter.mp hother
    exact honly other hmem hpo
  have hmem : row ∈ rows.filter p := List.mem_filter.mpr ⟨hrow, hp⟩
  have hnodup : (rows.filter p).Nodup := h.filter p
  rw [List.countP_eq_length_filter]
  cases hrows : rows.filter p with
  | nil => simp [hrows] at hmem
  | cons first rest =>
    cases rest with
    | nil => rfl
    | cons second rest =>
      rw [hrows] at hnodup hall
      have hfirst := hall first (List.mem_cons_self ..)
      have hsecond := hall second (List.mem_cons_of_mem _ (List.mem_cons_self ..))
      rw [hfirst, hsecond] at hnodup
      simp at hnodup

/-- A row count of one: the row that meets the condition is the only one. -/
theorem eq_of_countP_eq_one {p : α → Bool} {rows : List α} (h : rows.countP p = 1) {a b : α}
    (ha : a ∈ rows) (hpa : p a = true) (hb : b ∈ rows) (hpb : p b = true) : a = b := by
  rw [List.countP_eq_length_filter] at h
  obtain ⟨row, hrow⟩ := List.length_eq_one_iff.mp h
  have hmem : ∀ x ∈ rows, p x = true → x = row := by
    intro x hx hpx
    have hx' := List.mem_filter.mpr ⟨hx, hpx⟩
    rw [hrow] at hx'
    exact List.mem_singleton.mp hx'
  rw [hmem a ha hpa, hmem b hb hpb]

/-- A condition that names a key is met by no row or by one. -/
theorem countP_cases {key : α → κ} {rows : List α} (h : Unique key rows) {p : α → Bool} (k : κ)
    (hkey : ∀ row, p row = true → key row = k) :
    rows.countP p = 0 ∨ ∃ old ∈ rows, p old = true ∧ key old = k ∧ rows.countP p = 1 := by
  by_cases h0 : rows.countP p = 0
  · exact .inl h0
  · obtain ⟨old, hold, hp⟩ := List.countP_pos_iff.mp (Nat.pos_of_ne_zero h0)
    refine .inr ⟨old, hold, hp, hkey old hp, ?_⟩
    exact countP_eq_one (List.Nodup.of_map key h) hold hp
      fun other hother hpo => h.eq hother hold ((hkey other hpo).trans (hkey old hp).symm)

end Counts

section Put

variable [DecidableEq κ] {key : α → κ} {rows : List α} {new : α}

/-- The table with `new` in the place of the row that has its key. -/
def put (key : α → κ) (new : α) (rows : List α) : List α :=
  rows.map fun row => if key row = key new then new else row

theorem map_key_put : (put key new rows).map key = rows.map key := by
  unfold put
  rw [List.map_map]
  refine List.map_congr_left fun row _ => ?_
  rw [Function.comp_apply]
  split
  · exact Eq.symm ‹_›
  · rfl

theorem Unique.put (h : Unique key rows) : Unique key (put key new rows) := by
  unfold Unique
  rw [map_key_put]
  exact h

/-- The rows after a replacement: the new one, if its key was there, and the others. -/
theorem mem_put {row : α} : row ∈ put key new rows ↔
    row = new ∧ (∃ old ∈ rows, key old = key new) ∨ row ∈ rows ∧ key row ≠ key new := by
  unfold put
  rw [List.mem_map]
  constructor
  · rintro ⟨old, hold, rfl⟩
    split
    · rename_i hkey
      exact .inl ⟨rfl, old, hold, hkey⟩
    · rename_i hkey
      exact .inr ⟨hold, hkey⟩
  · rintro (⟨rfl, old, hold, hkey⟩ | ⟨hrow, hkey⟩)
    · exact ⟨old, hold, if_pos hkey⟩
    · exact ⟨row, hrow, if_neg hkey⟩

theorem mem_put_self {old : α} (hold : old ∈ rows) (hkey : key old = key new) :
    new ∈ put key new rows :=
  mem_put.mpr (.inl ⟨rfl, old, hold, hkey⟩)

theorem mem_put_of_ne {row : α} (hrow : row ∈ rows) (hkey : key row ≠ key new) :
    row ∈ put key new rows :=
  mem_put.mpr (.inr ⟨hrow, hkey⟩)

/-- **An update that names a key** and matches a row replaces that row. -/
theorem update_eq_put (h : Unique key rows) {p : α → Bool} {f : α → α} {old : α} (hold : old ∈ rows)
    (hp : p old = true) (hkey : ∀ row, p row = true → key row = key old)
    (hf : key (f old) = key old) : update p f rows = put key (f old) rows := by
  unfold update put
  refine List.map_congr_left fun row hrow => ?_
  by_cases hk : key row = key old
  · obtain rfl := h.eq hrow hold hk
    rw [if_pos hp, if_pos hf.symm]
  · rw [if_neg fun hprow => hk (hkey row hprow), if_neg fun heq => hk (heq.trans hf)]

/-- An update that matches no row changes nothing. -/
theorem update_of_none {p : α → Bool} {f : α → α} (h : rows.countP p = 0) :
    update p f rows = rows := by
  have hsame : ∀ row ∈ rows, (if p row then f row else row) = id row :=
    fun row hrow => if_neg (List.countP_eq_zero.mp h row hrow)
  rw [update, List.map_congr_left hsame, List.map_id]

/-- **What an update that names a key can do**: nothing, or replace the row of that key. -/
theorem update_cases (h : Unique key rows) {p : α → Bool} {f : α → α} (k : κ)
    (hkey : ∀ row, p row = true → key row = k) (hf : ∀ row, key (f row) = key row) :
    rows.countP p = 0 ∧ update p f rows = rows ∨
    ∃ old ∈ rows, p old = true ∧ key old = k ∧ rows.countP p = 1 ∧
      update p f rows = put key (f old) rows := by
  rcases countP_cases h k hkey with h0 | ⟨old, hold, hp, hk, h1⟩
  · exact .inl ⟨h0, update_of_none h0⟩
  · exact .inr ⟨old, hold, hp, hk, h1, update_eq_put h hold hp
      (fun row hrow => (hkey row hrow).trans hk.symm) (hf old)⟩

/-- A query by key finds the row that has it. -/
theorem find?_eq (h : Unique key rows) {row : α} (hrow : row ∈ rows) :
    rows.find? (fun other => key other = key row) = some row := by
  cases hfind : rows.find? fun other => decide (key other = key row) with
  | none =>
    have := List.find?_eq_none.mp hfind row hrow
    simp at this
  | some other =>
    have hmem := List.mem_of_find?_eq_some hfind
    have hkey : key other = key row := by simpa using List.find?_some hfind
    rw [h.eq hmem hrow hkey]

end Put

end Table
