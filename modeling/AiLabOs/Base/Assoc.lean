import Mathlib.Data.List.Nodup

/-!
# Dictionaries in insertion order

A dictionary is a list of entries with different keys. Setting the value of a key that is there
keeps its place; a new key comes last.

## Main definitions

* `Assoc.get`, `Assoc.set`, `Assoc.pop`: the operations of a dictionary

## Main results

* `Assoc.get_set`, `Assoc.get_pop`: what is found afterwards
* `Assoc.perm_of_get`: dictionaries that find the same have the same entries
* `Assoc.get_foldl_set`, `Assoc.keys_foldl_set`: a loop that sets different keys
-/

namespace Assoc

variable {κ ν : Type} [DecidableEq κ]

/-- The value of a key. -/
def get (d : List (κ × ν)) (k : κ) : Option ν := (d.find? fun entry => entry.1 = k).map Prod.snd

/-- The dictionary with the value of a key set. -/
def set : List (κ × ν) → κ → ν → List (κ × ν)
  | [], k, v => [(k, v)]
  | entry :: d, k, v => if entry.1 = k then (k, v) :: d else entry :: set d k v

/-- The dictionary without a key. -/
def pop (d : List (κ × ν)) (k : κ) : List (κ × ν) := d.filter fun entry => entry.1 ≠ k

@[simp] theorem get_nil (k : κ) : get ([] : List (κ × ν)) k = none := rfl

theorem get_cons (entry : κ × ν) (d : List (κ × ν)) (k : κ) :
    get (entry :: d) k = if entry.1 = k then some entry.2 else get d k := by
  unfold get
  rw [List.find?_cons]
  by_cases h : entry.1 = k <;> simp [h]

theorem get_set (d : List (κ × ν)) (k k' : κ) (v : ν) :
    get (set d k v) k' = if k = k' then some v else get d k' := by
  induction d with
  | nil => simp [set, get_cons]
  | cons entry d ih =>
    unfold set
    by_cases h : entry.1 = k
    · rw [if_pos h, get_cons, get_cons, h]
      by_cases hk : k = k' <;> simp [hk]
    · rw [if_neg h, get_cons, get_cons, ih]
      by_cases hk : entry.1 = k'
      · rw [if_pos hk, if_pos hk, if_neg (fun hkk => h (hk.trans hkk.symm))]
      · rw [if_neg hk, if_neg hk]

@[simp] theorem get_set_self (d : List (κ × ν)) (k : κ) (v : ν) : get (set d k v) k = some v := by
  rw [get_set, if_pos rfl]

theorem get_set_of_ne {d : List (κ × ν)} {k k' : κ} {v : ν} (h : k ≠ k') :
    get (set d k v) k' = get d k' := by
  rw [get_set, if_neg h]

/-- A new key comes last. -/
theorem set_of_get_eq_none {d : List (κ × ν)} {k : κ} {v : ν} (h : get d k = none) :
    set d k v = d ++ [(k, v)] := by
  induction d with
  | nil => rfl
  | cons entry d ih =>
    rw [get_cons] at h
    by_cases hk : entry.1 = k
    · simp [hk] at h
    · rw [if_neg hk] at h
      rw [set, if_neg hk, ih h, List.cons_append]

theorem get_pop (d : List (κ × ν)) (k k' : κ) :
    get (pop d k) k' = if k = k' then none else get d k' := by
  induction d with
  | nil => simp [pop]
  | cons entry d ih =>
    unfold pop at *
    rw [List.filter_cons]
    by_cases h : entry.1 = k
    · rw [if_neg (by simp [h]), ih, get_cons, h]
      by_cases hk : k = k' <;> simp [hk]
    · rw [if_pos (by simp [h]), get_cons, get_cons, ih]
      by_cases hk : entry.1 = k'
      · rw [if_pos hk, if_pos hk, if_neg (fun hkk => h (hk.trans hkk.symm))]
      · rw [if_neg hk, if_neg hk]

theorem mem_of_get {d : List (κ × ν)} {k : κ} {v : ν} (h : get d k = some v) : (k, v) ∈ d := by
  obtain ⟨entry, hentry, rfl⟩ := Option.map_eq_some_iff.mp h
  have hkey : entry.1 = k := by simpa using List.find?_some hentry
  exact hkey ▸ List.mem_of_find?_eq_some hentry

theorem get_of_mem {d : List (κ × ν)} {k : κ} {v : ν} (hd : (d.map Prod.fst).Nodup)
    (h : (k, v) ∈ d) : get d k = some v := by
  induction d with
  | nil => cases h
  | cons entry d ih =>
    rw [List.map_cons, List.nodup_cons] at hd
    rw [get_cons]
    rcases List.mem_cons.mp h with rfl | hrest
    · exact if_pos rfl
    · have hne : entry.1 ≠ k := fun heq =>
        hd.1 (heq ▸ List.mem_map_of_mem (f := Prod.fst) hrest)
      rw [if_neg hne]
      exact ih hd.2 hrest

theorem mem_set {d : List (κ × ν)} {k : κ} {v : ν} {entry : κ × ν} (h : entry ∈ set d k v) :
    entry = (k, v) ∨ entry ∈ d := by
  induction d with
  | nil => exact .inl (List.mem_singleton.mp h)
  | cons first d ih =>
    unfold set at h
    split at h
    · exact (List.mem_cons.mp h).imp_right (List.mem_cons_of_mem _)
    · rcases List.mem_cons.mp h with rfl | hrest
      · exact .inr (List.mem_cons_self ..)
      · exact (ih hrest).imp_right (List.mem_cons_of_mem _)

/-- Setting a key keeps the keys different. -/
theorem nodup_set {d : List (κ × ν)} (hd : (d.map Prod.fst).Nodup) (k : κ) (v : ν) :
    ((set d k v).map Prod.fst).Nodup := by
  induction d with
  | nil => simp [set]
  | cons first d ih =>
    rw [List.map_cons, List.nodup_cons] at hd
    unfold set
    split
    next heq => exact List.nodup_cons.mpr ⟨heq ▸ hd.1, hd.2⟩
    next hne =>
      refine List.nodup_cons.mpr ⟨fun hmem => ?_, ih hd.2⟩
      obtain ⟨entry, hentry, hfst⟩ := List.mem_map.mp hmem
      rcases mem_set hentry with rfl | hold
      · exact hne hfst.symm
      · exact hd.1 (hfst ▸ List.mem_map_of_mem (f := Prod.fst) hold)

theorem mem_keys {d : List (κ × ν)} {k : κ} : k ∈ d.map Prod.fst ↔ get d k ≠ none := by
  constructor
  · intro h hnone
    obtain ⟨entry, hentry, rfl⟩ := List.mem_map.mp h
    have hfind := Option.map_eq_none_iff.mp hnone
    exact absurd (List.find?_eq_none.mp hfind entry hentry) (by simp)
  · intro h
    obtain ⟨v, hv⟩ := Option.ne_none_iff_exists'.mp h
    exact List.mem_map_of_mem (f := Prod.fst) (mem_of_get hv)

/-- A key that is there keeps its place; a new one comes last. -/
theorem keys_set (d : List (κ × ν)) (k : κ) (v : ν) :
    (set d k v).map Prod.fst =
      if k ∈ d.map Prod.fst then d.map Prod.fst else d.map Prod.fst ++ [k] := by
  induction d with
  | nil => rfl
  | cons entry d ih =>
    rw [set]
    by_cases hk : entry.1 = k
    · rw [if_pos hk, if_pos (by simp [hk]), List.map_cons, List.map_cons, hk]
    · rw [if_neg hk, List.map_cons, ih, List.map_cons]
      by_cases hmem : k ∈ d.map Prod.fst
      · rw [if_pos hmem, if_pos (List.mem_cons_of_mem _ hmem)]
      · rw [if_neg hmem, if_neg, List.cons_append]
        rw [List.mem_cons, not_or]
        exact ⟨Ne.symm hk, hmem⟩

/-! ## The keys -/

theorem keys_pop (d : List (κ × ν)) (k : κ) :
    (pop d k).map Prod.fst = (d.map Prod.fst).filter fun key => key ≠ k := by
  rw [List.filter_map]
  rfl

theorem nodup_pop {d : List (κ × ν)} (hd : (d.map Prod.fst).Nodup) (k : κ) :
    ((pop d k).map Prod.fst).Nodup := by
  rw [keys_pop]
  exact hd.filter _

/-- Popping a key that is there leaves one entry less. -/
theorem length_pop {d : List (κ × ν)} (hd : (d.map Prod.fst).Nodup) (k : κ) :
    (pop d k).length = if k ∈ d.map Prod.fst then d.length - 1 else d.length := by
  have hlength : d.length = (d.map Prod.fst).length := (List.length_map ..).symm
  rw [← List.length_map (f := Prod.fst), keys_pop, hlength]
  have herase : (d.map Prod.fst).filter (fun key => key ≠ k) = (d.map Prod.fst).erase k := by
    rw [hd.erase_eq_filter]
    exact List.filter_congr fun key _ => (by by_cases h : key = k <;> simp [h])
  rw [herase, List.length_erase]

/-- The values of a dictionary changed one by one. -/
theorem get_map {μ : Type} (f : ν → μ) (d : List (κ × ν)) (k : κ) :
    get (d.map fun entry => (entry.1, f entry.2)) k = (get d k).map f := by
  induction d with
  | nil => rfl
  | cons entry d ih =>
    rw [List.map_cons, get_cons, get_cons, ih]
    split <;> rfl

/-- **Dictionaries that find the same** have the same entries. -/
theorem perm_of_get {d d' : List (κ × ν)} (hd : (d.map Prod.fst).Nodup)
    (hd' : (d'.map Prod.fst).Nodup) (h : ∀ k, get d k = get d' k) : d.Perm d' := by
  rw [List.perm_ext_iff_of_nodup (List.Nodup.of_map Prod.fst hd) (List.Nodup.of_map Prod.fst hd')]
  intro entry
  constructor
  · intro hmem
    exact mem_of_get ((h entry.1).symm.trans (get_of_mem hd hmem))
  · intro hmem
    exact mem_of_get ((h entry.1).trans (get_of_mem hd' hmem))

/-- Dictionaries with the same entries find the same. -/
theorem get_perm {d d' : List (κ × ν)} (hd : (d.map Prod.fst).Nodup) (h : d.Perm d') (k : κ) :
    get d k = get d' k := by
  have hd' : (d'.map Prod.fst).Nodup := (h.map Prod.fst).nodup_iff.mp hd
  cases hget : get d' k with
  | some v => exact get_of_mem hd (h.mem_iff.mpr (mem_of_get hget))
  | none =>
    by_contra hne
    obtain ⟨v, hv⟩ := Option.ne_none_iff_exists'.mp hne
    rw [get_of_mem hd' (h.mem_iff.mp (mem_of_get hv))] at hget
    cases hget

section Loops

variable {β : Type} (value : Option ν → β → ν) {entries : List (κ × β)}

/-- **A loop that sets different keys** finds each value from the one before the loop. -/
theorem get_foldl_set (hentries : (entries.map Prod.fst).Nodup) (d : List (κ × ν)) (k : κ) :
    get (entries.foldl (fun d e => set d e.1 (value (get d e.1) e.2)) d) k =
      match get entries k with
      | some b => some (value (get d k) b)
      | none => get d k := by
  induction entries generalizing d with
  | nil => rfl
  | cons e entries ih =>
    rw [List.map_cons, List.nodup_cons] at hentries
    rw [List.foldl_cons, ih hentries.2, get_cons]
    by_cases hk : e.1 = k
    · -- the key is not set again
      have hnone : get entries k = none := by
        by_contra hsome
        exact hentries.1 (hk ▸ mem_keys.mpr hsome)
      rw [hnone, if_pos hk, ← hk]
      exact get_set_self ..
    · rw [if_neg hk, get_set_of_ne hk]

/-- The new keys come last, in the order of the loop. -/
theorem keys_foldl_set (hentries : (entries.map Prod.fst).Nodup) (d : List (κ × ν)) :
    (entries.foldl (fun d e => set d e.1 (value (get d e.1) e.2)) d).map Prod.fst =
      d.map Prod.fst ++ (entries.map Prod.fst).filter fun k => k ∉ d.map Prod.fst := by
  induction entries generalizing d with
  | nil => simp
  | cons e entries ih =>
    rw [List.map_cons, List.nodup_cons] at hentries
    rw [List.foldl_cons, ih hentries.2, keys_set, List.map_cons, List.filter_cons]
    by_cases hmem : e.1 ∈ d.map Prod.fst
    · rw [if_pos hmem, if_neg (by simpa using hmem)]
    · rw [if_neg hmem, if_pos (by simpa using hmem), List.append_assoc, List.singleton_append]
      congr 2
      refine List.filter_congr fun k hk => ?_
      have hne : k ≠ e.1 := fun heq => hentries.1 (heq ▸ hk)
      simp [hne]

end Loops

end Assoc
