import AiLabOs.Database.Connections
import AiLabOs.Process.Fresh
import Mathlib.Data.List.Basic

/-!
# What a lease protects

The lock of a database covers everything that is done to its connection: only the thread that has
the lock opens, closes or replaces it. So the connection a lease lends stays the open connection of
its database until the lease is over, unless the thread closes it itself.

## Main definitions

* `Inv`, `Rely`, `Pre`: the protocol of the threads
* `Holds`: the locks a thread has, and the connections it was lent
* `LeaseLaw`: what holds between the threads of a process

## Main results

* `lease_law`: the law in every reachable state
-/

namespace Databases

open Process Program

/-! ## The protocol -/

/-- What the tables say of the connections. -/
structure Inv (w : World) : Prop where
  cached : ∀ name n, Assoc.get w.connections name = some n → w.OpenedFor n name
  /-- An open connection is in the table, or on its way there. -/
  known : ∀ name n, w.OpenedFor n name → w.closedBy n = none →
    Assoc.get w.connections name = some n ∨ w.pending name = some n
  pending : ∀ name n, w.pending name = some n → w.OpenedFor n name ∧ w.closedBy n = none ∧
    Assoc.get w.connections name = none ∧ ∃ j, 0 < w.locks.depth j name
  bound : ∀ (n : ℕ) name path, w.opened[n]? = some (name, path) →
    Assoc.get w.paths name = some path
  fresh : ∀ n, w.opened.length ≤ n → w.closedBy n = none

/-- What the other threads leave alone while the thread `i` has the lock of a database. -/
structure Rely (i : ℕ) (w w' : World) : Prop where
  depth : ∀ name, w'.locks.depth i name = w.locks.depth i name
  table : ∀ name, 0 < w.locks.depth i name →
    Assoc.get w'.connections name = Assoc.get w.connections name ∧
      w'.pending name = w.pending name
  closedBy : ∀ n name, w.OpenedFor n name → 0 < w.locks.depth i name →
    w'.closedBy n = w.closedBy n
  opened : w.opened <+: w'.opened
  paths : ∀ name path, Assoc.get w.paths name = some path → Assoc.get w'.paths name = some path

variable {i j n : ℕ} {name path : String} {w w' w'' : World}

theorem World.OpenedFor.mono (h : w.OpenedFor n name) (hpre : w.opened <+: w'.opened) :
    w'.OpenedFor n name := by
  obtain ⟨path, h⟩ := h
  obtain ⟨more, hmore⟩ := hpre
  refine ⟨path, ?_⟩
  rw [← hmore, List.getElem?_append_left (List.getElem?_eq_some_iff.mp h).1]
  exact h

theorem World.OpenedFor.unique {name' : String} (h : w.OpenedFor n name)
    (h' : w.OpenedFor n name') : name = name' := by
  obtain ⟨path, h⟩ := h
  obtain ⟨path', h'⟩ := h'
  exact congrArg Prod.fst (Option.some.inj (h.symm.trans h'))

theorem Rely.refl (i : ℕ) (w : World) : Rely i w w where
  depth _ := rfl
  table _ _ := ⟨rfl, rfl⟩
  closedBy _ _ _ _ := rfl
  opened := List.prefix_rfl
  paths _ _ h := h

theorem Rely.trans (h : Rely i w w') (h' : Rely i w' w'') : Rely i w w'' where
  depth name := (h'.depth name).trans (h.depth name)
  table name hdepth := by
    obtain ⟨hconn, hpending⟩ := h.table name hdepth
    obtain ⟨hconn', hpending'⟩ := h'.table name (h.depth name ▸ hdepth)
    exact ⟨hconn'.trans hconn, hpending'.trans hpending⟩
  closedBy n name hn hdepth :=
    (h'.closedBy n name (hn.mono h.opened) (h.depth name ▸ hdepth)).trans
      (h.closedBy n name hn hdepth)
  opened := h.opened.trans h'.opened
  paths name path hpath := h'.paths name path (h.paths name path hpath)

def protocol : Protocol World where
  Inv := Inv
  Rely := Rely
  refl := Rely.refl
  trans := Rely.trans

/-- What each action needs. -/
def Pre (i : ℕ) (action : Action) (w : World) : Prop :=
  match action with
  | .release name => 0 < w.locks.depth i name ∧ w.pending name = none
  | .close name n => 0 < w.locks.depth i name ∧ w.OpenedFor n name ∧ w.pending name = none
  | .pop name n => 0 < w.locks.depth i name ∧ w.closedBy n ≠ none
  | .connect name path => 0 < w.locks.depth i name ∧ Assoc.get w.connections name = none ∧
      w.pending name = none ∧ Assoc.get w.paths name = some path
  | .store name n => 0 < w.locks.depth i name ∧ w.pending name = some n
  | .execute name n => 0 < w.locks.depth i name ∧ w.pending name = none ∧
      w.OpenedFor n name ∧ (w.closedBy n = none ∨ w.closedBy n = some i)
  | _ => True

def pre (i : ℕ) (_ : Log Action Reply) (action : Action) (w : World) : Prop := Pre i action w

/-! ### What the actions keep -/

theorem Inv.initial : Inv {} where
  cached name n h := by cases h
  known name n h := by
    obtain ⟨path, h⟩ := h
    cases h
  pending name n h := by cases h
  bound n name path h := by cases h
  fresh _ _ := rfl

/-- Another lock is taken or given back. -/
theorem Inv.relock {locks : Locks String} (h : Inv w)
    (hkeep : ∀ name, w.pending name ≠ none → ∀ j, 0 < w.locks.depth j name →
      0 < locks.depth j name) : Inv { w with locks := locks } where
  cached := h.cached
  known := h.known
  pending name n hn := by
    obtain ⟨hopened, hopen, hnone, j, hj⟩ := h.pending name n hn
    have hsome : w.pending name ≠ none := fun heq => nomatch hn.symm.trans heq
    exact ⟨hopened, hopen, hnone, j, hkeep name hsome j hj⟩
  bound := h.bound
  fresh := h.fresh

theorem Inv.bindPath (h : Inv w) (hnone : Assoc.get w.paths name = none) :
    Inv { w with paths := Assoc.set w.paths name path } where
  cached := h.cached
  known := h.known
  pending := h.pending
  bound n name' path' hn := by
    have hbound := h.bound n name' path' hn
    have hne : name ≠ name' := by
      rintro rfl
      exact nomatch hnone.symm.trans hbound
    exact (Assoc.get_set_of_ne hne).trans hbound
  fresh := h.fresh

theorem Inv.closeBy (h : Inv w) (hn : w.OpenedFor n name) (hsettled : w.pending name = none) :
    Inv (w.closeBy i n) where
  cached := h.cached
  known name' m hm hopen := by
    refine h.known name' m hm ?_
    by_cases hmn : m = n
    · subst hmn
      exact nomatch (Function.update_self m _ w.closedBy).symm.trans hopen
    · exact (Function.update_of_ne hmn ..).symm.trans hopen
  pending name' m hm := by
    obtain ⟨hopened, hopen, hnone, hlock⟩ := h.pending name' m hm
    have hmn : m ≠ n := by
      rintro rfl
      obtain rfl := hn.unique hopened
      exact nomatch hsettled.symm.trans hm
    exact ⟨hopened, (Function.update_of_ne hmn ..).trans hopen, hnone, hlock⟩
  bound := h.bound
  fresh m hm := by
    have hmn : m ≠ n := by
      rintro rfl
      obtain ⟨path, hn⟩ := hn
      exact absurd (List.getElem?_eq_some_iff.mp hn).1 (Nat.not_lt.mpr hm)
    exact (Function.update_of_ne hmn ..).trans (h.fresh m hm)

theorem Inv.popConnection (h : Inv w) (hclosed : w.closedBy n ≠ none) :
    Inv (w.popConnection name n) := by
  unfold World.popConnection
  split
  · next hget =>
    exact
    { cached := by
        intro name' m hm
        rw [Assoc.get_pop] at hm
        split at hm
        · cases hm
        · exact h.cached name' m hm
      known := by
        intro name' m hm hopen
        rcases h.known name' m hm hopen with hcached | hpending
        · refine .inl ((Assoc.get_pop ..).trans ?_)
          split
          · next heq =>
            subst heq
            obtain rfl := Option.some.inj (hget.symm.trans hcached)
            exact absurd hopen hclosed
          · exact hcached
        · exact .inr hpending
      pending := by
        intro name' m hm
        obtain ⟨hopened, hopen, hnone, hlock⟩ := h.pending name' m hm
        refine ⟨hopened, hopen, (Assoc.get_pop ..).trans ?_, hlock⟩
        split
        · rfl
        · exact hnone
      bound := h.bound
      fresh := h.fresh }
  · exact h

theorem openedFor_connect {name' : String} {m : ℕ} (h : (w.connect name path).OpenedFor m name') :
    w.OpenedFor m name' ∨ m = w.opened.length ∧ name' = name := by
  obtain ⟨path', hm⟩ := h
  rcases Nat.lt_or_ge m w.opened.length with hlt | hge
  · exact .inl ⟨path', (List.getElem?_append_left hlt).symm.trans hm⟩
  · have hlast : (w.opened ++ [(name, path)])[m]? = some (name', path') := hm
    rw [List.getElem?_append_right hge, List.getElem?_singleton] at hlast
    split at hlast
    · exact .inr ⟨by omega, (congrArg Prod.fst (Option.some.inj hlast)).symm⟩
    · cases hlast

theorem prefix_connect : w.opened <+: (w.connect name path).opened := List.prefix_append ..

theorem openedFor_connect_self : (w.connect name path).OpenedFor w.opened.length name :=
  ⟨path, List.getElem?_concat_length ..⟩

theorem Inv.connect (h : Inv w) (hlock : 0 < w.locks.depth i name)
    (hnone : Assoc.get w.connections name = none) (hsettled : w.pending name = none)
    (hpath : Assoc.get w.paths name = some path) : Inv (w.connect name path) where
  cached name' m hm := (h.cached name' m hm).mono prefix_connect
  known name' m hm hopen := by
    rcases openedFor_connect hm with hold | ⟨rfl, rfl⟩
    · rcases h.known name' m hold hopen with hcached | hpending
      · exact .inl hcached
      · have hne : name' ≠ name := by
          rintro rfl
          exact nomatch hsettled.symm.trans hpending
        exact .inr ((Function.update_of_ne hne ..).trans hpending)
    · exact .inr (Function.update_self ..)
  pending name' m hm := by
    by_cases hname : name' = name
    · subst hname
      obtain rfl := Option.some.inj ((Function.update_self name' _ w.pending).symm.trans hm)
      exact ⟨openedFor_connect_self, h.fresh _ (Nat.le_refl _), hnone, i, hlock⟩
    · have hold : w.pending name' = some m := (Function.update_of_ne hname ..).symm.trans hm
      obtain ⟨hopened, hrest⟩ := h.pending name' m hold
      exact ⟨hopened.mono prefix_connect, hrest⟩
  bound m name' path' hm := by
    rcases Nat.lt_or_ge m w.opened.length with hlt | hge
    · exact h.bound m name' path' ((List.getElem?_append_left hlt).symm.trans hm)
    · have hlast : (w.opened ++ [(name, path)])[m]? = some (name', path') := hm
      rw [List.getElem?_append_right hge, List.getElem?_singleton] at hlast
      split at hlast
      · obtain ⟨rfl, rfl⟩ := Prod.mk.inj (Option.some.inj hlast)
        exact hpath
      · cases hlast
  fresh m hm := by
    have hlength : (w.connect name path).opened.length = w.opened.length + 1 :=
      List.length_append ..
    exact h.fresh m (by omega)

theorem Inv.store (h : Inv w) (hpending : w.pending name = some n) : Inv (w.store name n) := by
  obtain ⟨hopened, hopen, hnone, -⟩ := h.pending name n hpending
  exact
  { cached := by
      intro name' m hm
      rcases eq_or_ne name name' with rfl | hne
      · obtain rfl := Option.some.inj ((Assoc.get_set_self ..).symm.trans hm)
        exact hopened
      · exact h.cached name' m ((Assoc.get_set_of_ne hne).symm.trans hm)
    known := by
      intro name' m hm hmopen
      rcases eq_or_ne name name' with rfl | hne
      · have hold : w.pending name = some m :=
          (h.known name m hm hmopen).resolve_left fun heq => nomatch hnone.symm.trans heq
        obtain rfl := Option.some.inj (hpending.symm.trans hold)
        exact .inl (Assoc.get_set_self ..)
      · rcases h.known name' m hm hmopen with hcached | hold
        · exact .inl ((Assoc.get_set_of_ne hne).trans hcached)
        · exact .inr ((Function.update_of_ne hne.symm ..).trans hold)
    pending := by
      intro name' m hm
      rcases eq_or_ne name name' with rfl | hne
      · exact nomatch (Function.update_self name _ w.pending).symm.trans hm
      · have hold : w.pending name' = some m := (Function.update_of_ne hne.symm ..).symm.trans hm
        obtain ⟨hopened', hopen', hnone', hlock⟩ := h.pending name' m hold
        exact ⟨hopened', hopen', (Assoc.get_set_of_ne hne).trans hnone', hlock⟩
    bound := h.bound
    fresh := h.fresh }

/-! ### What the actions leave to the other threads -/

theorem Rely.bindPath (hnone : Assoc.get w.paths name = none) :
    Rely j w { w with paths := Assoc.set w.paths name path } where
  depth _ := rfl
  table _ _ := ⟨rfl, rfl⟩
  closedBy _ _ _ _ := rfl
  opened := List.prefix_rfl
  paths name' path' hpath := by
    have hne : name ≠ name' := by
      rintro rfl
      exact nomatch hnone.symm.trans hpath
    exact (Assoc.get_set_of_ne hne).trans hpath

theorem Rely.relock {locks : Locks String}
    (h : ∀ name, locks.depth j name = w.locks.depth j name) :
    Rely j w { w with locks := locks } where
  depth := h
  table _ _ := ⟨rfl, rfl⟩
  closedBy _ _ _ _ := rfl
  opened := List.prefix_rfl
  paths _ _ hpath := hpath

/-- What a thread does to a database it has the lock of, no other thread has it for. -/
theorem not_mine (hlock : 0 < w.locks.depth i name) (hij : j ≠ i) {name' : String}
    (hmine : 0 < w.locks.depth j name') : name' ≠ name := by
  rintro rfl
  exact hij (Locks.exclusive hmine hlock)

theorem Rely.closeBy (hlock : 0 < w.locks.depth i name) (hn : w.OpenedFor n name) (hij : j ≠ i) :
    Rely j w (w.closeBy i n) where
  depth _ := rfl
  table _ _ := ⟨rfl, rfl⟩
  closedBy m name' hm hmine := by
    have hmn : m ≠ n := by
      rintro rfl
      exact not_mine hlock hij hmine (hm.unique hn)
    exact Function.update_of_ne hmn ..
  opened := List.prefix_rfl
  paths _ _ hpath := hpath

theorem Rely.popConnection (hlock : 0 < w.locks.depth i name) (hij : j ≠ i) :
    Rely j w (w.popConnection name n) := by
  unfold World.popConnection
  split
  · exact
    { depth := fun _ => rfl
      table := by
        intro name' hmine
        refine ⟨(Assoc.get_pop ..).trans ?_, rfl⟩
        rw [if_neg (not_mine hlock hij hmine).symm]
      closedBy := fun _ _ _ _ => rfl
      opened := List.prefix_rfl
      paths := fun _ _ hpath => hpath }
  · exact .refl j w

theorem Rely.connect (hlock : 0 < w.locks.depth i name) (hij : j ≠ i) :
    Rely j w (w.connect name path) where
  depth _ := rfl
  table _ hmine := ⟨rfl, Function.update_of_ne (not_mine hlock hij hmine) ..⟩
  closedBy _ _ _ _ := rfl
  opened := prefix_connect
  paths _ _ hpath := hpath

theorem Rely.store (hlock : 0 < w.locks.depth i name) (hij : j ≠ i) :
    Rely j w (w.store name n) where
  depth _ := rfl
  table _ hmine := ⟨Assoc.get_set_of_ne (not_mine hlock hij hmine).symm,
    Function.update_of_ne (not_mine hlock hij hmine) ..⟩
  closedBy _ _ _ _ := rfl
  opened := List.prefix_rfl
  paths _ _ hpath := hpath

theorem sound : Sound protocol handler pre := by
  intro i log action works r w w' hinv hpre hact
  have hsame : w' = w → protocol.Inv w' ∧ ∀ j, j ≠ i → protocol.Rely j w w' := by
    rintro rfl
    exact ⟨hinv, fun j _ => .refl j w'⟩
  cases action with
  | bindPath name path =>
    cases hget : Assoc.get w.paths name with
    | none =>
      simp only [handler, hget] at hact
      obtain ⟨-, rfl⟩ := Prod.mk.inj (Option.some.inj hact)
      exact ⟨hinv.bindPath hget, fun j _ => .bindPath hget⟩
    | some current =>
      simp only [handler, hget] at hact
      split at hact
      · exact hsame (Prod.mk.inj (Option.some.inj hact)).2.symm
      · exact hsame (Prod.mk.inj (Option.some.inj hact)).2.symm
  | readPath name => exact hsame (Prod.mk.inj (Option.some.inj hact)).2.symm
  | readConnection name => exact hsame (Prod.mk.inj (Option.some.inj hact)).2.symm
  | readNames => exact hsame (Prod.mk.inj (Option.some.inj hact)).2.symm
  | probe n => exact hsame (Prod.mk.inj (Option.some.inj hact)).2.symm
  | execute name n => exact hsame (Prod.mk.inj (Option.some.inj hact)).2.symm
  | acquire name =>
    obtain ⟨locks, hlocks, heq⟩ := Option.map_eq_some_iff.mp hact
    obtain ⟨-, rfl⟩ := Prod.mk.inj heq
    have hdepth := Locks.depth_acquire hlocks
    refine ⟨hinv.relock fun name' _ j hj => ?_, fun j hij => .relock fun name' => ?_⟩
    · rw [hdepth j name']
      omega
    · rw [hdepth j name', if_neg fun h => hij h.1.symm, Nat.add_zero]
  | release name =>
    obtain ⟨locks, hlocks, heq⟩ := Option.map_eq_some_iff.mp hact
    obtain ⟨-, rfl⟩ := Prod.mk.inj heq
    have hdepth := Locks.depth_release hlocks
    refine ⟨hinv.relock fun name' hsome j hj => ?_, fun j hij => .relock fun name' => ?_⟩
    · -- the lock is not one that a new connection waits under
      have hne : name ≠ name' := by
        rintro rfl
        exact hsome hpre.2
      have := hdepth j name'
      rw [if_neg fun h => hne h.2] at this
      omega
    · have := hdepth j name'
      rw [if_neg fun h => hij h.1.symm] at this
      exact this
  | close name n =>
    obtain ⟨hlock, hn, hsettled⟩ := hpre
    cases works with
    | true =>
      obtain ⟨-, rfl⟩ := Prod.mk.inj (Option.some.inj hact)
      exact ⟨hinv.closeBy hn hsettled, fun j hij => .closeBy hlock hn hij⟩
    | false => exact hsame (Prod.mk.inj (Option.some.inj hact)).2.symm
  | pop name n =>
    obtain ⟨hlock, hclosed⟩ := hpre
    obtain ⟨-, rfl⟩ := Prod.mk.inj (Option.some.inj hact)
    exact ⟨hinv.popConnection hclosed, fun j hij => .popConnection hlock hij⟩
  | connect name path =>
    obtain ⟨hlock, hnone, hsettled, hpath⟩ := hpre
    cases works with
    | true =>
      obtain ⟨-, rfl⟩ := Prod.mk.inj (Option.some.inj hact)
      exact ⟨hinv.connect hlock hnone hsettled hpath, fun j hij => .connect hlock hij⟩
    | false => exact hsame (Prod.mk.inj (Option.some.inj hact)).2.symm
  | store name n =>
    obtain ⟨hlock, hpending⟩ := hpre
    obtain ⟨-, rfl⟩ := Prod.mk.inj (Option.some.inj hact)
    exact ⟨hinv.store hpending, fun j hij => .store hlock hij⟩

/-! ## The threads -/

/-- The locks the thread has, the connections it was lent, and the one it is about to put into the
table. -/
structure Holds (i : ℕ) (names : List String) (lent : List (String × ℕ))
    (opening : String → Option ℕ) (w : World) : Prop where
  depth : ∀ name, w.locks.depth i name = names.count name
  settled : ∀ name ∈ names, w.pending name = opening name
  lent : ∀ entry ∈ lent, w.OpenedFor entry.2 entry.1 ∧
    (w.closedBy entry.2 = none ∨ w.closedBy entry.2 = some i)

/-- The thread is not opening a connection. -/
abbrev idleOpening : String → Option ℕ := fun _ => none

theorem Holds.locked {names : List String} {lent : List (String × ℕ)}
    {opening : String → Option ℕ} (h : Holds i names lent opening w) (hname : name ∈ names) :
    0 < w.locks.depth i name := by
  rw [h.depth name]
  exact List.count_pos_iff.mpr hname

theorem Holds.rely {names : List String} {lent : List (String × ℕ)} {opening : String → Option ℕ}
    (h : Holds i names lent opening w) (hin : ∀ entry ∈ lent, entry.1 ∈ names)
    (hrely : Rely i w w') : Holds i names lent opening w' where
  depth name := (hrely.depth name).trans (h.depth name)
  settled name hname := (hrely.table name (h.locked hname)).2.trans (h.settled name hname)
  lent entry hentry := by
    obtain ⟨hopened, hclosed⟩ := h.lent entry hentry
    refine ⟨hopened.mono hrely.opened, ?_⟩
    rw [hrely.closedBy entry.2 entry.1 hopened (h.locked (hin entry hentry))]
    exact hclosed

section Threads

variable {names : List String} {lent : List (String × ℕ)} {opening : String → Option ℕ}
variable {α β : Type} {P : World → Prop} {Q Q' : α → World → Prop} {S : β → World → Prop}
variable {p : DbProgram α} {basePath : String} {dbPath : Option String}

/-- A thread that has these locks runs the program, whatever the others do meanwhile, and has the
same locks after it. -/
def Kept (i : ℕ) (names : List String) (lent : List (String × ℕ)) (P : World → Prop)
    (p : DbProgram α) (Q : α → World → Prop) : Prop :=
  ∀ log w, Holds i names lent idleOpening w → P w →
    Safe protocol handler pre i (fun a _ w => Holds i names lent idleOpening w ∧ Q a w)
      (fun _ _ w => Holds i names lent idleOpening w) p log w

theorem Kept.ret {a : α} (h : ∀ w, P w → Q a w) : Kept i names lent P (.ret a) Q :=
  fun _ w hholds hp => .ret ⟨hholds, h w hp⟩

theorem Kept.raise {exn : Exn} : Kept i names lent P (.raise exn) Q :=
  fun _ _ hholds _ => .raise hholds

theorem Kept.weaken (h : Kept i names lent P p Q) {P' : World → Prop} (hP : ∀ w, P' w → P w)
    (hQ : ∀ a w, Q a w → Q' a w) : Kept i names lent P' p Q' :=
  fun log w hholds hp => (h log w hholds (hP w hp)).mono
    (fun a _ w hpost => ⟨hpost.1, hQ a w hpost.2⟩) fun _ _ _ hfail => hfail

theorem Kept.bind {f : α → DbProgram β} (h : Kept i names lent P p Q)
    (hf : ∀ a, Kept i names lent (Q a) (f a) S) : Kept i names lent P (p >>= f) S :=
  fun log w hholds hp => .bind ((h log w hholds hp).mono
    (fun a log w hpost => hf a log w hpost.1 hpost.2) fun _ _ _ hfail => hfail)

theorem Kept.tryCatch {f : Exn → DbProgram α} (h : Kept i names lent P p Q)
    (hf : ∀ exn, Kept i names lent (fun _ => True) (f exn) Q) :
    Kept i names lent P (p.tryCatch f) Q :=
  fun log w hholds hp => .tryCatch ((h log w hholds hp).mono (fun _ _ _ hpost => hpost)
    fun exn log w hfail => hf exn log w hfail trivial)

/-- One action that keeps the locks. -/
theorem Kept.act {action : Action} {Q : Reply action → World → Prop}
    (hin : ∀ entry ∈ lent, entry.1 ∈ names)
    (h : ∀ w w', Holds i names lent idleOpening w → P w → Rely i w w' → Inv w' →
      Holds i names lent idleOpening w' → Pre i action w' ∧ ∀ works r w'',
        handler i action works w' = some (r, w'') →
          Holds i names lent idleOpening w'' ∧ Q r w'') :
    Kept i names lent P (Databases.act action) Q := by
  intro log w hholds hp
  refine Safe.perform (f := .ret) fun w' hrely hinv => ?_
  obtain ⟨hpre, hact⟩ := h w w' hholds hp hrely hinv (hholds.rely hin hrely)
  exact ⟨hpre, fun works r w'' hr => .ret (hact works r w'' hr)⟩

/-- One action that only looks. -/
theorem Kept.look {action : Action} {Q : Reply action → World → Prop}
    (hin : ∀ entry ∈ lent, entry.1 ∈ names)
    (hpre : ∀ w', Holds i names lent idleOpening w' → Pre i action w')
    (h : ∀ w w', Holds i names lent idleOpening w → P w → Rely i w w' → ∀ works r w'',
      handler i action works w' = some (r, w'') → w'' = w' ∧ Q r w') :
    Kept i names lent P (Databases.act action) Q := by
  refine .act hin fun w w' hholds hp hrely _ hholds' => ⟨hpre w' hholds', ?_⟩
  intro works r w'' hr
  obtain ⟨rfl, hq⟩ := h w w' hholds hp hrely works r w'' hr
  exact ⟨hholds', hq⟩

/-! ### The manager -/

theorem kept_bindPath (hin : ∀ entry ∈ lent, entry.1 ∈ names) {path : String} :
    Kept i names lent (fun _ => True) (bindPath name path)
      fun resolved w => Assoc.get w.paths name = some resolved := by
  refine .bind (Q := fun r w => ∀ resolved, r = .ok resolved →
    Assoc.get w.paths name = some resolved) (.act hin ?_) fun r => ?_
  · intro w w' _ _ _ _ hholds
    refine ⟨trivial, fun works r w'' hr => ?_⟩
    cases hget : Assoc.get w'.paths name with
    | none =>
      simp only [handler, hget] at hr
      obtain ⟨rfl, rfl⟩ := Prod.mk.inj (Option.some.inj hr)
      refine ⟨⟨hholds.depth, hholds.settled, hholds.lent⟩, fun resolved heq => ?_⟩
      obtain rfl := Except.ok.inj heq
      exact Assoc.get_set_self ..
    | some current =>
      simp only [handler, hget] at hr
      split at hr
      · next hcurrent =>
        obtain ⟨rfl, rfl⟩ := Prod.mk.inj (Option.some.inj hr)
        refine ⟨hholds, fun resolved heq => ?_⟩
        obtain rfl := Except.ok.inj heq
        rw [hget, hcurrent]
      · obtain ⟨rfl, rfl⟩ := Prod.mk.inj (Option.some.inj hr)
        refine ⟨hholds, fun resolved heq => ?_⟩
        cases heq
  · cases r with
    | ok resolved => exact .ret fun w hq => hq resolved rfl
    | error exn => exact .raise

theorem kept_getPath (hin : ∀ entry ∈ lent, entry.1 ∈ names) :
    Kept i names lent (fun _ => True) (getPath basePath name dbPath)
      fun path w => Assoc.get w.paths name = some path := by
  cases dbPath with
  | some path => exact kept_bindPath hin
  | none =>
    refine .bind (Q := fun r w => Assoc.get w.paths name = r)
      (.look hin (fun _ _ => trivial) ?_) fun r => ?_
    · intro w w' _ _ _ works r w'' hr
      obtain ⟨rfl, rfl⟩ := Prod.mk.inj (Option.some.inj hr)
      exact ⟨rfl, rfl⟩
    · cases r with
      | some current => exact .ret fun w hq => hq
      | none => exact (kept_bindPath hin).weaken (fun _ _ => trivial) fun _ _ hq => hq

/-- What a thread has after it released a lock. -/
theorem Holds.release {locks : Locks String} (h : Holds i (name :: names) lent opening w)
    (hlocks : w.locks.release i name = some locks) :
    Holds i names lent opening { w with locks := locks } where
  depth name' := by
    have hdepth := Locks.depth_release hlocks i name'
    rw [h.depth name', List.count_cons] at hdepth
    by_cases hname : name = name'
    · subst hname
      simp only [beq_self_eq_true, and_self, if_true] at hdepth
      exact Nat.add_right_cancel hdepth
    · simpa [hname] using hdepth
  settled name' hname' := h.settled name' (List.mem_cons_of_mem _ hname')
  lent := h.lent

theorem Holds.acquire {locks : Locks String} (h : Holds i names lent idleOpening w) (hinv : Inv w)
    (hlocks : w.locks.acquire i name = some locks) :
    Holds i (name :: names) lent idleOpening { w with locks := locks } where
  depth name' := by
    rw [Locks.depth_acquire hlocks i name', h.depth name', List.count_cons]
    by_cases hname : name = name' <;> simp [hname]
  settled name' hname' := by
    rcases List.mem_cons.mp hname' with rfl | hold
    · -- a connection that is being opened belongs to an owner of the lock
      by_contra hsome
      obtain ⟨n, hn⟩ := Option.ne_none_iff_exists'.mp hsome
      obtain ⟨-, -, -, j, hj⟩ := hinv.pending name' n hn
      obtain rfl := Locks.alone_of_acquire hlocks hj
      rw [h.depth name'] at hj
      exact hsome (h.settled name' (List.count_pos_iff.mp hj))
    · exact h.settled name' hold
  lent := h.lent

/-- What holds before a lock is released and, whatever the others do meanwhile, after it. -/
def Outlives (i : ℕ) (names : List String) (lent : List (String × ℕ)) (name : String)
    (Q Q' : α → World → Prop) : Prop :=
  ∀ a w w' locks, Holds i (name :: names) lent idleOpening w → Q a w → Rely i w w' →
    Q' a { w' with locks := locks }

theorem kept_withLock (hin : ∀ entry ∈ lent, entry.1 ∈ names)
    (hbody : Kept i (name :: names) lent P p Q)
    (hP : ∀ w w' locks, P w → Rely i w w' → P { w' with locks := locks })
    (hQ : Outlives i names lent name Q Q') : Kept i names lent P (withLock name p) Q' := by
  intro log w hholds hp
  have hin' : ∀ entry ∈ lent, entry.1 ∈ name :: names :=
    fun entry hentry => List.mem_cons_of_mem _ (hin entry hentry)
  have hrelease : ∀ w, Holds i (name :: names) lent idleOpening w → ∀ w', Rely i w w' → Inv w' →
      Pre i (.release name) w' ∧ ∀ works r w'', handler i (.release name) works w' = some (r, w'') →
        ∃ locks, Holds i names lent idleOpening { w' with locks := locks } ∧
          w'' = { w' with locks := locks } := by
    intro w hholds w' hrely _
    have hholds' := hholds.rely hin' hrely
    refine ⟨⟨hholds'.locked List.mem_cons_self, hholds'.settled name List.mem_cons_self⟩, ?_⟩
    intro works r w'' hr
    obtain ⟨locks, hlocks, heq⟩ := Option.map_eq_some_iff.mp hr
    obtain ⟨-, rfl⟩ := Prod.mk.inj heq
    exact ⟨locks, hholds'.release hlocks, rfl⟩
  refine .perform fun w' hrely hinv => ⟨trivial, fun works r w'' hr => ?_⟩
  obtain ⟨locks, hlocks, heq⟩ := Option.map_eq_some_iff.mp hr
  obtain ⟨-, rfl⟩ := Prod.mk.inj heq
  have hlocked := (hholds.rely hin hrely).acquire hinv hlocks
  refine .bind (.tryCatch ((hbody _ _ hlocked (hP w w' locks hp hrely)).mono ?_ ?_))
  · intro a log w hpost
    refine .perform fun w' hrely hinv => ?_
    obtain ⟨hpre, hact⟩ := hrelease w hpost.1 w' hrely hinv
    refine ⟨hpre, fun works r w'' hr => .ret ?_⟩
    obtain ⟨locks, hfree, rfl⟩ := hact works r w'' hr
    exact ⟨hfree, hQ a w w' locks hpost.1 hpost.2 hrely⟩
  · intro exn log w hfail
    refine .perform fun w' hrely hinv => ?_
    obtain ⟨hpre, hact⟩ := hrelease w hfail w' hrely hinv
    refine ⟨hpre, fun works r w'' hr => .raise ?_⟩
    obtain ⟨locks, hfree, rfl⟩ := hact works r w'' hr
    exact hfree

theorem kept_openConnection {path : String} (hin : ∀ entry ∈ lent, entry.1 ∈ names)
    (hname : name ∈ names) :
    Kept i names lent
      (fun w => Assoc.get w.connections name = none ∧ Assoc.get w.paths name = some path)
      (openConnection name path) fun n w => w.OpenedFor n name ∧ w.closedBy n = none := by
  intro log w hholds hp
  refine .perform fun w' hrely hinv => ?_
  have hholds' := hholds.rely hin hrely
  have hlock := hholds'.locked hname
  have hnone : Assoc.get w'.connections name = none :=
    (hrely.table name (hholds.locked hname)).1.trans hp.1
  refine ⟨⟨hlock, hnone, hholds'.settled name hname, hrely.paths name path hp.2⟩, ?_⟩
  intro works r w'' hr
  cases works with
  | false =>
    obtain ⟨rfl, rfl⟩ := Prod.mk.inj (Option.some.inj hr)
    exact .raise hholds'
  | true =>
    obtain ⟨rfl, rfl⟩ := Prod.mk.inj (Option.some.inj hr)
    -- the connection is open, and on its way into the table
    have hopening : Holds i names lent (Function.update idleOpening name (some w'.opened.length))
        (w'.connect name path) :=
      { depth := hholds'.depth
        settled := by
          intro name' hname'
          rcases eq_or_ne name' name with rfl | hne
          · simp only [World.connect, Function.update_self]
          · exact (Function.update_of_ne hne ..).trans
              ((hholds'.settled name' hname').trans (Function.update_of_ne hne ..).symm)
        lent := by
          intro entry hentry
          obtain ⟨hopened, hclosed⟩ := hholds'.lent entry hentry
          exact ⟨hopened.mono prefix_connect, hclosed⟩ }
    have hfresh : w'.closedBy w'.opened.length = none := hinv.fresh _ (Nat.le_refl _)
    refine .perform fun w₁ hrely₁ hinv₁ => ?_
    have hopening₁ := hopening.rely hin hrely₁
    have hpending : w₁.pending name = some w'.opened.length :=
      (hopening₁.settled name hname).trans (Function.update_self ..)
    refine ⟨⟨hopening₁.locked hname, hpending⟩, fun works r w₂ hr => .ret ?_⟩
    obtain ⟨-, rfl⟩ := Prod.mk.inj (Option.some.inj hr)
    refine ⟨⟨hopening₁.depth, fun name' hname' => ?_, hopening₁.lent⟩,
      openedFor_connect_self.mono hrely₁.opened, ?_⟩
    · rcases eq_or_ne name' name with rfl | hne
      · exact Function.update_self ..
      · exact (Function.update_of_ne hne ..).trans
          ((hopening₁.settled name' hname').trans (Function.update_of_ne hne ..))
    · exact (hrely₁.closedBy _ name openedFor_connect_self hlock).trans hfresh

/-- A connection is closed, or stays as it is. -/
theorem Holds.closeBy (h : Holds i names lent opening w) (n : ℕ) :
    Holds i names lent opening (w.closeBy i n) where
  depth := h.depth
  settled := h.settled
  lent entry hentry := by
    obtain ⟨hopened, hclosed⟩ := h.lent entry hentry
    refine ⟨hopened, ?_⟩
    rcases eq_or_ne entry.2 n with heq | hne
    · subst heq
      right
      refine (Function.update_self ..).trans ?_
      rcases hclosed with hopen | hmine
      · rw [hopen, Option.getD_none]
      · rw [hmine, Option.getD_some]
    · have hsame : (w.closeBy i n).closedBy entry.2 = w.closedBy entry.2 :=
        Function.update_of_ne hne ..
      rw [hsame]
      exact hclosed

theorem Holds.popConnection (h : Holds i names lent opening w) (n : ℕ) :
    Holds i names lent opening (w.popConnection name n) := by
  unfold World.popConnection
  split
  · exact ⟨h.depth, h.settled, h.lent⟩
  · exact h

/-- What a thread knows once it has looked for the connection. -/
def Found (name : String) (r : Option ℕ) (w : World) : Prop :=
  Assoc.get w.connections name = r ∧ ∀ n, r = some n → w.OpenedFor n name

theorem Found.rely {r : Option ℕ} (h : Found name r w) (hlock : 0 < w.locks.depth i name)
    (hrely : Rely i w w') : Found name r w' :=
  ⟨(hrely.table name hlock).1.trans h.1, fun n hn => (h.2 n hn).mono hrely.opened⟩

theorem kept_readConnection (hin : ∀ entry ∈ lent, entry.1 ∈ names) :
    Kept i names lent (fun _ => True) (act (.readConnection name)) (Found name) := by
  refine .act hin fun w w' _ _ _ hinv hholds => ⟨trivial, fun works r w'' hr => ⟨?_, ?_⟩⟩
  · obtain ⟨rfl, rfl⟩ := Prod.mk.inj (Option.some.inj hr)
    exact hholds
  · obtain ⟨rfl, rfl⟩ := Prod.mk.inj (Option.some.inj hr)
    exact ⟨rfl, fun n hn => hinv.cached name n hn⟩

/-- What a thread knows of a path stays so. -/
theorem paths_stable {path : String} (w w' : World) (locks : Locks String)
    (h : Assoc.get w.paths name = some path) (hrely : Rely i w w') :
    Assoc.get ({ w' with locks := locks } : World).paths name = some path :=
  hrely.paths name path h

/-- A connection that was found is closed and taken out of the table. -/
theorem kept_discard {path : String} (hin : ∀ entry ∈ lent, entry.1 ∈ names)
    (hname : name ∈ names) {f : DbProgram α}
    (hf : Kept i names lent
      (fun w => Assoc.get w.connections name = none ∧ Assoc.get w.paths name = some path) f Q) :
    Kept i names lent
      (fun w => Found name (some n) w ∧ Assoc.get w.paths name = some path)
      (do if ← act (.close name n) then do act (.pop name n); f else .raise .sqlite) Q := by
  refine .bind (Q := fun r w => Found name (some n) w ∧ Assoc.get w.paths name = some path ∧
    (r = true → w.closedBy n ≠ none)) (.act hin ?_) fun r => ?_
  · intro w w' hholds hp hrely hinv hholds'
    have hlock := hholds'.locked hname
    have hfound := hp.1.rely (hholds.locked hname) hrely
    have hpath := hrely.paths name path hp.2
    refine ⟨⟨hlock, hfound.2 n rfl, hholds'.settled name hname⟩, fun works r w'' hr => ?_⟩
    cases works with
    | true =>
      obtain ⟨rfl, rfl⟩ := Prod.mk.inj (Option.some.inj hr)
      refine ⟨hholds'.closeBy n, hfound, hpath, fun _ hnone => ?_⟩
      exact nomatch (Function.update_self n _ w'.closedBy).symm.trans hnone
    | false =>
      obtain ⟨rfl, rfl⟩ := Prod.mk.inj (Option.some.inj hr)
      exact ⟨hholds', hfound, hpath, fun h => nomatch h⟩
  · cases r with
    | false => exact .raise
    | true =>
      refine .bind (Q := fun _ w => Assoc.get w.connections name = none ∧
        Assoc.get w.paths name = some path) (.act hin ?_) fun _ => hf
      intro w w' hholds hp hrely hinv hholds'
      have hlock := hholds.locked hname
      have hfound := hp.1.rely hlock hrely
      have hclosed : w'.closedBy n ≠ none := by
        rw [hrely.closedBy n name (hp.1.2 n rfl) hlock]
        exact hp.2.2 rfl
      refine ⟨⟨hholds'.locked hname, hclosed⟩, fun works r w'' hr => ?_⟩
      obtain ⟨rfl, rfl⟩ := Prod.mk.inj (Option.some.inj hr)
      refine ⟨hholds'.popConnection n, ?_, ?_⟩
      · simp only [World.popConnection, if_pos hfound.1, Assoc.get_pop, if_true]
      · simpa only [World.popConnection, if_pos hfound.1] using hrely.paths name path hp.2.1

theorem kept_getConnection (hin : ∀ entry ∈ lent, entry.1 ∈ names) :
    Kept i names lent (fun _ => True) (getConnection basePath name dbPath)
      fun n w => w.OpenedFor n name ∧ (name ∈ names → w.closedBy n = none) := by
  have hin' : ∀ entry ∈ lent, entry.1 ∈ name :: names :=
    fun entry hentry => List.mem_cons_of_mem _ (hin entry hentry)
  have hname : name ∈ name :: names := List.mem_cons_self
  refine (kept_getPath hin).bind fun path => kept_withLock hin ?_ paths_stable
    (Q := fun n w => w.OpenedFor n name ∧ w.closedBy n = none) ?_
  · refine .bind (Q := fun r w => Found name r w ∧ Assoc.get w.paths name = some path)
      (.act hin' ?_) fun r => ?_
    · intro w w' _ hp hrely hinv hholds
      refine ⟨trivial, fun works r w'' hr => ?_⟩
      obtain ⟨rfl, rfl⟩ := Prod.mk.inj (Option.some.inj hr)
      exact ⟨hholds, ⟨rfl, fun n hn => hinv.cached name n hn⟩, hrely.paths name path hp⟩
    · cases r with
      | none =>
        exact (kept_openConnection hin' hname).weaken (fun w hp => ⟨hp.1.1, hp.2⟩)
          fun _ _ hq => hq
      | some n =>
        refine .bind (Q := fun r w => (Found name (some n) w ∧
          Assoc.get w.paths name = some path) ∧ (r = true → w.closedBy n = none))
          (.look hin' (fun _ _ => trivial) ?_) fun r => ?_
        · intro w w' hholds hp hrely works r w'' hr
          obtain ⟨rfl, rfl⟩ := Prod.mk.inj (Option.some.inj hr)
          refine ⟨rfl, ⟨hp.1.rely (hholds.locked hname) hrely, hrely.paths name path hp.2⟩, ?_⟩
          intro h
          exact Option.isNone_iff_eq_none.mp (Bool.and_eq_true_iff.mp h).2
        · cases r with
          | true => exact .ret fun w hq => ⟨hq.1.1.2 n rfl, hq.2 rfl⟩
          | false =>
            exact (kept_discard hin' hname (kept_openConnection hin' hname)).weaken
              (fun w hq => hq.1) fun _ _ hq => hq
  · intro n w w' locks hholds hq hrely
    refine ⟨hq.1.mono hrely.opened, fun _ => ?_⟩
    exact (hrely.closedBy n name hq.1 (hholds.locked hname)).trans hq.2

theorem Holds.forget {entry : String × ℕ} (h : Holds i names (entry :: lent) opening w) :
    Holds i names lent opening w :=
  ⟨h.depth, h.settled, fun other hother => h.lent other (List.mem_cons_of_mem _ hother)⟩

theorem outlives_true : Outlives i names lent name (fun (_ : α) _ => True) fun _ _ => True :=
  fun _ _ _ _ _ _ _ => trivial

theorem kept_lease {body : ℕ → DbProgram α} (hin : ∀ entry ∈ lent, entry.1 ∈ names)
    (hbody : ∀ n, Kept i (name :: names) ((name, n) :: lent) (fun _ => True) (body n)
      fun _ _ => True) :
    Kept i names lent (fun _ => True) (lease basePath name dbPath body) fun _ _ => True := by
  have hin' : ∀ entry ∈ lent, entry.1 ∈ name :: names :=
    fun entry hentry => List.mem_cons_of_mem _ (hin entry hentry)
  refine (kept_getPath hin).bind fun path =>
    kept_withLock hin (Q := fun _ _ => True) ?_ paths_stable outlives_true
  refine ((kept_getConnection hin').weaken (fun _ _ => trivial) fun _ _ hq => hq).bind fun n => ?_
  intro log w hholds hq
  have hlent : Holds i (name :: names) ((name, n) :: lent) idleOpening w := by
    refine ⟨hholds.depth, hholds.settled, fun entry hentry => ?_⟩
    rcases List.mem_cons.mp hentry with rfl | hentry
    · exact ⟨hq.1, .inl (hq.2 List.mem_cons_self)⟩
    · exact hholds.lent entry hentry
  exact (hbody n log w hlent trivial).mono (fun _ _ _ hpost => ⟨hpost.1.forget, trivial⟩)
    fun _ _ _ hfail => hfail.forget

theorem kept_close (hin : ∀ entry ∈ lent, entry.1 ∈ names) :
    Kept i names lent (fun _ => True) (close name) fun _ _ => True := by
  have hin' : ∀ entry ∈ lent, entry.1 ∈ name :: names :=
    fun entry hentry => List.mem_cons_of_mem _ (hin entry hentry)
  have hname : name ∈ name :: names := List.mem_cons_self
  refine kept_withLock hin (Q := fun _ _ => True) ?_ (fun _ _ _ _ _ => trivial) outlives_true
  refine (kept_readConnection hin').bind fun r => ?_
  cases r with
  | none => exact .ret fun _ _ => trivial
  | some n =>
    refine .bind (Q := fun r w => Found name (some n) w ∧ (r = true → w.closedBy n ≠ none))
      (.act hin' ?_) fun r => ?_
    · intro w w' hholds hp hrely hinv hholds'
      have hfound := hp.rely (hholds.locked hname) hrely
      refine ⟨⟨hholds'.locked hname, hfound.2 n rfl, hholds'.settled name hname⟩, ?_⟩
      intro works r w'' hr
      cases works with
      | true =>
        obtain ⟨rfl, rfl⟩ := Prod.mk.inj (Option.some.inj hr)
        refine ⟨hholds'.closeBy n, hfound, fun _ hnone => ?_⟩
        exact nomatch (Function.update_self n _ w'.closedBy).symm.trans hnone
      | false =>
        obtain ⟨rfl, rfl⟩ := Prod.mk.inj (Option.some.inj hr)
        exact ⟨hholds', hfound, fun h => nomatch h⟩
    · cases r with
      | false => exact .raise
      | true =>
        refine .act hin' fun w w' hholds hp hrely hinv hholds' => ⟨⟨hholds'.locked hname, ?_⟩, ?_⟩
        · rw [hrely.closedBy n name (hp.1.2 n rfl) (hholds.locked hname)]
          exact hp.2 rfl
        · intro works r w'' hr
          obtain ⟨rfl, rfl⟩ := Prod.mk.inj (Option.some.inj hr)
          exact ⟨hholds'.popConnection n, trivial⟩

theorem kept_closeEach (hin : ∀ entry ∈ lent, entry.1 ∈ names) (all : List String)
    (failures : ℕ) :
    Kept i names lent (fun _ => True) (closeEach all failures) fun _ _ => True := by
  induction all generalizing failures with
  | nil => exact .ret fun _ _ => trivial
  | cons name all ih =>
    refine .bind (Q := fun _ _ => True) (.tryCatch ((kept_close hin).bind fun _ => ?_) fun _ => ?_)
      fun closed => ih _
    · exact .ret fun _ _ => trivial
    · exact .ret fun _ _ => trivial

theorem kept_readNames (hin : ∀ entry ∈ lent, entry.1 ∈ names) :
    Kept i names lent (fun _ => True) (act .readNames) fun _ _ => True := by
  refine .look hin (fun _ _ => trivial) fun w w' _ _ _ works r w'' hr => ?_
  obtain ⟨-, rfl⟩ := Prod.mk.inj (Option.some.inj hr)
  exact ⟨rfl, trivial⟩

theorem kept_closeAll (hin : ∀ entry ∈ lent, entry.1 ∈ names) :
    Kept i names lent (fun _ => True) closeAll fun _ _ => True := by
  refine (kept_readNames hin).bind fun looked => (kept_closeEach hin _ 0).bind fun failures => ?_
  split
  · exact .ret fun _ _ => trivial
  · exact .raise

theorem kept_healthCheck (hin : ∀ entry ∈ lent, entry.1 ∈ names) :
    Kept i names lent (fun _ => True) (healthCheck name) fun _ _ => True := by
  have hin' : ∀ entry ∈ lent, entry.1 ∈ name :: names :=
    fun entry hentry => List.mem_cons_of_mem _ (hin entry hentry)
  refine (kept_readConnection hin).bind fun r => ?_
  cases r with
  | none => exact .ret fun _ _ => trivial
  | some n =>
    -- the look is over, so the connection may be gone by now
    have hprobe : Kept i (name :: names) lent (fun _ => True) (act (.probe n)) fun _ _ => True := by
      refine .look hin' (fun _ _ => trivial) fun w w' _ _ _ works r w'' hr => ?_
      obtain ⟨-, rfl⟩ := Prod.mk.inj (Option.some.inj hr)
      exact ⟨rfl, trivial⟩
    exact (kept_withLock hin hprobe (fun _ _ _ _ _ => trivial) outlives_true).weaken
      (fun _ _ => trivial) fun _ _ hq => hq

theorem kept_checkEach (hin : ∀ entry ∈ lent, entry.1 ∈ names) (all : List String)
    (failures : ℕ) :
    Kept i names lent (fun _ => True) (checkEach all failures) fun _ _ => True := by
  induction all generalizing failures with
  | nil => exact .ret fun _ _ => trivial
  | cons name all ih =>
    refine (kept_healthCheck hin).bind fun healthy => ?_
    cases healthy with
    | true => exact ih _
    | false => exact ih _

theorem kept_health (hin : ∀ entry ∈ lent, entry.1 ∈ names) :
    Kept i names lent (fun _ => True) health fun _ _ => True := by
  refine (kept_readNames hin).bind fun looked => ?_
  obtain ⟨all, everOpened⟩ := looked
  dsimp only
  split
  · exact .ret fun _ _ => trivial
  · exact (kept_checkEach hin all 0).bind fun _ => .ret fun _ _ => trivial

/-- A statement in the body of a lease. -/
theorem kept_execute {n : ℕ} (hin : ∀ entry ∈ lent, entry.1 ∈ names) (hmem : (name, n) ∈ lent) :
    Kept i names lent (fun _ => True) (act (.execute name n)) fun _ _ => True := by
  refine .look hin (fun w' hholds => ?_) fun w w' _ _ _ works r w'' hr => ?_
  · have hname : name ∈ names := hin _ hmem
    exact ⟨hholds.locked hname, hholds.settled name hname, hholds.lent _ hmem⟩
  · obtain ⟨-, rfl⟩ := Prod.mk.inj (Option.some.inj hr)
    exact ⟨rfl, trivial⟩

/-- **Every client keeps the protocol**, whatever it does with the manager. -/
theorem kept_program (client : Client) (hin : ∀ entry ∈ lent, entry.1 ∈ names) :
    Kept i names lent (fun _ => True) (client.program basePath lent) fun _ _ => True := by
  induction client generalizing names lent with
  | finish => exact .ret fun _ _ => trivial
  | raises => exact .raise
  | executes k next ih =>
    rw [Client.program]
    split
    · exact .raise
    · next name n hentry =>
      exact (kept_execute hin (List.mem_of_getElem? hentry)).bind fun done => ih done hin
  | leases name dbPath body next ihBody ihNext =>
    refine (kept_lease hin fun n => ihBody fun entry hentry => ?_).bind fun _ => ihNext hin
    rcases List.mem_cons.mp hentry with rfl | hentry
    · exact List.mem_cons_self
    · exact List.mem_cons_of_mem _ (hin entry hentry)
  | borrows name dbPath next ih =>
    exact (kept_getConnection hin).bind fun _ =>
      (ih hin).weaken (fun _ _ => trivial) fun _ _ hq => hq
  | closes name next ih => exact (kept_close hin).bind fun _ => ih hin
  | closesAll next ih => exact (kept_closeAll hin).bind fun _ => ih hin
  | checks name next ih => exact (kept_healthCheck hin).bind fun healthy => ih healthy hin
  | reports next ih => exact (kept_health hin).bind fun report => ih report hin
  | catches body next ihBody ihNext =>
    refine .bind (Q := fun _ _ => True) (.tryCatch ((ihBody hin).bind fun _ => ?_) fun _ => ?_)
      fun raised => ihNext raised hin
    · exact .ret fun _ _ => trivial
    · exact .ret fun _ _ => trivial

end Threads

/-! ## The law -/

/-- A thread that has ended has no lock. -/
def Freed (i : ℕ) (w : World) : Prop := ∀ name, w.locks.depth i name = 0

theorem client_safe (basePath : String) (client : Client) (hfree : Freed i w) :
    Safe protocol handler pre i (fun _ _ w => Freed i w) (fun _ _ w => Freed i w)
      (client.start basePath) [] w := by
  have hholds : Holds i [] [] idleOpening w := by
    refine ⟨hfree, fun name hname => ?_, fun entry hentry => ?_⟩
    · cases hname
    · cases hentry
  have hkept : Kept i [] [] (fun _ => True) (client.program basePath []) fun _ _ => True :=
    kept_program client fun _ h => nomatch h
  exact (hkept [] w hholds trivial).mono
    (fun _ _ _ hpost name => hpost.1.depth name) fun _ _ _ hfail name =>
    hfail.depth name

theorem freshRules (basePath : String) :
    FreshRules protocol handler pre (fun i (_ : Unit) _ w => Freed i w)
      (fun i (_ : Exn) _ w => Freed i w) Freed (Client.start basePath) where
  sound := sound
  start _ client _ _ hfree := client_safe basePath client hfree
  fresh _ _ _ hrely hfree name := (hrely.depth name).trans (hfree name)
  post _ _ _ _ _ hrely hfree name := (hrely.depth name).trans (hfree name)
  fail _ _ _ _ _ hrely hfree name := (hrely.depth name).trans (hfree name)

/-- The connection is the one the manager keeps for the name, and open. -/
def World.Current (w : World) (name : String) (n : ℕ) : Prop :=
  Assoc.get w.connections name = some n ∧ w.closedBy n = none

/-- **The law of leases.** -/
structure LeaseLaw (c : Threads) : Prop where
  /-- A database has one open connection at most. -/
  single : ∀ name m n, c.world.OpenedFor m name → c.world.closedBy m = none →
    c.world.OpenedFor n name → c.world.closedBy n = none → m = n
  /-- All of its connections were opened at one path. -/
  bound : ∀ (n : ℕ) name path, c.world.opened[n]? = some (name, path) →
    Assoc.get c.world.paths name = some path
  /-- A thread that executes a statement in a lease has the lock, and the connection it was lent is
  the current one, unless the thread itself has closed it. -/
  lent : ∀ (i : ℕ) client log name n next,
    c.calls[i]? = some ⟨client, log, .await (.execute name n) next⟩ →
      0 < c.world.locks.depth i name ∧ c.world.OpenedFor n name ∧
        (c.world.Current name n ∨ c.world.closedBy n = some i)
  /-- A lock that is not free belongs to one thread, which has not ended. -/
  owned : ∀ j name, 0 < c.world.locks.depth j name →
    (∃ client log action next, c.calls[j]? = some ⟨client, log, .await action next⟩) ∧
      ∀ i, 0 < c.world.locks.depth i name → i = j

theorem Inv.single (h : Inv w) {m : ℕ} (hm : w.OpenedFor m name) (hmopen : w.closedBy m = none)
    (hn : w.OpenedFor n name) (hnopen : w.closedBy n = none) : m = n := by
  rcases h.known name m hm hmopen with hmc | hmp <;> rcases h.known name n hn hnopen with hnc | hnp
  · exact Option.some.inj (hmc.symm.trans hnc)
  · exact nomatch (h.pending name n hnp).2.2.1.symm.trans hmc
  · exact nomatch (h.pending name m hmp).2.2.1.symm.trans hnc
  · exact Option.some.inj (hmp.symm.trans hnp)

/-- **Leases are safe**: in every interleaving of any threads, whatever they lease, borrow, close
and check, and whatever fails, the connection of a lease stays the one open connection of its
database, until its own thread closes it; and no lock outlives its thread. -/
theorem lease_law {basePath : String} {c : Threads} (h : Reachable basePath c) : LeaseLaw c := by
  have hsafe : FreshSafe protocol handler pre (fun i (_ : Unit) _ w => Freed i w)
      (fun i (_ : Exn) _ w => Freed i w) Freed c :=
    (FreshSafe.idle Inv.initial fun _ _ => rfl).reaches (freshRules basePath) h
  have hinv : Inv c.world := hsafe.inv
  refine ⟨fun name m n hm hmopen hn hnopen => hinv.single hm hmopen hn hnopen, hinv.bound, ?_, ?_⟩
  · intro i client log name n next hi
    obtain ⟨hlock, hsettled, hopened, hclosed⟩ := ((hsafe.safe i client log _ hi).act hinv).1
    refine ⟨hlock, hopened, hclosed.imp_left fun hopen => ⟨?_, hopen⟩⟩
    exact (hinv.known name n hopened hopen).resolve_right fun hn =>
      nomatch hsettled.symm.trans hn
  · intro j name hlock
    refine ⟨?_, fun i hi => Locks.exclusive hi hlock⟩
    have hnotFreed : ¬ Freed j c.world := fun hfree => absurd (hfree name) (Nat.ne_of_gt hlock)
    cases hj : c.calls[j]? with
    | none => exact absurd (hsafe.fresh j (List.getElem?_eq_none_iff.mp hj)) hnotFreed
    | some call =>
      obtain ⟨client, log, p⟩ := call
      cases p with
      | ret a => exact absurd (hsafe.safe j client log _ hj).of_ret hnotFreed
      | raise exn => exact absurd (hsafe.safe j client log _ hj).of_raise hnotFreed
      | await action next => exact ⟨client, log, action, next, rfl⟩

namespace Scenario

/-- Two threads: one vacuums a database, the other one closes it. -/
def vacuuming : List (Event Client Bool) :=
  [.arrive (vacuum "tasks" .finish), .arrive (.closes "tasks" .finish)] ++
    List.replicate 9 (.act 0 true)

def after (events : List (Event Client Bool)) : Threads :=
  (run handler (Client.start "data") (idle {}) events).getD (idle {})

theorem reachable (events : List (Event Client Bool)) : Reachable "data" (after events) := by
  unfold after
  cases h : run handler (Client.start "data") (idle {}) events with
  | none => exact .refl _
  | some c => exact ⟨_, h⟩

end Scenario

/-- In the lease of the first thread the second one waits. -/
theorem lease_law_vacuuming :
    ((Scenario.after Scenario.vacuuming).world.locks "tasks" = some (0, 0) ∧
      Assoc.get (Scenario.after Scenario.vacuuming).world.connections "tasks" = some 0 ∧
      (step handler (Client.start "data") (Scenario.after Scenario.vacuuming)
        (.act 1 true)).isNone = true) ∧ LeaseLaw (Scenario.after Scenario.vacuuming) :=
  ⟨by decide +kernel, lease_law (Scenario.reachable _)⟩

end Databases
