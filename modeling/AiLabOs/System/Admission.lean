import AiLabOs.Base.Failure
import AiLabOs.System.Container
import Mathlib.Data.List.Perm.Basic

/-!
# System: admission of work

Any tree of asyncio tasks and callbacks over one gate. Each has a context of its own, which is a
copy of the one it was created in, and in it the accepted scope: the task that owns it, if any. The
blocks of `admit` a task is in may end in any order. A task that `spawn_accepted_task` has started
is in a scope of its own until it is over.

## Main definitions

* `ensureAcceptingWork`, `admitTask`, `exitScope`, `createTask`, `spawnAcceptedTask`: the gate
* `World.Inside`, `World.Continuation`: who is in an accepted scope
* `Reachable`: what events lead to

## Main results

* `World.owns_iff`: who owns the scope of his context
* `admission_sound`
-/

namespace Admission

open Containers (SystemLifecycleState)

/-! ## The gate -/

/-- What a call of the gate raises. -/
inductive Exn where
  | failure (info : FailureInfo)
  | runtimeError (message : String)
deriving DecidableEq, Repr

/-- A block a task is in: an outer `admit`, with the value it restores, a nested one, or the whole
of a task that was spawned, with the value it restores. -/
inductive Frame where
  | outer (token : Option ℕ)
  | nested
  | continuation (token : Option ℕ)
deriving DecidableEq, Repr

/-- The value the end of a block restores. -/
def Frame.token : Frame → Option (Option ℕ)
  | .outer token => some token
  | .nested => none
  | .continuation token => some token

/-- Where a task comes from: a fresh context, a copy of another one, or `spawn_accepted_task` in a
task that was in an outer `admit` or not. -/
inductive Origin where
  | root
  | plain (parent : ℕ)
  | spawned (parent : ℕ) (inside : Bool)
deriving DecidableEq, Repr

/-- Whether the code of a task has begun to run, or is over. -/
inductive Phase where
  | pending
  | running
  | over
deriving DecidableEq, Repr

/-- A task, or a callback, which is none: its context, and the blocks it is in. -/
structure Actor where
  isTask : Bool
  scope : Option ℕ
  frames : List Frame
  origin : Origin
  phase : Phase
deriving DecidableEq, Repr

/-- The lifecycle, and the tasks and callbacks in order of their creation. -/
structure World where
  state : SystemLifecycleState
  actors : List Actor
deriving DecidableEq, Repr

/-- A lifecycle that is created, and no tasks. -/
def World.initial : World := ⟨.created, []⟩

/-- `_owns_current_scope`, called by `i`. -/
def World.owns (w : World) (i : ℕ) : Bool :=
  w.actors[i]?.any fun a => a.isTask && a.scope = some i

/-- The code of a rejection. -/
def rejectionCode : SystemLifecycleState → String
  | .created => "system.not_ready"
  | .starting => "system.not_ready"
  | .draining => "system.draining"
  | .stopped => "system.stopped"
  | .failed => "system.failed"
  | .ready => "system.not_ready"

/-- `_check_lifecycle`. -/
def World.checkLifecycle (w : World) : Except Exn Unit :=
  if w.state = .ready then .ok ()
  else .error (.failure {
    code := rejectionCode w.state
    category := .unavailable
    message := "AI-Lab system is not accepting new work"
    component := "system.lifecycle"
    operation := "admit_request"
    retryable := true })

/-- `ensure_accepting_work`, called by `i`. -/
def ensureAcceptingWork (w : World) (i : ℕ) : Except Exn Unit :=
  if w.owns i then .ok () else w.checkLifecycle

/-- The world with one task changed. -/
def World.set (w : World) (i : ℕ) (a : Actor) : World := { w with actors := w.actors.set i a }

/-- The beginning of `admit`, called by `i`. -/
def admitTask (w : World) (i : ℕ) (a : Actor) : Except Exn World :=
  if w.owns i then .ok (w.set i { a with frames := .nested :: a.frames })
  else match w.checkLifecycle with
    | .error exn => .error exn
    | .ok () =>
      if a.isTask then
        .ok (w.set i { a with scope := some i, frames := .outer a.scope :: a.frames })
      else .error (.runtimeError "Work admission requires a running asyncio task")

/-- The end of a block of `i`, normal, by an exception or by a cancellation. A task that was spawned
is over with its own block. -/
def exitScope (w : World) (i : ℕ) (a : Actor) (k : ℕ) (frame : Frame) : World :=
  w.set i { a with
    scope := frame.token.getD a.scope
    frames := a.frames.eraseIdx k
    phase := match frame with
      | .continuation _ => .over
      | _ => a.phase }

/-- `asyncio.create_task`, or a callback that is scheduled: the context is copied. -/
def createTask (w : World) (i : ℕ) (a : Actor) (isTask : Bool) : World :=
  { w with actors := w.actors ++ [⟨isTask, a.scope, [], .plain i, .running⟩] }

/-- `i` is in a block of an outer `admit`. -/
def Actor.inside (a : Actor) : Bool :=
  a.frames.any fun frame => match frame with
    | .outer _ => true
    | _ => false

/-- `spawn_accepted_task`, called by `i`. -/
def spawnAcceptedTask (w : World) (i : ℕ) (a : Actor) : Except Exn World :=
  if w.owns i then
    .ok { w with actors := w.actors ++ [⟨true, a.scope, [], .spawned i a.inside, .pending⟩] }
  else .error (.runtimeError "Accepted task spawning requires an active work scope")

/-- The beginning of `run_in_accepted_scope`. -/
def beginAccepted (w : World) (i : ℕ) (a : Actor) : World :=
  w.set i { a with scope := some i, frames := [.continuation a.scope], phase := .running }

/-! ## Runs -/

/-- One thing that happens. -/
inductive Event where
  | lifecycle (target : SystemLifecycleState)
  /-- A task or callback in a fresh context. -/
  | root (isTask : Bool)
  | ensure (i : ℕ)
  | admitTask (i : ℕ)
  | exit (i k : ℕ)
  | create (i : ℕ) (isTask : Bool)
  | spawn (i : ℕ)
  | start (i : ℕ)
deriving DecidableEq, Repr

/-- The task that acts, if its code runs. -/
def World.acting (w : World) (i : ℕ) : Option Actor :=
  w.actors[i]?.filter fun a => a.phase = .running

/-- The world after a call, which raises in the world it was made in. -/
def World.orSame (w : World) : Except Exn World → World
  | .ok w' => w'
  | .error _ => w

/-- One event, if it can happen. -/
def step (w : World) : Event → Option World
  | .lifecycle target => some { w with state := Containers.tryTransition w.state target }
  | .root isTask => some { w with actors := w.actors ++ [⟨isTask, none, [], .root, .running⟩] }
  | .ensure i => (w.acting i).map fun _ => w
  | .admitTask i => (w.acting i).map fun a => w.orSame (admitTask w i a)
  | .exit i k => (w.acting i).bind fun a => a.frames[k]?.map fun frame => exitScope w i a k frame
  | .create i isTask => (w.acting i).map fun a => createTask w i a isTask
  | .spawn i => (w.acting i).map fun a => w.orSame (spawnAcceptedTask w i a)
  | .start i =>
    match w.actors[i]? with
    | some a => if a.phase = .pending then some (beginAccepted w i a) else none
    | none => none

/-- What events lead to. -/
def run (w : World) : List Event → Option World
  | [] => some w
  | ev :: evs => (step w ev).bind fun w' => run w' evs

/-- A world some events lead to. -/
def Reachable (w : World) : Prop := ∃ evs, run .initial evs = some w

/-- **The run rule.** -/
theorem Reachable.induction {motive : World → Prop} {w : World} (h : Reachable w)
    (hinit : motive .initial) (hstep : ∀ w ev w', motive w → step w ev = some w' → motive w') :
    motive w := by
  obtain ⟨evs, hevs⟩ := h
  have hrun : ∀ evs w₀, motive w₀ → run w₀ evs = some w → motive w := by
    intro evs
    induction evs with
    | nil => exact fun w₀ h₀ h => Option.some.inj h ▸ h₀
    | cons ev evs ih =>
      intro w₀ h₀ h
      obtain ⟨w₁, hw₁, hrest⟩ := Option.bind_eq_some_iff.mp h
      exact ih w₁ (hstep w₀ ev w₁ h₀ hw₁) hrest
  exact hrun evs .initial hinit hevs

/-! ## Who is in an accepted scope -/

/-- The task is in a block of an outer `admit`. -/
def World.Inside (w : World) (i : ℕ) : Prop := ∃ a, w.actors[i]? = some a ∧ a.inside = true

/-- **Accepted work goes on in the task**: it was spawned by a task that was in a block of an outer
`admit`, or in which accepted work went on. -/
inductive World.Continuation (w : World) : ℕ → Prop
  | direct {i p : ℕ} {a : Actor} (ha : w.actors[i]? = some a) (ho : a.origin = .spawned p true) :
    w.Continuation i
  | further {i p : ℕ} {a : Actor} {inside : Bool} (ha : w.actors[i]? = some a)
    (ho : a.origin = .spawned p inside) (hp : w.Continuation p) : w.Continuation i

/-- A block in which the task owns the scope of its context. -/
def Frame.holds (frame : Frame) : Bool := frame.token.isSome

@[simp] theorem Frame.holds_outer (token : Option ℕ) : (Frame.outer token).holds = true := rfl

@[simp] theorem Frame.holds_nested : Frame.nested.holds = false := rfl

@[simp] theorem Frame.holds_continuation (token : Option ℕ) :
    (Frame.continuation token).holds = true := rfl

/-- **What holds of a task**: it owns its scope just while it is in a block that holds it, which
there is one of at most, and whose end gives it up. -/
structure Actor.Sound (i : ℕ) (a : Actor) : Prop where
  owned : a.scope = some i ↔ a.frames.countP Frame.holds = 1
  once : a.frames.countP Frame.holds ≤ 1
  token : ∀ frame ∈ a.frames, frame.token ≠ some (some i)
  task : a.isTask = false → a.frames = []
  pending : a.phase = .pending →
    a.frames = [] ∧ a.isTask = true ∧ ∃ p inside, a.origin = .spawned p inside
  continuation : ∀ token, .continuation token ∈ a.frames → ∃ p inside, a.origin = .spawned p inside

/-- The context of the task names the owner `p`, now or once a block has ended. -/
def Actor.Names (a : Actor) (p : ℕ) : Prop :=
  a.scope = some p ∨ ∃ frame ∈ a.frames, frame.token = some (some p)

/-- What holds of a world. -/
structure Inv (w : World) : Prop where
  sound : ∀ (i : ℕ) (a : Actor), w.actors[i]? = some a → a.Sound i
  older : ∀ (i : ℕ) (a : Actor) p, w.actors[i]? = some a → a.Names p → p < w.actors.length
  spawned : ∀ (i : ℕ) (a : Actor) p inside,
    w.actors[i]? = some a → a.origin = .spawned p inside → w.Continuation i

/-- The tasks stay where they come from. -/
def Kept (w w' : World) : Prop :=
  ∀ (i : ℕ) (a : Actor), w.actors[i]? = some a →
    ∃ a', w'.actors[i]? = some a' ∧ a'.origin = a.origin

theorem World.Continuation.kept {w w' : World} (hkept : Kept w w') {i : ℕ}
    (h : w.Continuation i) : w'.Continuation i := by
  induction h with
  | direct ha ho =>
    obtain ⟨a', ha', ho'⟩ := hkept _ _ ha
    exact .direct ha' (ho'.trans ho)
  | further ha ho _ ih =>
    obtain ⟨a', ha', ho'⟩ := hkept _ _ ha
    exact .further ha' (ho'.trans ho) ih

section Steps

variable {w : World} {i : ℕ} {a a' : Actor}

theorem kept_set (ha : w.actors[i]? = some a) (ho : a'.origin = a.origin) :
    Kept w (w.set i a') := by
  intro j b hb
  have hlt := (List.getElem?_eq_some_iff.mp ha).1
  by_cases hij : i = j
  · subst hij
    obtain rfl : a = b := Option.some.inj (ha.symm.trans hb)
    exact ⟨a', List.getElem?_set_self hlt, ho⟩
  · exact ⟨b, (List.getElem?_set_ne hij).trans hb, rfl⟩

theorem kept_append (w : World) (a : Actor) : Kept w { w with actors := w.actors ++ [a] } := by
  intro j b hb
  have hlt := (List.getElem?_eq_some_iff.mp hb).1
  exact ⟨b, (List.getElem?_append_left hlt).trans hb, rfl⟩

/-- A task that changes soundly. -/
theorem Inv.set (h : Inv w) (ha : w.actors[i]? = some a) (ho : a'.origin = a.origin)
    (hsound : a'.Sound i) (hscope : ∀ p, a'.Names p → p < w.actors.length) :
    Inv (w.set i a') := by
  have hlt := (List.getElem?_eq_some_iff.mp ha).1
  have hcases : ∀ (j : ℕ) (b : Actor), (w.set i a').actors[j]? = some b →
      (j = i ∧ b = a') ∨ w.actors[j]? = some b := by
    intro j b hb
    by_cases hij : i = j
    · subst hij
      exact .inl ⟨rfl, (Option.some.inj ((List.getElem?_set_self hlt).symm.trans hb)).symm⟩
    · exact .inr ((List.getElem?_set_ne hij).symm.trans hb)
  refine ⟨fun j b hb => ?_, fun j b p hb hp => ?_, fun j b p inside hb hp => ?_⟩
  · rcases hcases j b hb with ⟨rfl, rfl⟩ | hb
    · exact hsound
    · exact h.sound j b hb
  · show p < (w.actors.set i a').length
    rw [List.length_set]
    rcases hcases j b hb with ⟨rfl, rfl⟩ | hb
    · exact hscope p hp
    · exact h.older j b p hb hp
  · refine World.Continuation.kept (kept_set ha ho) ?_
    rcases hcases j b hb with ⟨rfl, rfl⟩ | hb
    · exact h.spawned j a p inside ha (ho.symm.trans hp)
    · exact h.spawned j b p inside hb hp

/-- A task that is created. -/
theorem Inv.append (h : Inv w) (hsound : a.Sound w.actors.length)
    (hscope : ∀ p, a.Names p → p < w.actors.length)
    (hspawned : ∀ p inside, a.origin = .spawned p inside → inside = true ∨ w.Continuation p) :
    Inv { w with actors := w.actors ++ [a] } := by
  have hnew : (w.actors ++ [a])[w.actors.length]? = some a := by simp
  have hcases : ∀ (j : ℕ) (b : Actor), (w.actors ++ [a])[j]? = some b →
      (j = w.actors.length ∧ b = a) ∨ w.actors[j]? = some b := by
    intro j b hb
    rw [List.getElem?_append] at hb
    split at hb
    · exact .inr hb
    · rw [List.getElem?_singleton] at hb
      split at hb
      · exact .inl ⟨by omega, (Option.some.inj hb).symm⟩
      · cases hb
  have hlength : (w.actors ++ [a]).length = w.actors.length + 1 := by simp
  refine ⟨fun j b hb => ?_, fun j b p hb hp => ?_, fun j b p inside hb hp => ?_⟩
  · rcases hcases j b hb with ⟨rfl, rfl⟩ | hb
    · exact hsound
    · exact h.sound j b hb
  · show p < (w.actors ++ [a]).length
    rw [hlength]
    rcases hcases j b hb with ⟨rfl, rfl⟩ | hb
    · exact Nat.lt_succ_of_lt (hscope p hp)
    · exact Nat.lt_succ_of_lt (h.older j b p hb hp)
  · rcases hcases j b hb with ⟨rfl, rfl⟩ | hb
    · rcases hspawned p inside hp with rfl | hp'
      · exact .direct hnew hp
      · exact .further hnew hp (hp'.kept (kept_append w b))
    · exact (h.spawned j b p inside hb hp).kept (kept_append w a)

theorem World.owns_iff (h : Inv w) (ha : w.actors[i]? = some a) :
    w.owns i = true ↔ a.scope = some i := by
  simp only [World.owns, ha, Option.any_some, Bool.and_eq_true, decide_eq_true_eq]
  refine ⟨fun hown => hown.2, fun hscope => ⟨?_, hscope⟩⟩
  -- a callback is in no block
  by_contra hno
  have hcount := (h.sound i a ha).owned.mp hscope
  rw [(h.sound i a ha).task (by simpa using hno)] at hcount
  cases hcount

theorem World.acting_some (h : w.acting i = some a) :
    w.actors[i]? = some a ∧ a.phase = .running := by
  simpa [World.acting, Option.filter_eq_some_iff] using h

/-- A block of an outer `admit` is begun by a task that does not own its scope. -/
theorem Inv.admitTask (h : Inv w) (ha : w.actors[i]? = some a) (hrunning : a.phase = .running) :
    Inv (w.orSame (admitTask w i a)) := by
  have hs := h.sound i a ha
  unfold Admission.admitTask
  split
  · -- a nested block changes nothing
    rename_i hown
    have hscope := (World.owns_iff h ha).mp hown
    refine h.set ha rfl ⟨?_, ?_, ?_, ?_, ?_, ?_⟩ fun p hp => h.older i a p ha ?_
    · simpa using hs.owned
    · simpa using hs.once
    · intro frame hframe
      rcases List.mem_cons.mp hframe with rfl | hframe
      · nofun
      · exact hs.token frame hframe
    · intro htask
      have hcount := hs.owned.mp hscope
      rw [hs.task htask] at hcount
      cases hcount
    · exact fun hpending => nomatch hrunning.symm.trans hpending
    · intro token htoken
      exact hs.continuation token (by simpa using htoken)
    · simpa [Actor.Names, Frame.token] using hp
  · rename_i hown
    have hscope : a.scope ≠ some i := fun hscope => hown ((World.owns_iff h ha).mpr hscope)
    have hnone : a.frames.countP Frame.holds = 0 := by
      have hne : a.frames.countP Frame.holds ≠ 1 := fun hcount => hscope (hs.owned.mpr hcount)
      have hle := hs.once
      omega
    split
    · exact h
    · split
      · rename_i htask
        refine h.set ha rfl ⟨?_, ?_, ?_, ?_, ?_, ?_⟩ fun p hp => ?_
        · simp [List.countP_cons, hnone]
        · simp [List.countP_cons, hnone]
        · intro frame hframe
          rcases List.mem_cons.mp hframe with rfl | hframe
          · simpa [Frame.token] using hscope
          · exact hs.token frame hframe
        · exact fun hno => absurd htask (by simp [show a.isTask = false from hno])
        · exact fun hpending => nomatch hrunning.symm.trans hpending
        · intro token htoken
          exact hs.continuation token (by simpa using htoken)
        · rcases hp with hp | ⟨frame, hframe, htoken⟩
          · obtain rfl : i = p := Option.some.inj hp
            exact (List.getElem?_eq_some_iff.mp ha).1
          · rcases List.mem_cons.mp hframe with rfl | hframe
            · exact h.older i a p ha (.inl (Option.some.inj htoken))
            · exact h.older i a p ha (.inr ⟨frame, hframe, htoken⟩)
      · exact h

/-- A block ends, and gives up the scope if it held it. -/
theorem Inv.exitScope (h : Inv w) (ha : w.actors[i]? = some a) (hrunning : a.phase = .running)
    {k : ℕ} {frame : Frame} (hframe : a.frames[k]? = some frame) :
    Inv (exitScope w i a k frame) := by
  have hs := h.sound i a ha
  obtain ⟨hk, hget⟩ := List.getElem?_eq_some_iff.mp hframe
  have hperm : (frame :: a.frames.eraseIdx k).Perm a.frames :=
    hget ▸ List.getElem_cons_eraseIdx_perm hk
  have hmem : ∀ other ∈ a.frames.eraseIdx k, other ∈ a.frames := fun other hother =>
    List.mem_of_mem_eraseIdx hother
  have hcount := hperm.countP_eq Frame.holds
  rw [List.countP_cons] at hcount
  have htask : a.isTask = false → a.frames.eraseIdx k = [] := by
    intro hno
    rw [hs.task hno]
    rfl
  have hover : (match frame with | .continuation _ => Phase.over | _ => a.phase) ≠ .pending := by
    split
    · nofun
    · rw [hrunning]
      nofun
  have hscope : frame.token.getD a.scope = some i ↔
      (a.frames.eraseIdx k).countP Frame.holds = 1 := by
    cases htoken : frame.token with
    | none =>
      have hholds : frame.holds = false := by simp [Frame.holds, htoken]
      have hsame : (a.frames.eraseIdx k).countP Frame.holds = a.frames.countP Frame.holds := by
        simpa [hholds] using hcount
      rw [hsame]
      exact hs.owned
    | some token =>
      have hholds : frame.holds = true := by simp [Frame.holds, htoken]
      have hne : token ≠ some i := fun htok =>
        hs.token frame (hperm.subset List.mem_cons_self) (by rw [htoken, htok])
      have hzero : (a.frames.eraseIdx k).countP Frame.holds = 0 := by
        have hle := hs.once
        simp only [hholds, if_true] at hcount
        omega
      rw [hzero]
      simpa using hne
  refine h.set ha rfl ⟨hscope, ?_, fun other hother => hs.token other (hmem other hother), htask,
    fun hpending => absurd hpending hover, fun token htoken => hs.continuation token
      (hmem _ htoken)⟩ fun p hp => h.older i a p ha ?_
  · have hle := hs.once
    show (a.frames.eraseIdx k).countP Frame.holds ≤ 1
    omega
  · rcases hp with hp | ⟨other, hother, htoken⟩
    · cases htoken : frame.token with
      | none => exact .inl (by simpa [htoken] using hp)
      | some token =>
        refine .inr ⟨frame, hperm.subset List.mem_cons_self, ?_⟩
        rw [htoken, show token = some p by simpa [htoken] using hp]
    · exact .inr ⟨other, hmem other hother, htoken⟩

/-- A task that is created with a copy of the context owns nothing. -/
theorem Inv.copy (h : Inv w) (ha : w.actors[i]? = some a) {isTask : Bool} {origin : Origin}
    {phase : Phase}
    (hphase : phase = .pending → isTask = true ∧ ∃ p inside, origin = .spawned p inside)
    (horigin : ∀ p inside, origin = .spawned p inside → inside = true ∨ w.Continuation p) :
    Inv { w with actors := w.actors ++ [⟨isTask, a.scope, [], origin, phase⟩] } := by
  refine h.append ⟨?_, ?_, ?_, ?_, ?_, ?_⟩ (fun p hp => h.older i a p ha ?_) horigin
  · refine ⟨fun hscope => ?_, fun hcount => nomatch hcount⟩
    exact absurd (h.older i a _ ha (.inl hscope)) (lt_irrefl _)
  · exact Nat.zero_le 1
  · exact fun frame hframe => nomatch hframe
  · exact fun _ => rfl
  · exact fun hpending => ⟨rfl, hphase hpending⟩
  · exact fun token htoken => nomatch htoken
  · exact .inl (by simpa [Actor.Names] using hp)

/-- **A task that owns its scope** is in an outer `admit`, or accepted work goes on in it. -/
theorem World.inside_or_continuation (h : Inv w) (ha : w.actors[i]? = some a)
    (hscope : a.scope = some i) : a.inside = true ∨ w.Continuation i := by
  have hs := h.sound i a ha
  have hpos : 0 < a.frames.countP Frame.holds := by
    rw [hs.owned.mp hscope]
    exact Nat.one_pos
  obtain ⟨frame, hframe, hholds⟩ := List.countP_pos_iff.mp hpos
  cases frame with
  | outer token => exact .inl (List.any_eq_true.mpr ⟨_, hframe, rfl⟩)
  | nested => cases hholds
  | continuation token =>
    obtain ⟨p, inside, ho⟩ := hs.continuation token hframe
    exact .inr (h.spawned i a p inside ha ho)

/-- **What an event keeps.** -/
theorem Inv.step (h : Inv w) {ev : Event} {w' : World} (hstep : step w ev = some w') : Inv w' := by
  cases ev with
  | lifecycle target =>
    obtain rfl := Option.some.inj hstep
    have hkept : Kept w { w with state := Containers.tryTransition w.state target } :=
      fun j b hb => ⟨b, hb, rfl⟩
    exact ⟨h.sound, h.older, fun i a p inside ha ho => (h.spawned i a p inside ha ho).kept hkept⟩
  | root isTask =>
    obtain rfl := Option.some.inj hstep
    refine h.append ⟨?_, ?_, ?_, ?_, ?_, ?_⟩ (fun p hp => ?_) fun p inside ho => nomatch ho
    · simp
    · simp
    · exact fun frame hframe => nomatch hframe
    · exact fun _ => rfl
    · exact fun hpending => nomatch hpending
    · exact fun token htoken => nomatch htoken
    · simp [Actor.Names] at hp
  | ensure i =>
    obtain ⟨a, -, rfl⟩ := Option.map_eq_some_iff.mp hstep
    exact h
  | admitTask i =>
    obtain ⟨a, ha, rfl⟩ := Option.map_eq_some_iff.mp hstep
    obtain ⟨ha, hrunning⟩ := World.acting_some ha
    exact h.admitTask ha hrunning
  | exit i k =>
    obtain ⟨a, ha, hexit⟩ := Option.bind_eq_some_iff.mp hstep
    obtain ⟨frame, hframe, rfl⟩ := Option.map_eq_some_iff.mp hexit
    obtain ⟨ha, hrunning⟩ := World.acting_some ha
    exact h.exitScope ha hrunning hframe
  | create i isTask =>
    obtain ⟨a, ha, rfl⟩ := Option.map_eq_some_iff.mp hstep
    obtain ⟨ha, -⟩ := World.acting_some ha
    exact h.copy ha (fun hpending => nomatch hpending) fun p inside ho => nomatch ho
  | spawn i =>
    obtain ⟨a, ha, rfl⟩ := Option.map_eq_some_iff.mp hstep
    obtain ⟨ha, -⟩ := World.acting_some ha
    unfold spawnAcceptedTask
    split
    · rename_i hown
      refine h.copy ha (fun _ => ⟨rfl, _, _, rfl⟩) fun p inside ho => ?_
      obtain ⟨rfl, rfl⟩ : i = p ∧ a.inside = inside := by simpa using ho
      exact World.inside_or_continuation h ha ((World.owns_iff h ha).mp hown)
    · exact h
  | start i =>
    simp only [Admission.step] at hstep
    split at hstep
    · rename_i a ha
      split at hstep
      · rename_i hpending
        obtain rfl := Option.some.inj hstep
        have hs := h.sound i a ha
        obtain ⟨hframes, htask, hspawned⟩ := hs.pending hpending
        have hscope : a.scope ≠ some i := by
          rw [ne_eq, hs.owned, hframes]
          nofun
        refine h.set ha rfl ⟨?_, ?_, ?_, ?_, ?_, ?_⟩ fun p hp => ?_
        · simp [List.countP_cons]
        · simp [List.countP_cons]
        · intro frame hframe
          obtain rfl := List.mem_singleton.mp hframe
          simpa [Frame.token] using hscope
        · exact fun hno => absurd htask (by simp [show a.isTask = false from hno])
        · exact fun hno => nomatch hno
        · exact fun token _ => hspawned
        · rcases hp with hp | ⟨frame, hframe, htoken⟩
          · obtain rfl : i = p := Option.some.inj hp
            exact (List.getElem?_eq_some_iff.mp ha).1
          · obtain rfl := List.mem_singleton.mp hframe
            exact h.older i a p ha (.inl (Option.some.inj htoken))
      · cases hstep
    · cases hstep

end Steps

theorem Inv.initial : Inv .initial where
  sound i a h := by simp [World.initial] at h
  older i a p h := by simp [World.initial] at h
  spawned i a p inside h := by simp [World.initial] at h

theorem Reachable.inv {w : World} (h : Reachable w) : Inv w :=
  h.induction Inv.initial fun _ _ _ hw hstep => hw.step hstep

/-! ## The law -/

/-- A call of the gate succeeds: the block of `admit` begins, or `ensure_accepting_work` returns. -/
def World.Accepts (w : World) (i : ℕ) (a : Actor) : Prop :=
  ensureAcceptingWork w i = .ok () ∨ ∃ w', admitTask w i a = .ok w'

theorem World.Accepts.owns {w : World} {i : ℕ} {a : Actor} (h : w.Accepts i a)
    (hstate : w.state ≠ .ready) : w.owns i = true := by
  by_contra hno
  have hcheck : ∃ exn, w.checkLifecycle = .error exn := by
    rw [World.checkLifecycle, if_neg hstate]
    exact ⟨_, rfl⟩
  obtain ⟨exn, hexn⟩ := hcheck
  rcases h with h | ⟨w', h⟩
  · rw [ensureAcceptingWork, if_neg hno, hexn] at h
    cases h
  · rw [admitTask, if_neg hno, hexn] at h
    cases h

/-- Accepted work goes on in tasks that were spawned only. -/
theorem World.Continuation.spawned {w : World} {i : ℕ} {a : Actor} (h : w.Continuation i)
    (ha : w.actors[i]? = some a) : ∃ p inside, a.origin = .spawned p inside := by
  cases h with
  | direct ha' ho =>
    obtain rfl := Option.some.inj (ha.symm.trans ha')
    exact ⟨_, _, ho⟩
  | further ha' ho hp =>
    obtain rfl := Option.some.inj (ha.symm.trans ha')
    exact ⟨_, _, ho⟩

/-- **The gate admits accepted work only**: while the lifecycle is not READY, a call succeeds only
for a task that is in a block of an outer `admit`, or in which accepted work goes on, which a plain
task is not. A task that is created does not own the scope it inherits, and a nested block ends
without any effect on it. -/
theorem admission_sound (w : World) (h : Reachable w) (i : ℕ) (a : Actor)
    (ha : w.acting i = some a) :
    (w.state ≠ .ready → w.Accepts i a → w.Inside i ∨ w.Continuation i) ∧
    (∀ p, a.origin = .plain p → w.state ≠ .ready → w.Accepts i a → w.Inside i) ∧
    (∀ isTask, (createTask w i a isTask).owns w.actors.length = false) ∧
    ∀ k, a.frames[k]? = some .nested → (exitScope w i a k .nested).owns i = w.owns i ∧
      ((exitScope w i a k .nested).Inside i ↔ w.Inside i) := by
  obtain ⟨ha, -⟩ := World.acting_some ha
  have hinv := h.inv
  have hadmitted : w.state ≠ .ready → w.Accepts i a → w.Inside i ∨ w.Continuation i := by
    intro hstate haccepts
    have hscope := (World.owns_iff hinv ha).mp (haccepts.owns hstate)
    rcases World.inside_or_continuation hinv ha hscope with hinside | hcontinuation
    · exact .inl ⟨a, ha, hinside⟩
    · exact .inr hcontinuation
  refine ⟨hadmitted, fun p hplain hstate haccepts => ?_, fun isTask => ?_, fun k hk => ?_⟩
  · refine (hadmitted hstate haccepts).resolve_right fun hcontinuation => ?_
    obtain ⟨q, inside, ho⟩ := hcontinuation.spawned ha
    exact nomatch hplain.symm.trans ho
  · have hne : a.scope ≠ some w.actors.length := fun hscope =>
      absurd (hinv.older i a _ ha (.inl hscope)) (lt_irrefl _)
    simp [World.owns, createTask, hne]
  · obtain ⟨hlt, hget⟩ := List.getElem?_eq_some_iff.mp hk
    have hi := (List.getElem?_eq_some_iff.mp ha).1
    have hafter : (exitScope w i a k .nested).actors[i]? =
        some { a with frames := a.frames.eraseIdx k } := List.getElem?_set_self hi
    have hperm : (Frame.nested :: a.frames.eraseIdx k).Perm a.frames :=
      hget ▸ List.getElem_cons_eraseIdx_perm hlt
    have hinside : Actor.inside { a with frames := a.frames.eraseIdx k } = a.inside := by
      have hany := hperm.any_eq (f := fun frame => match frame with | .outer _ => true | _ => false)
      simpa [Actor.inside] using hany
    refine ⟨?_, ?_⟩
    · simp only [World.owns, hafter, ha, Option.any_some]
    · simp only [World.Inside, hafter, ha, Option.some.injEq, exists_eq_left', hinside]

namespace Scenario

/-- A task is admitted, and spawns another one, which spawns a third one; then the system drains. -/
def events : List Event := [
  .lifecycle .starting, .lifecycle .ready, .root true, .admitTask 0, .spawn 0, .start 1, .spawn 1,
  .start 2, .lifecycle .draining]

/-- The world the events lead to. -/
def world : World := (run .initial events).getD .initial

theorem reachable : Reachable world := ⟨events, by decide⟩

/-- The third task. -/
def third : Actor := ⟨true, some 2, [.continuation (some 1)], .spawned 1 false, .running⟩

end Scenario

/-- The third task is admitted, and is one in which accepted work goes on. -/
theorem admission_sound_scenario :
    Scenario.world.Inside 2 ∨ Scenario.world.Continuation 2 :=
  (admission_sound _ Scenario.reachable 2 Scenario.third (by decide)).1 (by decide)
    (.inl (by decide))

/-- The third task is admitted, but is in no outer `admit`, and neither was the one that spawned
it. -/
theorem grandchild_admitted : ¬ ∀ w, Reachable w → ∀ i a, w.acting i = some a →
    w.state ≠ .ready → w.Accepts i a → w.Inside i ∨ ∃ p, a.origin = .spawned p true := by
  intro hall
  have hthird : Scenario.world.acting 2 = some Scenario.third := by decide
  obtain ⟨ha, -⟩ := World.acting_some hthird
  rcases hall _ Scenario.reachable 2 Scenario.third hthird (by decide) (.inl (by decide)) with
    ⟨a, ha', hinside⟩ | ⟨p, ho⟩
  · obtain rfl := Option.some.inj (ha.symm.trans ha')
    exact absurd hinside (by decide)
  · exact absurd ho (by simp [Scenario.third])

end Admission
