import AiLabOs.Process.Safety

/-!
# Runs that meet a condition

A run in which every event meets a condition on the configuration it happens in. Such runs are
runs, so what holds of all runs holds of them; in an induction over them each step also comes with
its condition.

## Main definitions

* `awaited c i`: the action the call `i` awaits
* `performed p c`: some call has done what `p` accepts
* `runIf`, `ReachesIf`: runs whose events meet a condition
* `meets`, `guarded`: a condition on actions, and a handler with no others

## Main results

* `call_cases`, `step_log`, `performed_step`: what one event makes of the calls
* `ReachesIf.reaches`: a run that meets a condition is a run
* `ReachesIf.induction`: the run rule, with the condition at every step
* `ReachesIf.guarded`: a condition on the actions makes the others impossible
-/

namespace Process

section Conditioned

variable {K E : Type} {R : E → Type} {ε α I W : Type}

/-- The action the call `i` awaits. -/
def awaited (c : Config K E R ε α W) (i : ℕ) : Option E :=
  match c.calls[i]? with
  | some ⟨_, _, .await e _⟩ => some e
  | _ => none

theorem awaited_eq {c : Config K E R ε α W} {i : ℕ} {k : K} {log : Log E R} {e : E}
    {next : R e → Program E R ε α} (h : c.calls[i]? = some ⟨k, log, .await e next⟩) :
    awaited c i = some e := by
  rw [awaited, h]

/-- Some call has done what `p` accepts. -/
def performed (p : (Σ e : E, R e) → Bool) (c : Config K E R ε α W) : Bool :=
  c.calls.any fun call => call.log.any p

/-- A sequence of events, if each of them can happen and meets the condition. -/
def runIf (handler : Handler E R I W) (start : K → Program E R ε α)
    (ok : Config K E R ε α W → Event K I → Bool) (c : Config K E R ε α W) :
    List (Event K I) → Option (Config K E R ε α W)
  | [] => some c
  | ev :: evs =>
    if ok c ev then (step handler start c ev).bind fun c' => runIf handler start ok c' evs
    else none

/-- Some run whose events meet the condition leads from `c` to `c'`. -/
def ReachesIf (handler : Handler E R I W) (start : K → Program E R ε α)
    (ok : Config K E R ε α W → Event K I → Bool) (c c' : Config K E R ε α W) : Prop :=
  ∃ evs, runIf handler start ok c evs = some c'

variable {handler : Handler E R I W} {start : K → Program E R ε α}
variable {ok : Config K E R ε α W → Event K I → Bool} {c c' c'' : Config K E R ε α W}

/-- **What a call was before an event**: the same, or not there yet, or at the action it has now
performed. -/
theorem call_cases {ev : Event K I} (he : step handler start c ev = some c') {j : ℕ}
    {call : Call K E R ε α} (hj : c'.calls[j]? = some call) :
    c.calls[j]? = some call ∨ (∃ k, ev = .arrive k ∧ call = ⟨k, [], start k⟩) ∨
    ∃ input k log e next r, ev = .act j input ∧ c.calls[j]? = some ⟨k, log, .await e next⟩ ∧
      handler j e input c.world = some (r, c'.world) ∧ call = ⟨k, log ++ [⟨e, r⟩], next r⟩ := by
  rcases step_cases he with ⟨k, rfl, rfl⟩ | ⟨i, input, k, log, e, next, r, w, rfl, hi, hr, rfl⟩
  · rw [List.getElem?_append] at hj
    split at hj
    · exact .inl hj
    · rw [List.getElem?_singleton] at hj
      split at hj
      · exact .inr (.inl ⟨k, rfl, (Option.some.inj hj).symm⟩)
      · cases hj
  · rw [List.getElem?_set] at hj
    split at hj
    · obtain rfl := ‹i = j›
      split at hj
      · exact .inr (.inr ⟨input, k, log, e, next, r, rfl, hi, hr, (Option.some.inj hj).symm⟩)
      · cases hj
    · exact .inl hj

theorem performed_iff {p : (Σ e : E, R e) → Bool} : performed p c = true ↔
    ∃ (i : ℕ) (call : Call K E R ε α), c.calls[i]? = some call ∧
      ∃ entry ∈ call.log, p entry = true := by
  simp only [performed, List.any_eq_true]
  constructor
  · rintro ⟨call, hcall, hlog⟩
    obtain ⟨i, hi⟩ := List.mem_iff_getElem?.mp hcall
    exact ⟨i, call, hi, hlog⟩
  · rintro ⟨i, call, hi, hlog⟩
    exact ⟨call, List.mem_of_getElem? hi, hlog⟩

/-- A call stays, and what it has done stays done. -/
theorem step_log {ev : Event K I} (he : step handler start c ev = some c') {j : ℕ}
    {call : Call K E R ε α} (hj : c.calls[j]? = some call) :
    ∃ call', c'.calls[j]? = some call' ∧ call.log <+: call'.log := by
  have hlt := (List.getElem?_eq_some_iff.mp hj).1
  rcases step_cases he with ⟨k, rfl, rfl⟩ | ⟨i, input, k, log, e, next, r, w, rfl, hi, hr, rfl⟩
  · exact ⟨call, by simpa [List.getElem?_append_left hlt] using hj, List.prefix_rfl⟩
  · by_cases hij : i = j
    · subst hij
      obtain rfl := Option.some.inj (hi.symm.trans hj)
      exact ⟨_, List.getElem?_set_self hlt, List.prefix_append log _⟩
    · exact ⟨call, by simpa [List.getElem?_set_ne hij] using hj, List.prefix_rfl⟩

/-- What some call has done has been done ever since. -/
theorem performed_step {p : (Σ e : E, R e) → Bool} {ev : Event K I}
    (he : step handler start c ev = some c') (h : performed p c = true) :
    performed p c' = true := by
  obtain ⟨j, call, hj, entry, hentry, hp⟩ := performed_iff.mp h
  obtain ⟨call', hj', hlog⟩ := step_log he hj
  exact performed_iff.mpr ⟨j, call', hj', entry, hlog.subset hentry, hp⟩

/-- The first event of such a run. -/
theorem runIf_cons {ev : Event K I} {evs : List (Event K I)}
    (h : runIf handler start ok c (ev :: evs) = some c') :
    ok c ev = true ∧ ∃ d, step handler start c ev = some d ∧
      runIf handler start ok d evs = some c' := by
  rw [runIf] at h
  split at h
  · exact ⟨‹_›, Option.bind_eq_some_iff.mp h⟩
  · cases h

theorem runIf_append (evs evs' : List (Event K I)) :
    runIf handler start ok c (evs ++ evs') =
      (runIf handler start ok c evs).bind fun c' => runIf handler start ok c' evs' := by
  induction evs generalizing c with
  | nil => rfl
  | cons ev evs ih =>
    rw [List.cons_append, runIf, runIf]
    split
    · rw [Option.bind_assoc]
      congr 1
      funext d
      exact ih
    · rfl

/-- A run that meets a condition meets a weaker one. -/
theorem runIf_mono {ok' : Config K E R ε α W → Event K I → Bool} {evs : List (Event K I)}
    (hok : ∀ ev ∈ evs, ∀ d, ok d ev = true → ok' d ev = true)
    (h : runIf handler start ok c evs = some c') : runIf handler start ok' c evs = some c' := by
  induction evs generalizing c with
  | nil => exact h
  | cons ev evs ih =>
    obtain ⟨hc, d, hd, hrest⟩ := runIf_cons h
    rw [runIf, if_pos (hok ev List.mem_cons_self c hc), hd, Option.bind_some]
    exact ih (fun ev' hev' => hok ev' (List.mem_cons_of_mem _ hev')) hrest

theorem ReachesIf.refl (c : Config K E R ε α W) : ReachesIf handler start ok c c := ⟨[], rfl⟩

theorem ReachesIf.trans (h : ReachesIf handler start ok c c')
    (h' : ReachesIf handler start ok c' c'') : ReachesIf handler start ok c c'' := by
  obtain ⟨evs, he⟩ := h
  obtain ⟨evs', he'⟩ := h'
  exact ⟨evs ++ evs', by rw [runIf_append, he, Option.bind_some, he']⟩

theorem run_of_runIf {evs : List (Event K I)} (h : runIf handler start ok c evs = some c') :
    run handler start c evs = some c' := by
  induction evs generalizing c with
  | nil => exact h
  | cons ev evs ih =>
    obtain ⟨-, d, hd, hrest⟩ := runIf_cons h
    rw [run, hd, Option.bind_some]
    exact ih hrest

/-- **A run that meets a condition is a run.** -/
theorem ReachesIf.reaches (h : ReachesIf handler start ok c c') : Reaches handler start c c' :=
  h.imp fun _ he => run_of_runIf he

/-- **The run rule**, with the condition at every step. -/
theorem ReachesIf.induction {motive : Config K E R ε α W → Prop}
    (h : ReachesIf handler start ok c c') (hinit : motive c)
    (hstep : ∀ d ev d', ReachesIf handler start ok c d → motive d → ok d ev = true →
      step handler start d ev = some d' → motive d') : motive c' := by
  obtain ⟨evs, he⟩ := h
  induction evs generalizing c with
  | nil => exact Option.some.inj he ▸ hinit
  | cons ev evs ih =>
    obtain ⟨hok, d, hd, hrest⟩ := runIf_cons he
    have hcd : ReachesIf handler start ok c d := ⟨[ev], by simp [runIf, hok, hd]⟩
    exact ih (hstep c ev d (.refl c) hinit hok hd)
      (fun d' ev' d'' hr => hstep d' ev' d'' (hcd.trans hr)) hrest

/-- The actions of a handler that meet a condition. -/
def guarded (handler : Handler E R I W) (p : ℕ → E → I → W → Bool) : Handler E R I W :=
  fun i e input w => if p i e input w then handler i e input w else none

theorem guarded_eq_some {p : ℕ → E → I → W → Bool} {i : ℕ} {e : E} {input : I} {w w' : W}
    {r : R e} : guarded handler p i e input w = some (r, w') ↔
      p i e input w = true ∧ handler i e input w = some (r, w') := by
  unfold guarded
  split
  · simp [*]
  · simp [*]

/-- The condition on events that the action meets a condition. -/
def meets (p : ℕ → E → I → W → Bool) (c : Config K E R ε α W) : Event K I → Bool
  | .arrive _ => true
  | .act i input => (awaited c i).all fun e => p i e input c.world

/-- **A run whose actions meet a condition** is a run of the handler without the others. -/
theorem ReachesIf.guarded {p : ℕ → E → I → W → Bool}
    (h : ReachesIf handler start (meets p) c c') : Reaches (guarded handler p) start c c' := by
  refine h.induction (motive := fun d => Reaches (Process.guarded handler p) start c d) (.refl c)
    fun d ev d' _ hd hcond he => hd.trans ⟨[ev], ?_⟩
  rcases step_cases he with ⟨k, rfl, rfl⟩ | ⟨i, input, k, log, e, next, r, w, rfl, hi, hr, rfl⟩
  · rfl
  · have hp : p i e input d.world = true := by simpa [meets, awaited_eq hi] using hcond
    have hr' : Process.guarded handler p i e input d.world = some (r, w) :=
      guarded_eq_some.mpr ⟨hp, hr⟩
    simp only [run, step, hi, hr', Option.map_some, Option.bind_some]

end Conditioned

end Process
