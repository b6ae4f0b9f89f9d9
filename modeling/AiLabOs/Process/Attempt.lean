import AiLabOs.Process.Safety

/-!
# Outcomes as values

A program run for its outcome: it never raises, and returns what it would return or raise. So one
program can go on from the exceptions of another one that raises something else.

## Main definitions

* `Program.attempt p`: the outcome of `p`

## Main results

* `Safe.attempt`: the rule of composition
-/

namespace Process

variable {E : Type} {R : E → Type} {ε δ α I W : Type}

/-- Runs a program and returns its outcome. -/
def Program.attempt : Program E R ε α → Program E R δ (Except ε α)
  | .ret a => .ret (.ok a)
  | .raise x => .ret (.error x)
  | .await e next => .await e fun r => (next r).attempt

variable {P : Protocol W} {handler : Handler E R I W} {pre : ℕ → Log E R → E → W → Prop} {i : ℕ}
variable {post : Except ε α → Log E R → W → Prop} {fail : δ → Log E R → W → Prop}
variable {p : Program E R ε α} {log : Log E R} {w : W}

/-- **Outcomes**: what the program ensures of its result and of its exception. -/
theorem Safe.attempt
    (h : Safe P handler pre i (fun a => post (.ok a)) (fun x => post (.error x)) p log w) :
    Safe P handler pre i post fail (Program.attempt (δ := δ) p) log w := by
  induction p generalizing log w with
  | ret a => exact .ret h.of_ret
  | raise x => exact .ret h.of_raise
  | await e next ih =>
    refine Safe.perform (f := fun r => Program.attempt (next r)) fun w' hw' hinv => ?_
    obtain ⟨hpre, hact⟩ := h.act_rely hw' hinv
    exact ⟨hpre, fun input r w'' hr => ih r (hact input r w'' hr)⟩

end Process
