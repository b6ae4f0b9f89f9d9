import AiLabOs.Process.Safety

/-!
# Frames

Two ways to carry facts through programs. A program all of whose actions meet a condition is safe
when the condition is all that their precondition asks. And a fact that no action disturbs, neither
one of the call nor one of the others, may be added to what any safe program ensures.

## Main definitions

* `Program.All P p`: every action `p` may perform meets `P`
* `Stable`: facts no action disturbs

## Main results

* `Program.All.bind`, `Program.All.tryCatch`, `Program.All.embed`: the rules of composition
* `Safe.of_all`: such a program is safe
* `Safe.weaken`, `Safe.of_log`: weaker preconditions, and preconditions that the log settles
* `Safe.frame`: a stable fact survives a safe program
-/

namespace Process

namespace Program

variable {E : Type} {R : E → Type} {ε α β : Type}

/-- Every action the program may perform meets `P`. -/
def All (P : E → Prop) : Program E R ε α → Prop
  | .ret _ => True
  | .raise _ => True
  | .await e next => P e ∧ ∀ r, (next r).All P

namespace All

variable {P : E → Prop} {p : Program E R ε α}

theorem ret (a : α) : (Program.ret a : Program E R ε α).All P := trivial

theorem raise (x : ε) : (Program.raise x : Program E R ε α).All P := trivial

theorem perform {e : E} (h : P e) : (Program.perform e : Program E R ε (R e)).All P :=
  ⟨h, fun _ => trivial⟩

theorem bind {f : α → Program E R ε β} (h : p.All P) (hf : ∀ a, (f a).All P) :
    (p >>= f).All P := by
  induction p with
  | ret a => exact hf a
  | raise x => trivial
  | await e next ih => exact ⟨h.1, fun r => ih r (h.2 r)⟩

theorem tryCatch {f : ε → Program E R ε α} (h : p.All P) (hf : ∀ x, (f x).All P) :
    (p.tryCatch f).All P := by
  induction p with
  | ret a => trivial
  | raise x => exact hf x
  | await e next ih => exact ⟨h.1, fun r => ih r (h.2 r)⟩

theorem mono {Q : E → Prop} (h : p.All P) (hPQ : ∀ e, P e → Q e) : p.All Q := by
  induction p with
  | ret a => trivial
  | raise x => trivial
  | await e next ih => exact ⟨hPQ e h.1, fun r => ih r (h.2 r)⟩

/-- A program over other actions performs only actions that stand for these. -/
theorem embed {E' : Type} {R' : E' → Type} {ε' : Type} {act : E → E'}
    {reply : ∀ e, R' (act e) → R e} {exn : ε → ε'} {Q : E' → Prop} (p : Program E R ε α)
    (h : ∀ e, Q (act e)) : (p.embed act reply exn).All Q := by
  induction p with
  | ret a => trivial
  | raise x => trivial
  | await e next ih => exact ⟨h e, fun r => ih (reply e r)⟩

end All

end Program

section Frames

variable {E : Type} {R : E → Type} {ε α I W : Type}
variable {P : Protocol W} {handler : Handler E R I W} {pre : ℕ → Log E R → E → W → Prop} {i : ℕ}
variable {post : α → Log E R → W → Prop} {fail : ε → Log E R → W → Prop}
variable {p : Program E R ε α} {log : Log E R} {w : W}

/-- A program all of whose actions meet their precondition anyway. -/
theorem Safe.of_all {Q : E → Prop} (h : p.All Q) (hpre : ∀ log e w, Q e → pre i log e w) :
    Safe P handler pre i (fun _ _ _ => True) (fun _ _ _ => True) p log w := by
  induction p generalizing log w with
  | ret a => exact Safe.ret trivial
  | raise x => exact Safe.raise trivial
  | await e next ih =>
    refine Safe.perform (f := next) fun w' _ _ => ?_
    exact ⟨hpre log e w' h.1, fun input r w'' _ => ih r (h.2 r)⟩

/-- Actions that meet a stronger precondition meet a weaker one. -/
theorem Safe.weaken {pre' : ℕ → Log E R → E → W → Prop}
    (h : Safe P handler pre i post fail p log w)
    (hpre : ∀ log e w, pre i log e w → pre' i log e w) :
    Safe P handler pre' i post fail p log w := by
  induction p generalizing log w with
  | ret a => exact Safe.ret h.of_ret
  | raise x => exact Safe.raise h.of_raise
  | await e next ih =>
    refine Safe.perform (f := next) fun w' hw' hinv => ?_
    obtain ⟨hact, hnext⟩ := h.act_rely hw' hinv
    exact ⟨hpre log e w' hact, fun input r w'' hr => ih r (hnext input r w'' hr)⟩

/-- Where the log already says all that a precondition asks for, every program is safe. -/
theorem Safe.of_log {Q : Log E R → Prop} (hlog : Q log) (hgrow : ∀ log entry, Q log →
    Q (log ++ [entry])) (hpre : ∀ log e w, Q log → pre i log e w) :
    Safe P handler pre i (fun _ _ _ => True) (fun _ _ _ => True) p log w := by
  induction p generalizing log w with
  | ret a => exact Safe.ret trivial
  | raise x => exact Safe.raise trivial
  | await e next ih =>
    refine Safe.perform (f := next) fun w' _ _ => ?_
    exact ⟨hpre log e w' hlog, fun input r w'' _ => ih r (hgrow log _ hlog)⟩

/-- A fact about what a call has done and the world that no action disturbs. -/
structure Stable (P : Protocol W) (handler : Handler E R I W) (pre : ℕ → Log E R → E → W → Prop)
    (i : ℕ) (S : Log E R → W → Prop) : Prop where
  others : ∀ log w w', P.Rely i w w' → P.Inv w' → S log w → S log w'
  own : ∀ log e input r w w', P.Inv w → pre i log e w → handler i e input w = some (r, w') →
    S log w → S (log ++ [⟨e, r⟩]) w'

/-- **The frame rule**: a stable fact survives a safe program, however it ends. -/
theorem Safe.frame {S : Log E R → W → Prop} (hS : Stable P handler pre i S)
    (h : Safe P handler pre i post fail p log w) (hs : S log w) :
    Safe P handler pre i (fun a log w => post a log w ∧ S log w)
      (fun x log w => fail x log w ∧ S log w) p log w := by
  induction p generalizing log w with
  | ret a => exact Safe.ret ⟨h.of_ret, hs⟩
  | raise x => exact Safe.raise ⟨h.of_raise, hs⟩
  | await e next ih =>
    refine Safe.perform (f := next) fun w' hw' hinv => ?_
    obtain ⟨hpre, hact⟩ := h.act_rely hw' hinv
    have hs' := hS.others log w w' hw' hinv hs
    exact ⟨hpre, fun input r w'' hr =>
      ih r (hact input r w'' hr) (hS.own log e input r w' w'' hinv hpre hr hs')⟩

end Frames

end Process
