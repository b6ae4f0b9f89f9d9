import AiLabOs.Process.Conditioned
import AiLabOs.Process.Frames

/-!
# Paths of a program

What the replies so far leave of a program. A call is on a path of the program it started with, so
a fact about the paths of a program holds of every call that runs it.

## Main definitions

* `Leads p log q`: the replies in the log lead from `p` to `q`
* `Program.Ended`: nothing is left of a program but its result

## Main results

* `Leads.of_bind`, `Leads.of_tryCatch`: a path through a composition
* `Program.All.of_leads`: every action on a path
* `Reaches.leads`: the log of a call is a path
-/

namespace Process

variable {K E : Type} {R : E → Type} {ε α β I W : Type}

/-- The program has returned or raised an exception. -/
def Program.Ended : Program E R ε α → Prop
  | .await _ _ => False
  | _ => True

/-- **The replies in the log lead** from a program to what is left of it. -/
inductive Leads : Program E R ε α → Log E R → Program E R ε α → Prop
  | refl (p : Program E R ε α) : Leads p [] p
  | act {e : E} {next : R e → Program E R ε α} {r : R e} {log : Log E R} {q : Program E R ε α} :
      Leads (next r) log q → Leads (.await e next) (⟨e, r⟩ :: log) q

namespace Leads

variable {p q : Program E R ε α} {log : Log E R}

/-- Without a reply nothing has happened. -/
theorem of_nil (h : Leads p [] q) : q = p := by
  cases h
  rfl

theorem snoc {e : E} {next : R e → Program E R ε α} (h : Leads p log (.await e next)) (r : R e) :
    Leads p (log ++ [⟨e, r⟩]) (next r) := by
  generalize hq : Program.await e next = q at h
  induction h with
  | refl p =>
    subst hq
    exact .act (.refl _)
  | act h ih => exact .act (ih hq)

theorem of_ret {a : α} (h : Leads (.ret a) log q) : log = [] ∧ q = .ret a := by
  cases h
  exact ⟨rfl, rfl⟩

theorem of_raise {x : ε} (h : Leads (.raise x) log q) : log = [] ∧ q = .raise x := by
  cases h
  exact ⟨rfl, rfl⟩

/-- A path that ends passes the first action. -/
theorem of_perform {e : E} {f : R e → Program E R ε α} (h : Leads (Program.perform e >>= f) log q)
    (hq : q.Ended) :
    ∃ r rest, log = ⟨e, r⟩ :: rest ∧ Leads (f r) rest q := by
  cases h with
  | refl => exact False.elim hq
  | act h => exact ⟨_, _, rfl, h⟩

/-- Paths of two programs make one of their composition. -/
theorem bind {f : α → Program E R ε β} {a : α} {log' : Log E R} {q : Program E R ε β}
    (h : Leads p log (.ret a)) (hf : Leads (f a) log' q) : Leads (p >>= f) (log ++ log') q := by
  generalize hr : Program.ret a = r at h
  induction h with
  | refl p =>
    subst hr
    exact hf
  | act h ih => exact .act (ih hr)

/-- **A path through a composition** that ends raises in the first program, or passes it. -/
theorem of_bind {f : α → Program E R ε β} {q : Program E R ε β} (h : Leads (p >>= f) log q)
    (hq : q.Ended) :
    (∃ x, Leads p log (.raise x) ∧ q = .raise x) ∨
      ∃ a log₁ log₂, log = log₁ ++ log₂ ∧ Leads p log₁ (.ret a) ∧ Leads (f a) log₂ q := by
  induction p generalizing log with
  | ret a => exact .inr ⟨a, [], log, rfl, .refl _, h⟩
  | raise x =>
    obtain ⟨rfl, rfl⟩ := of_raise h
    exact .inl ⟨x, .refl _, rfl⟩
  | await e next ih =>
    obtain ⟨r, rest, rfl, hrest⟩ := of_perform (f := fun r => next r >>= f) h hq
    rcases ih r hrest with ⟨x, hx, rfl⟩ | ⟨a, log₁, log₂, rfl, ha, hf⟩
    · exact .inl ⟨x, .act hx, rfl⟩
    · exact .inr ⟨a, _ :: log₁, log₂, rfl, .act ha, hf⟩

/-- **A path through a handler** that ends raises nothing, or passes the handler. -/
theorem of_tryCatch {f : ε → Program E R ε α} (h : Leads (p.tryCatch f) log q)
    (hq : q.Ended) :
    (∃ a, Leads p log (.ret a) ∧ q = .ret a) ∨
      ∃ x log₁ log₂, log = log₁ ++ log₂ ∧ Leads p log₁ (.raise x) ∧ Leads (f x) log₂ q := by
  induction p generalizing log with
  | ret a =>
    obtain ⟨rfl, rfl⟩ := of_ret h
    exact .inl ⟨a, .refl _, rfl⟩
  | raise x => exact .inr ⟨x, [], log, rfl, .refl _, h⟩
  | await e next ih =>
    obtain ⟨r, rest, rfl, hrest⟩ := of_perform (f := fun r => (next r).tryCatch f) h hq
    rcases ih r hrest with ⟨a, ha, rfl⟩ | ⟨x, log₁, log₂, rfl, hx, hf⟩
    · exact .inl ⟨a, .act ha, rfl⟩
    · exact .inr ⟨x, _ :: log₁, log₂, rfl, .act hx, hf⟩

end Leads

/-- The actions on a path meet what all of the program meet. -/
theorem Program.All.of_leads {P : E → Prop} {p q : Program E R ε α} {log : Log E R}
    (hp : p.All P) (h : Leads p log q) : ∀ entry ∈ log, P entry.1 := by
  induction h with
  | refl p => exact fun entry hentry => absurd hentry (List.not_mem_nil)
  | act h ih =>
    intro entry hentry
    rcases List.mem_cons.mp hentry with rfl | hentry
    · exact hp.1
    · exact ih (hp.2 _) entry hentry

/-- **The log of a call is a path** of the program it started with. -/
theorem Reaches.leads {handler : Handler E R I W} {start : K → Program E R ε α} {w : W}
    {c : Config K E R ε α W} (h : Reaches handler start (idle w) c) {i : ℕ} {k : K} {log : Log E R}
    {p : Program E R ε α} (hi : c.calls[i]? = some ⟨k, log, p⟩) : Leads (start k) log p := by
  refine h.induction (motive := fun c => ∀ (i : ℕ) k log p, c.calls[i]? = some ⟨k, log, p⟩ →
    Leads (start k) log p) (fun i k log p hi => by simp [idle] at hi) (fun d ev d' _ hd he => ?_)
    i k log p hi
  intro i k log p hi
  rcases call_cases he hi with hold | ⟨k', -, hcall⟩ | ⟨_, k', log', e, next, r, -, hold, -, hcall⟩
  · exact hd i k log p hold
  · obtain ⟨rfl, rfl, rfl⟩ : k = k' ∧ log = [] ∧ p = start k' := by simpa using hcall
    exact .refl _
  · obtain ⟨rfl, rfl, rfl⟩ : k = k' ∧ log = log' ++ [⟨e, r⟩] ∧ p = next r := by simpa using hcall
    exact (hd i k log' _ hold).snoc r

end Process
