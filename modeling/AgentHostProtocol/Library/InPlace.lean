import Mathlib.Logic.Basic

/-!
# Updates in place

A program that writes the state it is given and may fail on the way: the result of a failure holds
the state as the writes made until then left it.
-/

namespace AgentHostProtocol.Library

variable {ε σ α β : Type} {x : EStateM ε σ α} {s s' : σ}

/-- A failure leaves the state as it was. -/
def Untouched (x : EStateM ε σ α) (s : σ) : Prop := ∀ e s', x.run s = .error e s' → s' = s

/-- What a caller sees that does not look at the state a failure leaves. -/
def completed? : EStateM.Result ε σ α → Option (α × σ)
  | .ok a s => some (a, s)
  | .error _ _ => none

theorem untouched_of_ok {a : α} (h : x.run s = .ok a s') : Untouched x s := by
  intro e s'' he
  rw [h] at he
  cases he

theorem not_untouched {e : ε} (h : x.run s = .error e s') (hne : s' ≠ s) : ¬ Untouched x s :=
  fun hx => hne (hx e s' h)

theorem run_get_bind (k : σ → EStateM ε σ α) (s : σ) :
    (do let s ← get; k s : EStateM ε σ α).run s = (k s).run s := rfl

/-- A write stays when what comes after it fails. -/
theorem run_modify_bind (f : σ → σ) (x : EStateM ε σ α) (s : σ) :
    (do modify f; x : EStateM ε σ α).run s = x.run (f s) := rfl

end AgentHostProtocol.Library
