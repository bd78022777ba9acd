import ResolutionCache.Fault

/-!
# Attempts

An attempt works on a state and may stop with a fault. Its result has the state in both cases, so
that it can be told what it left behind when it stopped. Most checks change nothing: they are
questions to the state that may be refused. An attempt repeated for one number after another
(`forEach`) ends with the first that stops, however many numbers are still to come.
-/

namespace ResolutionCache

/-- An operation on a state of type `σ` that may stop with a fault. -/
abbrev Attempt (σ α : Type) := EStateM Fault σ α

namespace Attempt

variable {ε σ α : Type}

/-- Passes if the condition holds and stops otherwise; the state stays as it is. -/
def require (condition : Bool) (error : ε) : EStateM ε σ Unit :=
  if condition then pure () else throw error

/-- Asks the state something that may be refused; the state stays as it is. -/
def inspect (question : σ → Except ε α) : EStateM ε σ α := fun s =>
  match question s with
  | .ok a => .ok a s
  | .error e => .error e s

/-- Works through `count` numbers in order, from `first` on. -/
def forEach (action : Nat → EStateM ε σ Unit) : (count first : Nat) → EStateM ε σ Unit
  | 0, _ => pure ()
  | count + 1, first => do
    action first
    forEach action count (first + 1)

end Attempt

end ResolutionCache
