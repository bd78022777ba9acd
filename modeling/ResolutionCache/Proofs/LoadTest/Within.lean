import ResolutionCache.LoadTest.Basic
import ResolutionCache.Proofs.Attempt
import ResolutionCache.Proofs.Heap.Places

/-!
# Steps within a number of places

The one thing that may stop a load test is the end of the address space. A step that takes at most
`cost` places (`LoadTest.Within`) ends as promised, with at most so many places fewer, or it stops
because there were fewer to begin with; then the heap's counter has come round to zero, where it
never is otherwise. Costs of steps in a row add up.
-/

namespace ResolutionCache.LoadTest

open Attempt

variable {ε ε' α β : Type} {room cost further : Nat} {holds : α → LoadTest → Prop}
  {promise : β → LoadTest → Prop}

/-- **How a step ends** that takes at most `cost` of the places there were. -/
inductive Within (room cost : Nat) (holds : α → LoadTest → Prop) :
    EStateM.Result ε LoadTest α → Prop where
  | ok {a : α} {w : LoadTest} :
    holds a w → room ≤ w.heap.room + cost → Within room cost holds (.ok a w)
  | exhausted {e : ε} {w : LoadTest} :
    w.heap.next = 0 → room < cost → Within room cost holds (.error e w)

/-- An operation that ended has not been stopped for any reason. -/
theorem of_stoppingWith_ok {reason : Fault → ε} {action : Attempt LoadTest α} {w w' : LoadTest}
    {a : α} (ran : LoadTest.stoppingWith reason action w = .ok a w') : action w = .ok a w' := by
  unfold LoadTest.stoppingWith at ran
  split at ran
  · cases ran
    assumption
  · cases ran

/-- Operations in a row stop for the reason that each of them stops for. -/
theorem stoppingWith_bind (reason : Fault → ε) (action : Attempt LoadTest α)
    (next : α → Attempt LoadTest β) :
    LoadTest.stoppingWith reason (action >>= next) = (do
      let a ← LoadTest.stoppingWith reason action
      LoadTest.stoppingWith reason (next a)) := by
  funext w
  simp only [LoadTest.stoppingWith, bind, EStateM.bind]
  cases action w <;> rfl

namespace Within

/-- A step that ended did so as promised. -/
theorem of_ran {x : EStateM.Result ε LoadTest α} {a : α} {w : LoadTest}
    (within : Within room cost holds x) (ran : x = .ok a w) : holds a w := by
  subst ran
  cases within with
  | ok held _ => exact held

/-- With places enough a step ends. -/
theorem ends {x : EStateM.Result ε LoadTest α} (within : Within room cost holds x)
    (enough : cost ≤ room) : ∃ a w, x = .ok a w ∧ holds a w := by
  cases within with
  | ok held _ => exact ⟨_, _, rfl, held⟩
  | exhausted _ short => exact absurd enough (Nat.not_le.mpr short)

theorem mono {x : EStateM.Result ε LoadTest α} {promise : α → LoadTest → Prop}
    (within : Within room cost holds x) (enough : cost ≤ further)
    (weaker : ∀ a w, holds a w → promise a w) : Within room further promise x := by
  cases within with
  | ok held left => exact .ok (weaker _ _ held) (by omega)
  | exhausted round short => exact .exhausted round (by omega)

/-- **Costs add up.** -/
theorem bind {x : EStateM ε LoadTest α} {f : α → EStateM ε LoadTest β} {w : LoadTest}
    (first : Within room cost holds (x w))
    (next : ∀ a w, holds a w → Within w.heap.room further promise (f a w)) :
    Within room (cost + further) promise ((x >>= f) w) := by
  generalize ran : x w = result at first
  cases first with
  | @ok a w' held left =>
    rw [bind_ok ran]
    have second := next a w' held
    generalize f a w' = last at second
    cases second with
    | ok held' left' => exact .ok held' (by omega)
    | exhausted round short => exact .exhausted round (by omega)
  | @exhausted e w' round short =>
    rw [bind_error ran]
    exact .exhausted round (by omega)

/-- A step that takes no place comes first. -/
theorem free_bind {x : EStateM ε LoadTest α} {f : α → EStateM ε LoadTest β} {w : LoadTest}
    (first : Within room 0 holds (x w))
    (next : ∀ a w, holds a w → Within w.heap.room cost promise (f a w)) :
    Within room cost promise ((x >>= f) w) := by
  rw [← Nat.zero_add cost]
  exact first.bind next

/-- Steps that take no place come last. -/
theorem bind_free {x : EStateM ε LoadTest α} {f : α → EStateM ε LoadTest β} {w : LoadTest}
    (first : Within room cost holds (x w))
    (next : ∀ a w, holds a w → Within w.heap.room 0 promise (f a w)) :
    Within room cost promise ((x >>= f) w) :=
  first.bind next

/-- A step whose result is known comes first. -/
theorem after {x : EStateM ε LoadTest α} {f : α → EStateM ε LoadTest β} {w w' : LoadTest} {a : α}
    (ran : x w = .ok a w') (rest : Within room cost promise (f a w')) :
    Within room cost promise ((x >>= f) w) := by
  rw [bind_ok ran]
  exact rest

/-- A step whose result is known and takes no place. -/
theorem of_ok {x : EStateM ε LoadTest α} {w w' : LoadTest} {a : α} (ran : x w = .ok a w')
    (same : w'.heap = w.heap) (held : holds a w') : Within w.heap.room 0 holds (x w) := by
  rw [ran]
  exact .ok held (by rw [same]; omega)

/-- A step repeated takes its cost each time. -/
theorem forEach {action : Nat → EStateM ε LoadTest Unit} {sound : LoadTest → Prop}
    (step : ∀ n w, sound w → Within w.heap.room cost (fun _ => sound) (action n w))
    (count first : Nat) {w : LoadTest} (start : sound w) :
    Within w.heap.room (count * cost) (fun _ => sound) (Attempt.forEach action count first w) := by
  induction count generalizing first w with
  | zero => exact .ok start (by omega)
  | succ count ih =>
    have rest := (step first w start).bind (f := fun _ => Attempt.forEach action count (first + 1))
      fun _ w held => ih (first + 1) held
    exact rest.mono (by rw [Nat.succ_mul]; omega) fun _ _ held => held

/-- Another reason to stop is no other cost. -/
theorem stoppingWith {action : Attempt LoadTest α} {reason : Fault → ε} {w : LoadTest}
    (within : Within room cost holds (action w)) :
    Within room cost holds (LoadTest.stoppingWith reason action w) := by
  unfold LoadTest.stoppingWith
  generalize action w = result at within
  cases within with
  | ok held left => exact .ok held left
  | exhausted round short => exact .exhausted round short

end Within

end ResolutionCache.LoadTest
