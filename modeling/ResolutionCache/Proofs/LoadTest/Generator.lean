import Mathlib.Data.FinEnum
import Mathlib.Data.LawfulXor.Basic
import Mathlib.Dynamics.PeriodicPts.Lemmas
import ResolutionCache.Proofs.LoadTest.Run

/-!
# Generators never degenerate

Each of the three moves of a step folds a shifted copy of the state into the state. Only zero is its
own shifted copy, because shifting again and again shifts everything out, so no move takes two
states to one (`Generator.fold_injective`). Hence a step is injective
(`Generator.scramble_injective`). There are finitely many states, so from any start the states come
back to it; and zero stays zero, so no other state ever becomes zero.

A mutator draws from a seed made odd, with the numbers of strings and of call sites of its file as
bounds (`LoadTest.of_turn_ok`). `Generator.never_degenerates` is about any bounds that are not zero
and any number of draws, and about the generator between any two turns.
-/

namespace ResolutionCache

namespace Generator

open Function

/-! ### Steps -/

section

variable {shift : BitVec 64 → Nat → BitVec 64} {v : BitVec 64} {n : Nat}

/-- A word that is its own shifted copy has been shifted out. -/
theorem eq_zero_of_shift_eq (add : ∀ v m n, shift v (m + n) = shift (shift v m) n)
    (out : ∀ v n, 64 ≤ n → shift v n = 0) (positive : 0 < n) (same : shift v n = v) : v = 0 := by
  have again (m : Nat) : shift v ((m + 1) * n) = v := by
    induction m with
    | zero => rwa [Nat.zero_add, Nat.one_mul]
    | succ m ih => rw [Nat.add_mul, add, ih, Nat.one_mul, same]
  rw [← again 63]
  exact out v _ (Nat.le_mul_of_pos_right 64 positive)

/-- **Folding a shifted copy into a word loses nothing,** whichever way it is shifted. What two
words with one image differ in is its own shifted copy. -/
theorem fold_injective (add : ∀ v m n, shift v (m + n) = shift (shift v m) n)
    (out : ∀ v n, 64 ≤ n → shift v n = 0)
    (linear : ∀ v u n, shift (v ^^^ u) n = shift v n ^^^ shift u n) (positive : 0 < n) :
    Injective fun v => v ^^^ shift v n := by
  intro v u (same : v ^^^ shift v n = u ^^^ shift u n)
  refine BitVec.xor_eq_zero_iff.mp (eq_zero_of_shift_eq add out positive ?_)
  calc shift (v ^^^ u) n
      = shift v n ^^^ shift u n := linear v u n
    _ = v ^^^ (v ^^^ shift v n) ^^^ shift u n := by rw [xor_cancel_left]
    _ = v ^^^ (u ^^^ shift u n) ^^^ shift u n := by rw [same]
    _ = v ^^^ u := by rw [BitVec.xor_assoc, xor_cancel_right]

theorem fold_left_injective (positive : 0 < n) : Injective fun v : BitVec 64 => v ^^^ (v <<< n) :=
  fold_injective BitVec.shiftLeft_add (fun _ _ => BitVec.shiftLeft_eq_zero)
    BitVec.shiftLeft_xor_distrib positive

theorem fold_right_injective (positive : 0 < n) : Injective fun v : BitVec 64 => v ^^^ (v >>> n) :=
  fold_injective BitVec.shiftRight_add (fun _ _ => BitVec.ushiftRight_eq_zero)
    BitVec.ushiftRight_xor_distrib positive

end

/-- **A step takes no two states to one.** -/
theorem scramble_injective : Injective scramble := by
  have moves := ((fold_left_injective (n := 17) (by decide)).comp
    (fold_right_injective (n := 7) (by decide))).comp (fold_left_injective (n := 13) (by decide))
  intro s t same
  exact UInt64.toBitVec_inj.mp (moves (congrArg UInt64.toBitVec same))

/-- **From any start the states come back to it.** -/
theorem exists_iterate_scramble_eq (s : UInt64) : ∃ n, 0 < n ∧ scramble^[n] s = s :=
  mem_periodicPts.mp (scramble_injective.mem_periodicPts s)

/-- Zero stays zero, and so no other state ever becomes zero. -/
theorem iterate_scramble_ne_zero {s : UInt64} (ne : s ≠ 0) (n : Nat) : scramble^[n] s ≠ 0 := by
  have zero : scramble^[n] 0 = 0 := iterate_fixed rfl n
  intro become
  exact ne (scramble_injective.iterate n (become.trans zero.symm))

/-- A seed made odd is not zero. -/
theorem ofSeed_state_ne_zero (seed : UInt64) : (ofSeed seed).state ≠ 0 := fun zero =>
  absurd (UInt64.or_eq_zero_iff.mp zero).2 (by decide)

/-! ### Draws -/

/-- Draws an index below each of the bounds, one after another. -/
def draws : List UInt32 → Generator → Except Fault (List UInt32 × Generator)
  | [], g => .ok ([], g)
  | bound :: bounds, g => do
    let (index, g) ← g.next bound
    let (indices, g) ← draws bounds g
    return (index :: indices, g)

variable {bound : UInt32} {bounds bounds' indices indices' : List UInt32} {g g' g'' : Generator}

theorem draws_cons_eq_ok_iff :
    draws (bound :: bounds) g = .ok (indices, g') ↔
      ∃ index next rest, g.next bound = .ok (index, next) ∧
        draws bounds next = .ok (rest, g') ∧ indices = index :: rest := by
  simp only [draws, bind, Except.bind, pure, Except.pure]
  cases g.next bound with
  | error e => simp
  | ok drawn =>
    obtain ⟨index, next⟩ := drawn
    cases later : draws bounds next with
    | error e => simp [later]
    | ok drawn => simp [later, Prod.ext_iff, eq_comm, and_comm]

/-- **Every index drawn is below its bound,** and the register makes one step for each. -/
theorem draws_ok (g : Generator) (positive : ∀ bound ∈ bounds, bound ≠ 0) :
    ∃ indices g', draws bounds g = .ok (indices, g') ∧ List.Forall₂ (· < ·) indices bounds ∧
      g'.state = scramble^[bounds.length] g.state := by
  induction bounds generalizing g with
  | nil => exact ⟨[], g, rfl, .nil, rfl⟩
  | cons bound bounds ih =>
    obtain ⟨positive, others⟩ := List.forall_mem_cons.mp positive
    obtain ⟨index, next, drawn, range, step⟩ := g.next_ok positive
    obtain ⟨rest, last, drawn', ranges, steps⟩ := ih next others
    refine ⟨index :: rest, last, draws_cons_eq_ok_iff.mpr ⟨index, next, rest, drawn, drawn', rfl⟩,
      .cons range ranges, ?_⟩
    rw [steps, step]
    rfl

/-- **From a seed made odd** the state never becomes zero. -/
theorem draws_ofSeed (seed : UInt64) (positive : ∀ bound ∈ bounds, bound ≠ 0) :
    ∃ indices g, draws bounds (.ofSeed seed) = .ok (indices, g) ∧
      List.Forall₂ (· < ·) indices bounds ∧
      g.state = scramble^[bounds.length] (seed ||| 1) ∧ g.state ≠ 0 := by
  obtain ⟨indices, g, drawn, ranges, steps⟩ := draws_ok (.ofSeed seed) positive
  refine ⟨indices, g, drawn, ranges, steps, ?_⟩
  rw [steps]
  exact iterate_scramble_ne_zero (ofSeed_state_ne_zero seed) _

/-- Draws that were made had bounds that are not zero. -/
theorem of_draws_ok (drawn : draws bounds g = .ok (indices, g')) : ∀ bound ∈ bounds, bound ≠ 0 := by
  induction bounds generalizing g indices with
  | nil => exact nofun
  | cons bound bounds ih =>
    obtain ⟨index, next, rest, first, later, -⟩ := draws_cons_eq_ok_iff.mp drawn
    refine List.forall_mem_cons.mpr ⟨?_, ih later⟩
    rintro rfl
    cases first

theorem draws_append (first : draws bounds g = .ok (indices, g'))
    (later : draws bounds' g' = .ok (indices', g'')) :
    draws (bounds ++ bounds') g = .ok (indices ++ indices', g'') := by
  induction bounds generalizing g indices with
  | nil =>
    cases first
    exact later
  | cons bound bounds ih =>
    obtain ⟨index, next, rest, drawn, between, rfl⟩ := draws_cons_eq_ok_iff.mp first
    exact draws_cons_eq_ok_iff.mpr ⟨index, next, _, drawn, ih between, rfl⟩

end Generator

namespace LoadTest

open Attempt Generator

/-! ### Turns -/

variable {w w' : LoadTest} {g g' : Generator}

/-- The bounds that a turn draws with. -/
def drawnBelow (file : SymbolFile) : List UInt32 :=
  if file.callSites = 0 then [file.strings] else [file.strings, file.callSites]

/-- **A turn** draws once, or once more if there are call sites. -/
theorem of_turn_ok (ran : turn g w = .ok g' w') :
    ∃ indices, draws (drawnBelow w.resolver.cache.file) g = .ok (indices, g') := by
  unfold turn at ran
  rw [bind_ok (get_apply w)] at ran
  obtain ⟨⟨index, next⟩, _, asked, ran⟩ := of_bind_ok ran
  obtain ⟨drawn, rfl⟩ := of_inspect_ok asked
  obtain ⟨_, _, -, ran⟩ := of_bind_ok ran
  obtain ⟨_, _, -, ran⟩ := of_bind_ok ran
  obtain ⟨_, _, -, ran⟩ := of_bind_ok ran
  unfold drawnBelow
  split at ran
  · cases ran
    rw [if_pos ‹_›]
    exact ⟨[index], draws_cons_eq_ok_iff.mpr ⟨index, _, [], drawn, rfl, rfl⟩⟩
  · obtain ⟨⟨site, last⟩, _, asked, ran⟩ := of_bind_ok ran
    obtain ⟨drawn', rfl⟩ := of_inspect_ok asked
    obtain ⟨_, _, -, ran⟩ := of_bind_ok ran
    cases ran
    rw [if_neg ‹_›]
    refine ⟨[index, site], draws_cons_eq_ok_iff.mpr ⟨index, next, [site], drawn, ?_, rfl⟩⟩
    exact draws_cons_eq_ok_iff.mpr ⟨site, _, [], drawn', rfl, rfl⟩

/-- **A mutator** does nothing with its generator but draw. -/
theorem of_turnsThen_ok {iterations : Nat} (ran : turnsThen iterations g w = .ok g' w') :
    ∃ bounds indices, draws bounds g = .ok (indices, g') := by
  induction iterations generalizing g w with
  | zero =>
    cases ran
    exact ⟨[], [], rfl⟩
  | succ iterations ih =>
    obtain ⟨next, mid, turned, rest⟩ := of_bind_ok ran
    obtain ⟨indices, drawn⟩ := of_turn_ok turned
    obtain ⟨bounds, indices', later⟩ := ih rest
    exact ⟨_, _, draws_append drawn later⟩

end LoadTest

/-! ### Every number of draws -/

/-- **A generator never degenerates.**
- A step takes no two states to one, and from any start the states come back to it.
- From any seed, with any bounds that are not zero and any number of them, every index is drawn, and
  is below its bound. Each draw is one step of the register. The state is never zero.
- So it is between any two turns of a mutator, whose generator has been drawn from and nothing
  else. -/
theorem Generator.never_degenerates :
    Function.Injective scramble ∧
    (∀ g : Generator, ∃ n, 0 < n ∧ scramble^[n] g.state = g.state ∧
      ∀ bounds : List UInt32, bounds.length = n → (∀ bound ∈ bounds, bound ≠ 0) →
        ∃ indices, draws bounds g = .ok (indices, g)) ∧
    (∀ (seed : UInt64) (bounds : List UInt32), (∀ bound ∈ bounds, bound ≠ 0) →
      ∃ indices g, draws bounds (.ofSeed seed) = .ok (indices, g) ∧
        List.Forall₂ (· < ·) indices bounds ∧
        g.state = scramble^[bounds.length] (seed ||| 1) ∧ g.state ≠ 0) ∧
    ∀ (seed : UInt64) (iterations : Nat),
      LoadTest.turns iterations (.ofSeed seed) =
        (do let _ ← LoadTest.turnsThen iterations (.ofSeed seed)) ∧
      ∀ (w : LoadTest) (g : Generator) (w' : LoadTest),
        LoadTest.turnsThen iterations (.ofSeed seed) w = .ok g w' →
          g.state ≠ 0 ∧ ∃ bounds indices, draws bounds (.ofSeed seed) = .ok (indices, g) ∧
            List.Forall₂ (· < ·) indices bounds := by
  refine ⟨scramble_injective, fun g => ?_, fun seed _ => draws_ofSeed seed, fun seed iterations =>
    ⟨LoadTest.turns_eq iterations _, fun w g w' ran => ?_⟩⟩
  · obtain ⟨n, positive, back⟩ := exists_iterate_scramble_eq g.state
    refine ⟨n, positive, back, ?_⟩
    rintro bounds rfl nonzero
    obtain ⟨indices, ⟨state⟩, drawn, -, steps⟩ := draws_ok g nonzero
    obtain rfl : state = g.state := steps.trans back
    exact ⟨indices, drawn⟩
  · obtain ⟨bounds, indices, made⟩ := LoadTest.of_turnsThen_ok ran
    obtain ⟨_, _, again, ranges, -, ne⟩ := draws_ofSeed seed (of_draws_ok made)
    cases made.symm.trans again
    exact ⟨ne, bounds, indices, made, ranges⟩

/-- The seed that would be zero were it not made odd, with the greatest bound and the least, and the
mutator of that seed after two turns. -/
theorem Generator.never_degenerates_from_zero :
    (∀ bound ∈ ([4294967295, 1, 7] : List UInt32), bound ≠ 0) ∧
    (∃ indices g, draws [4294967295, 1, 7] (.ofSeed 0) = .ok (indices, g) ∧ g.state ≠ 0 ∧
      List.Forall₂ (· < ·) indices [4294967295, 1, 7]) ∧
    ∃ w g w', LoadTest.start {} = .ok w ∧
      LoadTest.turnsThen 2 (.ofSeed 0) w = .ok g w' ∧ g.state ≠ 0 := by
  obtain ⟨-, -, draw, mutate⟩ := never_degenerates
  have positive : ∀ bound ∈ ([4294967295, 1, 7] : List UInt32), bound ≠ 0 := by simp
  obtain ⟨indices, g, drawn, ranges, -, ne⟩ := draw 0 _ positive
  obtain ⟨w, started⟩ : ∃ w, LoadTest.start {} = .ok w :=
    LoadTest.start_ok fun kind _ given => by cases kind <;> cases given
  have enough : 2 * 3 ≤ w.heap.room := by
    have room : 7 ≤ ({} : Heap).room := by decide
    have left := Heap.wellFormed_empty.room_advance LoadTest.room_empty
    rw [LoadTest.room_start started]
    omega
  have even : (LoadTestOptions.file {}).Even := ⟨by decide, rfl, rfl⟩
  have sound := LoadTest.start_sound started
  obtain ⟨_, w', ran, -⟩ := (LoadTest.turns_within even sound 2 (.ofSeed 0)).ends enough
  rw [LoadTest.turns_eq] at ran
  obtain ⟨g', mid, ran, -⟩ := Attempt.of_bind_ok ran
  exact ⟨positive, ⟨indices, g, drawn, ne, ranges⟩, w, g', mid, started, ran,
    ((mutate 0 2).2 w g' mid ran).1⟩

end ResolutionCache
