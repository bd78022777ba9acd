import Mathlib.Data.Nat.ModEq
import ResolutionCache.Proofs.Capacities
import ResolutionCache.Table.Entry

/-!
# Slots and sentinels

With a capacity that is accepted, the slots of indices are their remainders modulo the capacity, so
two indices have one slot exactly if they are congruent (`slotFor_eq_iff`). The sentinel of a slot
is an index like any other, but one with another slot (`slotOf_sentinel_ne`): no index can be
mistaken for the sentinel of its own slot, and an entry in use never looks like a vacant one. This
is what capacities below two are refused for.

`slots_are_residues` puts together what the tables rely on.
-/

namespace ResolutionCache

variable {capacity : UInt64} {i j index : UInt32} {slot : Nat}

/-- A capacity is a word, so its exponent is 63 at most. -/
theorem usableCapacity_iff :
    UsableCapacity capacity ↔ ∃ k, 1 ≤ k ∧ k ≤ 63 ∧ capacity.toNat = 2 ^ k := by
  constructor
  · rintro ⟨k, positive, hk⟩
    have fits : 2 ^ k < 2 ^ 64 := hk ▸ capacity.toNat_lt
    have below : k < 64 := (Nat.pow_lt_pow_iff_right (by decide)).mp fits
    exact ⟨k, positive, Nat.le_of_lt_succ below, hk⟩
  · rintro ⟨k, positive, -, hk⟩
    exact ⟨k, positive, hk⟩

/-- The check of the capacity passes, and the slot is the remainder. -/
theorem slotFor_eq_mod (usable : UsableCapacity capacity) (index : UInt32) :
    slotFor index capacity = .ok (index.toNat % capacity.toNat) := by
  unfold slotFor
  rw [if_pos usable.isPowerOfTwo, slotOf_eq_mod usable]

/-- **Two indices have one slot** exactly if they are congruent modulo the capacity. -/
theorem slotFor_eq_iff (usable : UsableCapacity capacity) :
    slotFor i capacity = slotFor j capacity ↔ i.toNat ≡ j.toNat [MOD capacity.toNat] := by
  rw [slotFor_eq_mod usable, slotFor_eq_mod usable, Except.ok.injEq]
  rfl

/-- **The sentinel of a slot has another slot.** -/
theorem slotOf_sentinel_ne (usable : UsableCapacity capacity) (slot : Nat) :
    slotOf (sentinel slot) capacity ≠ slot := by
  obtain ⟨k, positive, hk⟩ := id usable
  have two_le : 2 ≤ capacity.toNat := hk ▸ Nat.le_self_pow (Nat.ne_of_gt positive) 2
  rw [slotOf_eq_mod usable]
  unfold sentinel
  split
  · -- the remainder of one is one, because there are two slots at least
    subst ‹slot = 0›
    rw [UInt32.toNat_one, Nat.mod_eq_of_lt two_le]
    exact Nat.one_ne_zero
  · rw [UInt32.toNat_zero, Nat.zero_mod]
    exact Ne.symm ‹¬ slot = 0›

/-- **An index is never the sentinel of its own slot.** -/
theorem ne_sentinel (usable : UsableCapacity capacity) (here : slotFor index capacity = .ok slot) :
    index ≠ sentinel slot := by
  rintro rfl
  rw [slotFor_eq_mod usable, Except.ok.injEq, ← slotOf_eq_mod usable] at here
  exact slotOf_sentinel_ne usable slot here

/-- **The slots of a table are the remainders modulo its capacity.** The capacities accepted are the
powers of two from 2 to 2 ^ 63. With such a capacity:
- Masking an index gives its remainder modulo the capacity. If the index is below a number of
  indices, then the slot is among those held for so many.
- Two indices share a slot exactly if they are congruent modulo the capacity.
- The sentinel of a slot is given another slot. So no index given a slot is its sentinel, and what
  is stored for the index there is not the entry of an unused slot. -/
theorem slots_are_residues (capacity : UInt64) :
    (Settings.acceptable capacity = true ↔
      ∃ k, 1 ≤ k ∧ k ≤ 63 ∧ capacity.toNat = 2 ^ k) ∧
    (Settings.acceptable capacity = true →
      (∀ ids index, index < ids →
        slotFor index capacity = .ok (index.toNat % capacity.toNat) ∧
        index.toNat % capacity.toNat < slotCount capacity ids) ∧
      (∀ i j, slotFor i capacity = slotFor j capacity ↔ i.toNat ≡ j.toNat [MOD capacity.toNat]) ∧
      (∀ slot, slotFor (sentinel slot) capacity ≠ .ok slot) ∧
      ∀ index slot, slotFor index capacity = .ok slot →
        index ≠ sentinel slot ∧
        ∀ w (payload : Address w), (⟨payload, index⟩ : Entry w) ≠ .vacant slot) := by
  refine ⟨(acceptable_iff capacity).trans usableCapacity_iff, fun accepted => ?_⟩
  have usable := (acceptable_iff capacity).mp accepted
  refine ⟨fun ids index range => ⟨slotFor_eq_mod usable index, ?_⟩,
    fun i j => slotFor_eq_iff usable, fun slot here => ne_sentinel usable here rfl,
    fun index slot here => ⟨ne_sentinel usable here, fun w payload vacant => ?_⟩⟩
  · rw [← slotOf_eq_mod usable]
    exact slotOf_lt_slotCount usable range
  · exact ne_sentinel usable here (congrArg Entry.owner vacant)

/-- The greatest capacity, which tells all indices apart, and one of 1024, with which the first
index and the first after a full turn compete. -/
theorem slots_are_residues_greatest :
    (Settings.acceptable 9223372036854775808 = true ∧ (4294967294 : UInt32) < 4294967295 ∧
      slotFor 4294967294 9223372036854775808 = .ok 4294967294 ∧
      4294967294 < slotCount 9223372036854775808 4294967295) ∧
    Settings.acceptable 1024 = true ∧ slotFor 0 1024 = slotFor 1024 1024 ∧
      slotFor (sentinel 0) 1024 ≠ .ok 0 ∧ (1024 : UInt32) ≠ sentinel 0 := by
  have greatest : Settings.acceptable 9223372036854775808 = true := by decide
  have usual : Settings.acceptable 1024 = true := by decide
  obtain ⟨slots, -⟩ := (slots_are_residues 9223372036854775808).2 greatest
  obtain ⟨-, share, apart, owners⟩ := (slots_are_residues 1024).2 usual
  obtain ⟨slot, held⟩ := slots 4294967295 4294967294 (by decide)
  refine ⟨⟨greatest, by decide, slot, held⟩, usual, (share 0 1024).mpr (by decide), apart 0, ?_⟩
  exact (owners 1024 0 (by decide)).1

/-- With a single slot its sentinel would be one of its own indices. -/
example : slotOf (sentinel 0) 1 = 0 := by decide

end ResolutionCache
