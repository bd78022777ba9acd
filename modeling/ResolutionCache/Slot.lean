import ResolutionCache.Fault

/-!
# Slot arithmetic

A table of `capacity` slots, a power of two, gives index `i` the slot `i mod capacity`; the
remainder is taken by masking. Two indices that agree modulo the capacity compete for one slot, so
an occupied slot has to say which index owns it, and an empty slot has to carry an owner that can
never be one of its own indices: the slot's *sentinel*.
-/

namespace ResolutionCache

/-- A power of two has exactly one bit set: it is not zero, and clearing its lowest set bit leaves
nothing. -/
def isPowerOfTwo (n : UInt64) : Bool :=
  n != 0 && n &&& (n - 1) == 0

/-- The slot of `index` among `capacity` slots: the low bits of the index that the mask
`capacity - 1` keeps. Meaningful when the capacity is a power of two. -/
def slotOf (index : UInt32) (capacity : UInt64) : Nat :=
  (index.toUInt64 &&& (capacity - 1)).toNat

/-- The slot of `index` among `capacity` slots, if the capacity is a power of two. -/
def slotFor (index : UInt32) (capacity : UInt64) : Except Fault Nat :=
  if isPowerOfTwo capacity then .ok (slotOf index capacity) else .error .capacityNotPowerOfTwo

/-- **The owner recorded in an empty slot.** Index 0 always lands in slot 0 and, with two slots or
more, index 1 never does; so 1 marks slot 0 empty and 0 marks every other slot empty. -/
def sentinel (slot : Nat) : UInt32 :=
  if slot = 0 then 1 else 0

/-- The number of slots that are really held for a space of `ids` indices: never more than there
are indices, because the slots past the last index could not be reached. -/
def slotCount (capacity : UInt64) (ids : UInt32) : Nat :=
  min capacity.toNat ids.toNat

theorem slotCount_le_capacity (capacity : UInt64) (ids : UInt32) :
    slotCount capacity ids ≤ capacity.toNat :=
  Nat.min_le_left ..

theorem slotCount_le_ids (capacity : UInt64) (ids : UInt32) :
    slotCount capacity ids ≤ ids.toNat :=
  Nat.min_le_right ..

end ResolutionCache
