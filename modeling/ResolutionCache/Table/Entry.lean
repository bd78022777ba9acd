import ResolutionCache.Address
import ResolutionCache.Slot
import ResolutionCache.Text.Record

/-!
# Entries

What a slot of a direct mapped table holds: a payload and the index that owns the slot. A lookup
hits only if the owner is the index asked for and the payload is not null. The entry of an unused
slot has a null payload and the slot's sentinel as its owner.
-/

namespace ResolutionCache

/-- A payload of `w` bits with the index that owns it. -/
structure Entry (w : Nat) where
  /-- What the index resolved to, or null. -/
  payload : Address w
  /-- The index that the payload belongs to. -/
  owner : UInt32
  deriving DecidableEq

namespace Entry

variable {w : Nat}

/-- What an unused slot holds. -/
def vacant (slot : Nat) : Entry w := ⟨.null, sentinel slot⟩

instance : Inhabited (Entry w) := ⟨vacant 0⟩

/-- The payload, if the entry belongs to `index` and holds one. -/
def lookup (e : Entry w) (index : UInt32) : Option (Address w) :=
  if e.owner = index then e.payload.nonNull else none

/-- An entry of references in its structural form. -/
def debugRef (e : Entry 32) : String :=
  Text.record "DexCachePair"
    [("object", Ref.debug e.payload), ("index", toString e.owner.toNat)]

/-- An entry of native records in its structural form. -/
def debugPointer (e : Entry 64) : String :=
  Text.record "NativeDexCachePair"
    [("ptr", e.payload.hex), ("index", toString e.owner.toNat)]

@[simp] theorem lookup_vacant (slot : Nat) (index : UInt32) :
    (vacant slot : Entry w).lookup index = none := by
  simp [lookup, vacant]

theorem lookup_eq_some_iff {e : Entry w} {index : UInt32} {a : Address w} :
    e.lookup index = some a ↔ e.owner = index ∧ e.payload = a ∧ a ≠ .null := by
  by_cases h : e.owner = index <;> simp [lookup, h, Address.nonNull_eq_some_iff]
  rintro rfl; rfl

end Entry

end ResolutionCache
