import ResolutionCache.Object
import ResolutionCache.Address
import ResolutionCache.Fault

/-!
# The symbols of a load test

What each index of a load test's file resolves to. The meaning of an index is legible in the object
itself, so that it can be checked later that a cache has not mixed up two indices.
-/

namespace ResolutionCache

namespace LoadTest

/-- Where a load test's file comes from. -/
def location : String := "stress.dex"

/-- The text of a string index. -/
def stringText (index : Nat) : String := "s" ++ toString index

/-- The descriptor of a type index. -/
def typeDescriptor (index : Nat) : String := "LT" ++ toString index ++ ";"

/-- The target of a call site index. -/
def callSiteTarget (index : Nat) : String := "cs" ++ toString index

/-- The object that a string index resolves to. -/
def stringObject (index : UInt32) : Object := .string (stringText index.toNat)

/-- The object that a type index resolves to: an initialised class whose one static field holds the
index. -/
def typeObject (index : UInt32) : Object :=
  .classRecord
    { descriptor := typeDescriptor index.toNat
      status := .initialized
      statics := #[index.toUInt64] }

/-- The object that a call site index resolves to. -/
def callSiteObject (index : UInt32) : Object := .callSite (callSiteTarget index.toNat)

/-! ### Fields

The native records of the fields stand in a table, one for each index. -/

/-- The offset of a field in its object, four bytes for each field before it, as long as it fits. -/
def fieldOffset (index : UInt32) : Except Fault UInt32 :=
  if index.toNat * 4 < UInt32.size then .ok (index * 4) else .error .productOverflow

/-- The native record of a field index. -/
def fieldRecord (index : UInt32) : Except Fault FieldRecord :=
  return { name := "f" ++ toString index.toNat, offset := ← fieldOffset index }

/-- The table of the first `ids` fields can be built if the record of the last of them can: the
offsets grow with the index. -/
def checkFieldTable (ids : UInt32) : Except Fault Unit :=
  if ids = 0 then .ok () else (fieldRecord (ids - 1)).map fun _ => ()

end LoadTest

/-- **Where the records of a table of fields stand.** All that is known of their addresses is that
none is null and that no two are the same. -/
structure FieldTable where
  /-- The address of the record of an index. -/
  address : UInt32 → Pointer
  ne_null : ∀ index, address index ≠ .null
  injective : ∀ i j, address i = address j → i = j

namespace FieldTable

/-- The address of a record if the records stand in a row, as far apart as pointers are. -/
def addressInRow (index : UInt32) : Pointer := .ofNat (8 * (index.toNat + 1))

theorem toNat_addressInRow (index : UInt32) :
    (addressInRow index).toNat = 8 * (index.toNat + 1) := by
  have below := index.toNat_lt
  show (BitVec.ofNat 64 (8 * (index.toNat + 1))).toNat = _
  rw [BitVec.toNat_ofNat]
  omega

/-- A table with its records in a row. -/
def inRow : FieldTable where
  address := addressInRow
  ne_null index := by
    rw [ne_eq, Address.eq_null_iff_toNat, toNat_addressInRow]
    omega
  injective i j same := by
    have numbers := congrArg Address.toNat same
    rw [toNat_addressInRow, toNat_addressInRow] at numbers
    exact UInt32.toNat_inj.mp (by omega)

end FieldTable

end ResolutionCache
