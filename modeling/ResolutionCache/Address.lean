/-!
# Addresses

An address is a word of `w` bits that names an object, and the zero word, the *null* address, names
nothing. Managed objects have 32-bit addresses (`Ref`), native records 64-bit ones (`Pointer`). The
collector may move a managed object, so a `Ref` is stable only between two of its passes.
-/

namespace ResolutionCache

/-- A word of `w` bits that names an object, or nothing if it is zero. -/
structure Address (w : Nat) where
  /-- The word itself. -/
  bits : BitVec w
  deriving DecidableEq, Hashable

/-- A compressed reference to a managed object. -/
abbrev Ref := Address 32

/-- The address of a native record. -/
abbrev Pointer := Address 64

namespace Address

variable {w : Nat}

/-- The address that names nothing. -/
def null : Address w := ⟨0⟩

instance : Inhabited (Address w) := ⟨null⟩

/-- The address with number `n`, reduced to `w` bits. -/
def ofNat (n : Nat) : Address w := ⟨BitVec.ofNat w n⟩

/-- The address as a number. -/
def toNat (a : Address w) : Nat := a.bits.toNat

/-- Whether the address names nothing. -/
def isNull (a : Address w) : Bool := a.bits == 0

/-- The address, unless it names nothing. -/
def nonNull (a : Address w) : Option (Address w) :=
  if a.isNull then none else some a

/-- The address as a hexadecimal number in lower case, without leading zeros. -/
def hex (a : Address w) : String :=
  "0x" ++ String.ofList (Nat.toDigits 16 a.toNat)

@[simp] theorem isNull_iff (a : Address w) : a.isNull = true ↔ a = null := by
  cases a; simp [isNull, null]

@[simp] theorem nonNull_null : (null : Address w).nonNull = none := by
  simp [nonNull]

theorem nonNull_eq_some_iff {a b : Address w} : a.nonNull = some b ↔ a = b ∧ a ≠ null := by
  by_cases h : a = null <;> simp [nonNull, h]

theorem toNat_inj {a b : Address w} : a.toNat = b.toNat ↔ a = b := by
  obtain ⟨a⟩ := a
  obtain ⟨b⟩ := b
  simp [toNat, BitVec.toNat_inj]

theorem eq_null_iff_toNat {a : Address w} : a = null ↔ a.toNat = 0 := by
  rw [← toNat_inj]
  simp [toNat, null]

end Address

namespace Ref

/-- A typed reference in its structural form. -/
def debug (r : Ref) : String :=
  if r.isNull then "HeapRef(null)" else "HeapRef(" ++ r.hex ++ ")"

/-- A reference stripped of its type, in its structural form. -/
def debugRaw (r : Ref) : String :=
  "RawRef(" ++ toString r.toNat ++ ")"

end Ref

end ResolutionCache
