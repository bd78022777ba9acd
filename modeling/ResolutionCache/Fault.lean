import ResolutionCache.Index

/-!
# Faults

An operation whose precondition fails stops with a *fault*. A fault names the cause, with the
numbers that the report of it needs; the wording is in `Fault.message` alone. What an operation has
already changed when it stops stays changed, so operations that can change something before their
last check return their state beside the fault.
-/

namespace ResolutionCache

/-- The causes for which an operation stops. -/
inductive Fault where
  /-- An index at or above the number of symbols that the file has in its space. -/
  | outOfRange (space : IndexSpace) (index : UInt32)
  /-- A null address was to be stored in a slot or in the overlay. -/
  | nullPayload
  /-- A null reference was to be claimed. -/
  | nullCandidate
  /-- Only the ahead-of-time compiler may do this. -/
  | notCompiler
  /-- Method types and call sites exist only with method handles. -/
  | noMethodHandles
  /-- The mask of a capacity is meaningful only for a power of two. -/
  | capacityNotPowerOfTwo
  /-- The slot of an index lies past the slots held for its kind. -/
  | slotNotHeld (kind : SlotKind)
  /-- An access past the end of a table. -/
  | outOfBounds (size index : Nat)
  /-- The destination of a relocating copy differs in size from the table. -/
  | sizeMismatch (destination table : Nat)
  /-- A transaction was to be opened outside the compiler. -/
  | transactionOutsideCompiler
  /-- A transaction was to be opened inside another. -/
  | nestedTransaction
  /-- A pre-resolved string was to be stored outside the compiler. -/
  | overlayOutsideCompiler
  /-- A pre-resolved string was to be stored inside a transaction. -/
  | overlayInTransaction
  /-- A pre-resolved string was to be stored while the overlay is off. -/
  | overlayOff
  /-- No address is left for an object. -/
  | spaceExhausted
  /-- A product does not fit its word. -/
  | productOverflow
  /-- A remainder by zero. -/
  | zeroDivisor
  deriving DecidableEq

namespace Fault

/-- The expression that counts the slots of a kind, as the report of `slotNotHeld` quotes it. -/
def slotCountExpression : SlotKind → String
  | .string => "self.num_strings()"
  | .type => "self.num_resolved_types()"
  | .methodType => "self.num_resolved_method_types()"
  | .field => "self.num_resolved_fields()"
  | .method => "self.num_resolved_methods()"

/-- The report of a condition, quoted as it stands, that should have held. -/
def unmet (condition : String) : String :=
  "assertion failed: " ++ condition

/-- The report of a fault. -/
def message : Fault → String
  | outOfRange space index => space.display index ++ " out of range"
  | nullPayload => unmet "!resolved.is_null()"
  | nullCandidate => unmet "!candidate.is_null()"
  | notCompiler => unmet "self.runtime.is_aot_compiler()"
  | noMethodHandles => unmet "self.runtime.is_method_handles_enabled()"
  | capacityNotPowerOfTwo => unmet "capacity.is_power_of_two()"
  | slotNotHeld kind => unmet ("slot < " ++ slotCountExpression kind)
  | outOfBounds size index =>
    "index out of bounds: the len is " ++ toString size ++ " but the index is " ++ toString index
  | sizeMismatch destination table =>
    "assertion `left == right` failed: fixup destination size mismatch\n  left: "
      ++ toString destination ++ "\n right: " ++ toString table
  | transactionOutsideCompiler => "transactions only exist in the aot compiler"
  | nestedTransaction => "nested transaction"
  | overlayOutsideCompiler => "pre-resolved strings are written by the aot compiler only"
  | overlayInTransaction => "pre-resolved strings cannot be written inside a transaction"
  | overlayOff => "pre-resolved strings are not enabled"
  | spaceExhausted => "object space exhausted"
  | productOverflow => "attempt to multiply with overflow"
  | zeroDivisor => "attempt to calculate the remainder with a divisor of zero"

end Fault

end ResolutionCache
