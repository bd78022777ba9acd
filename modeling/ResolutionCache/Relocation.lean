import ResolutionCache.Address

/-!
# Relocations

A relocation is a rule, given as data, that says where each address goes: everything stays, all
moves by one distance, all goes to one place, or single addresses are looked up in a table.
-/

namespace ResolutionCache

/-- A rule that sends addresses to addresses. -/
inductive Relocation (w : Nat) where
  /-- Every address stays. -/
  | stay
  /-- Every address moves up by a distance, wrapping around at the width of the address. -/
  | shift (distance : Nat)
  /-- Every address goes to one place. -/
  | constant (target : Address w)
  /-- The first pair that starts with the address says where it goes; other addresses stay. -/
  | table (moves : List (Address w × Address w))

namespace Relocation

variable {w : Nat}

/-- Where the rule sends an address. -/
def apply : Relocation w → Address w → Address w
  | stay, a => a
  | shift distance, a => .ofNat (a.toNat + distance)
  | constant target, _ => target
  | table moves, a => (moves.lookup a).getD a

/-- Where the rule sends the address of a native record, which must not become null: address one
stands in for null. -/
def applyNonNull (rule : Relocation w) (a : Address w) : Address w :=
  (rule.apply a).nonNull.getD (.ofNat 1)

end Relocation

end ResolutionCache
