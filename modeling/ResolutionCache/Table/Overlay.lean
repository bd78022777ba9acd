import ResolutionCache.Table.ClaimTable
import ResolutionCache.Text.Record

/-!
# The overlay of pre-resolved strings

The ahead-of-time compiler can put an array in front of the direct mapped strings, with one entry
for each string index. The array is taken into use once and then used again: switching the overlay
off only withdraws it, first the array and then the count, and switching it on empties the array
before it is offered again.

The two halves are tested apart. A lookup or a store looks at the count first and then at the
array; a collector's pass looks at the array alone. An entry that is out of reach is a plain miss.
-/

namespace ResolutionCache

/-- An array of references that answers before the direct mapped strings while it is offered. -/
structure Overlay where
  /-- The number of string indices, which is the size of the array whenever there is one. -/
  size : Nat
  /-- Whether the array is offered. -/
  offered : Bool := false
  /-- The number of entries announced to readers. -/
  count : Nat := 0
  /-- The array, once the overlay has been switched on for the first time. -/
  storage : Option (Array Ref) := none
  deriving DecidableEq

namespace Overlay

variable {σ : Type}

/-- The overlay for `size` string indices, switched off. -/
def ofSize (size : Nat) : Overlay := { size }

/-- Offers an array without any string in it, the same array each time. -/
def offer (o : Overlay) : Overlay :=
  let array := o.storage.getD (Array.replicate o.size .null)
  { o with storage := some (array.map fun _ => .null), offered := true, count := o.size }

/-- Withdraws the array. -/
def withdraw (o : Overlay) : Overlay := { o with offered := false, count := 0 }

/-! ### Single strings -/

/-- Whether a reader or writer can get at the entry of `index`. -/
def reaches (o : Overlay) (index : Nat) : Bool :=
  o.count != 0 && o.offered && decide (index < o.size)

/-- The string stored for `index`, if the entry can be reached and holds one. -/
def lookup (o : Overlay) (index : Nat) : Option Ref :=
  if o.reaches index then (o.storage.getD #[])[index]? >>= Address.nonNull else none

/-- Stores a string for `index`; `none` if the entry cannot be reached. -/
def put? (o : Overlay) (index : Nat) (string : Ref) : Option Overlay :=
  if o.reaches index then
    some { o with storage := o.storage.map (·.setIfInBounds index string) }
  else none

/-- A withdrawn overlay answers nothing. -/
@[simp] theorem lookup_withdraw (o : Overlay) (index : Nat) : o.withdraw.lookup index = none := by
  simp [withdraw, lookup, reaches]

/-- **An overlay just offered answers nothing,** whatever it held when it was offered before. -/
@[simp] theorem lookup_offer (o : Overlay) (index : Nat) : o.offer.lookup index = none := by
  simp only [lookup, offer, Option.getD_some, Array.getElem?_map]
  cases (o.storage.getD (Array.replicate o.size .null))[index]? <;> simp

/-! ### Passes over all entries -/

/-- The array as a collector finds it: absent unless offered. -/
def entries? (o : Overlay) : Option (Array Ref) :=
  if o.offered then o.storage else none

/-- Shows every string of an offered array to a visitor, in index order, and keeps its answers. -/
def scan (v : Visitor 32 σ) (o : Overlay) : StateM σ Overlay :=
  match o.entries? with
  | none => pure o
  | some array => return { o with storage := some (← v.meetAll array) }

/-- Copies every entry of an offered array over a destination of the same size, each string
replaced by the visitor's answer. While the overlay is off the destination is left alone, whatever
its size. -/
def copyInto (o : Overlay) (v : Visitor 32 σ) (destination : Array Ref) (state : σ) :
    Except Fault (Array Ref × σ) :=
  match o.entries? with
  | none => .ok (destination, state)
  | some array =>
    if destination.size = array.size then .ok (v.meetAll array state)
    else .error (.sizeMismatch destination.size array.size)

/-- The overlay in its structural form. -/
def debug (o : Overlay) : String :=
  Text.record "PreResolvedStrings"
    [("enabled", Text.truth o.offered), ("count", toString o.count), ("len", toString o.size)]

end Overlay

end ResolutionCache
