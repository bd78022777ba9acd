import ResolutionCache.Index
import ResolutionCache.Slot

/-!
# Settings

The capacities of the five direct mapped tables of a cache. Each has a default and can be
overridden; an accepted capacity is a power of two and at least two, so that masking is taking the
remainder and every slot has a sentinel.
-/

namespace ResolutionCache

/-- The capacity of each direct mapped table. -/
structure Settings where
  string : UInt64 := 1024
  type : UInt64 := 1024
  methodType : UInt64 := 1024
  field : UInt64 := 1024
  method : UInt64 := 1024
  deriving DecidableEq

/-- Capacities to use in place of the defaults. -/
structure Overrides where
  string : Option UInt64 := none
  type : Option UInt64 := none
  methodType : Option UInt64 := none
  field : Option UInt64 := none
  method : Option UInt64 := none

/-- A capacity that cannot be used, with the kind it was meant for. -/
structure BadCapacity where
  kind : SlotKind
  capacity : UInt64
  deriving DecidableEq

/-- The complaint about a capacity that cannot be used. -/
def BadCapacity.message (e : BadCapacity) : String :=
  e.kind.label ++ " cache capacity " ++ toString e.capacity.toNat
    ++ " must be a power of two and at least 2"

namespace Settings

/-- The capacity of one kind. -/
def capacity (s : Settings) : SlotKind → UInt64
  | .string => s.string
  | .type => s.type
  | .methodType => s.methodType
  | .field => s.field
  | .method => s.method

/-- Whether a table can have this capacity. -/
def acceptable (capacity : UInt64) : Bool :=
  decide (2 ≤ capacity) && isPowerOfTwo capacity

/-- The complaint about the first kind, in the order of `SlotKind.all`, whose capacity cannot be
used. -/
def firstBad? (s : Settings) : Option BadCapacity :=
  SlotKind.all.findSome? fun kind =>
    if acceptable (s.capacity kind) then none else some ⟨kind, s.capacity kind⟩

/-- The defaults with the overrides in place, if every capacity can be used. -/
def ofOverrides (o : Overrides) : Except BadCapacity Settings :=
  let defaults : Settings := {}
  let s : Settings :=
    { string := o.string.getD defaults.string
      type := o.type.getD defaults.type
      methodType := o.methodType.getD defaults.methodType
      field := o.field.getD defaults.field
      method := o.method.getD defaults.method }
  match s.firstBad? with
  | some bad => .error bad
  | none => .ok s

end Settings

end ResolutionCache
