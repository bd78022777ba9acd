import Std.Data.HashSet
import ResolutionCache.Visitor

/-!
# Mark sets

The references that a marking pass was shown. Null is an element like any other: holders never show
it, but a caller may put it in.
-/

namespace ResolutionCache

/-- A set of references. -/
structure MarkSet where
  refs : Std.HashSet Ref := {}

namespace MarkSet

/-- The set with one more reference. -/
def insert (s : MarkSet) (r : Ref) : MarkSet := ⟨s.refs.insert r⟩

/-- Whether a reference was marked. -/
def contains (s : MarkSet) (r : Ref) : Bool := s.refs.contains r

/-- The number of distinct references marked. -/
def size (s : MarkSet) : Nat := s.refs.size

/-- Whether nothing was marked. -/
def isEmpty (s : MarkSet) : Bool := s.refs.isEmpty

/-- The visitor that marks what it is shown and changes nothing. -/
def marking : Visitor 32 MarkSet := fun r s => (r, s.insert r)

end MarkSet

end ResolutionCache
