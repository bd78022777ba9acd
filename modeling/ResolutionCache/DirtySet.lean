import Std.Data.HashSet
import ResolutionCache.CacheId

/-!
# Dirty sets

The write barrier of a cache is coarse: after a write the whole cache may refer to younger objects.
A dirty set remembers the caches written since a collector last took it over.
-/

namespace ResolutionCache

/-- The caches written since the set was last taken. -/
structure DirtySet where
  ids : Std.HashSet CacheId := {}

namespace DirtySet

/-- Remembers a cache. -/
def insert (s : DirtySet) (id : CacheId) : DirtySet := ⟨s.ids.insert id⟩

/-- Whether a cache is remembered. -/
def contains (s : DirtySet) (id : CacheId) : Bool := s.ids.contains id

/-- The number of caches remembered. -/
def size (s : DirtySet) : Nat := s.ids.size

/-- Whether no cache is remembered. -/
def isEmpty (s : DirtySet) : Bool := s.ids.isEmpty

/-- The caches remembered, by ascending number, and the set that remembers none. -/
def take (s : DirtySet) : List CacheId × DirtySet :=
  (s.ids.toList.mergeSort fun a b => a.number ≤ b.number, {})

end DirtySet

end ResolutionCache
