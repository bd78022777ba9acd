/-!
# Cache identities

Every cache gets a number of its own, counting from one. A host's log and a dirty set name caches
by it.
-/

namespace ResolutionCache

/-- The number that tells a cache from all others. -/
structure CacheId where
  number : Nat
  deriving DecidableEq, Hashable

/-- The identity in its structural form. -/
def CacheId.debug (id : CacheId) : String :=
  "DexCacheId(" ++ toString id.number ++ ")"

end ResolutionCache
