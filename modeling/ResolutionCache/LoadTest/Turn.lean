import ResolutionCache.LoadTest.Basic
import ResolutionCache.LoadTest.Generator
import ResolutionCache.LoadTest.Symbols

/-!
# The turns of a mutator

A mutator takes turns. In each it draws an index, looks up the string, the type and the field of
that index, and resolves what misses; the lookups are counted as hits and misses. Then it draws an
index among the call sites, if there are any, and binds the call site unless it is bound.
-/

namespace ResolutionCache.LoadTest

/-- Counts a lookup. -/
def count (hit : Bool) : Attempt LoadTest Unit :=
  modify fun w => if hit then { w with hits := w.hits + 1 } else { w with misses := w.misses + 1 }

/-- Looks an index up, and counts whether it hit. -/
def isCached (kind : SlotKind) (index : UInt32) : Attempt LoadTest Bool := do
  let found ← onCache (Attempt.inspect (Resolver.get · kind index))
  count found.isSome
  return found.isSome

/-- Looks a string up, and resolves it on a miss. -/
def useString (index : UInt32) : Attempt LoadTest Unit := do
  unless ← isCached .string index do
    let string ← onHeap (Heap.allocate (stringObject index))
    onCache (Resolver.set .string index string)

/-- Looks a type up, and resolves it on a miss. -/
def useType (index : UInt32) : Attempt LoadTest Unit := do
  unless ← isCached .type index do
    let type ← onHeap (Heap.allocate (typeObject index))
    onCache (Resolver.set .type index type)

/-- Looks a field up, and resolves it on a miss. -/
def useField (index : UInt32) : Attempt LoadTest Unit := do
  unless ← isCached .field index do
    let w ← get
    onCache (Resolver.set .field index (w.surroundings.fields.address index))

/-- Looks a call site up, and binds it on a miss. These lookups are not counted. -/
def useCallSite (index : UInt32) : Attempt LoadTest Unit := do
  let found ← onCache (Attempt.inspect (Resolver.getCallSite · index))
  if found.isNone then
    let callSite ← onHeap (Heap.allocate (callSiteObject index))
    let _ ← onCache (Resolver.setCallSite index callSite)

/-- One iteration: the string, the type and the field of one index, and then, if the file has call
sites, the call site of another. -/
def turn (g : Generator) : Attempt LoadTest Generator := do
  let file := (← get).resolver.cache.file
  let (index, g) ← Attempt.inspect fun _ => g.next file.strings
  useString index
  useType index
  useField index
  if file.callSites = 0 then return g
  let (index, g) ← Attempt.inspect fun _ => g.next file.callSites
  useCallSite index
  return g

/-- A mutator: a number of iterations, each with the generator that the one before has left. -/
def turns : (iterations : Nat) → Generator → Attempt LoadTest Unit
  | 0, _ => pure ()
  | iterations + 1, g => do
    let g ← turn g
    turns iterations g

end ResolutionCache.LoadTest
