import ResolutionCache.LoadTest.Basic

/-!
# The collections of a load test

Between the rounds the mutators are at rest and everything that the cache does not hold is freed,
everything that it holds is moved. The cache must have exactly one root for each object that is
left, so as many roots are sent to new places as objects are moved.
-/

namespace ResolutionCache.LoadTest

variable {σ : Type}

/-- Leads a visitor over all roots of the cache and tells its last state. -/
def scan (v : Visitor 32 σ) (state : σ) : Attempt LoadTest σ := do
  let w ← get
  let (cache, changed, state) := w.resolver.cache.scan true v state
  onCache (Resolver.putCache cache)
  report (.scanned cache.file.location changed)
  return state

/-- **A full collection.** Frees what the roots do not hold, moves everything else, sends the roots
after it, and ends the epoch. Tells how many objects were moved and how many roots were sent. -/
def collectOnce : Attempt LoadTest (Nat × Nat) := do
  let marks ← scan MarkSet.marking {}
  let freed ← onHeap fun h =>
    let (freed, h) := h.sweep marks
    .ok freed h
  let moved ← onHeap (Heap.moveAllBy (← get).surroundings.order)
  report (.movedAllObjects moved)
  let forwarded ← scan (← get).heap.following 0
  onHeap (modify Heap.endEpoch)
  report (.collected (← get).heap.epoch freed moved forwarded)
  return (moved, forwarded)

/-- A full collection, which must send as many roots as it moves objects. -/
def collect : EStateM LoadTestError LoadTest Unit := do
  let (moved, forwarded) ← stoppingWith .fault collectOnce
  if forwarded ≠ moved then throw (.unbalanced moved forwarded)

end ResolutionCache.LoadTest
