import ResolutionCache.LoadTest.Audit
import ResolutionCache.LoadTest.Collection
import ResolutionCache.LoadTest.Turn

/-!
# Runs of a load test

A run prepares the heap and the cache, goes through its rounds and reports its figures. The mutators
of a round run one after another. Reports are made whether or not anybody listens, so the dirty set
is emptied in each round; nothing else in a load test looks at it. `LoadTest.run` tells the outcome
and, in both cases, everything that happened until then.
-/

namespace ResolutionCache.LoadTest

/-- The seed of a mutator: its number among all mutators of all rounds, counted from one, folded
into a constant with many bits set. -/
def seed (o : LoadTestOptions) (round thread : Nat) : UInt64 :=
  0x9e3779b97f4a7c15 ^^^ (round * o.threads + thread + 1).toUInt64

/-- The mutators of a round, one after another. -/
def turnsOfRound (o : LoadTestOptions) (round : Nat) : EStateM LoadTestError LoadTest Unit :=
  Attempt.forEach (fun thread =>
    stoppingWith (fun _ => .mutatorStopped)
      (turns o.iterations (.ofSeed (seed o round thread)))) o.threads 0

/-- Takes the caches remembered out of the dirty set and tells how many there were. -/
def takeDirty : EStateM LoadTestError LoadTest Nat := do
  let (ids, rest) := ((← get).resolver.dirty.getD {}).take
  modify fun w => { w with resolver := { w.resolver with dirty := some rest } }
  return ids.length

/-- One round: lookups, a collection, and a verification. -/
def round (o : LoadTestOptions) (number : Nat) : EStateM LoadTestError LoadTest Unit := do
  turnsOfRound o number
  let live := (← get).heap.size
  report (.roundOver number live (← takeDirty))
  collect
  let entries ← Attempt.inspect audit
  report (.verified number entries)

/-- A load test ready to run: the location is on the heap, the cache is new, and nothing has been
looked up yet. The cache's host has method handles and is no compiler. -/
def start (o : LoadTestOptions) (s : Surroundings := {}) : Except LoadTestError LoadTest :=
  match Heap.allocate (.string location) {} with
  | .error f _ => .error (.fault f)
  | .ok place heap =>
    let file : SymbolFile :=
      { location, strings := o.ids, types := o.ids, fields := o.ids, callSites := o.callSites }
    match Cache.create ⟨1⟩ file place o.capacities with
    | .error bad => .error (.badCapacity bad)
    | .ok cache =>
      .ok
        { surroundings := s
          heap
          resolver := { cache, host := {}, dirty := some {} }
          journal := #[.ofCreated cache] }

/-- All rounds, and the figures. The table of fields comes first. -/
def runRounds (o : LoadTestOptions) : EStateM LoadTestError LoadTest Unit := do
  Attempt.inspect fun _ => (checkFieldTable o.ids).mapError .fault
  Attempt.forEach (round o) o.rounds 0
  let w ← get
  report (.figures w.hits w.misses)

/-- Runs a load test, and tells what happened until it ended or stopped. -/
def run (o : LoadTestOptions) (s : Surroundings := {}) : Except LoadTestError Unit × Array Event :=
  match start o s with
  | .error e => (.error e, #[])
  | .ok w =>
    match runRounds o w with
    | .ok _ w => (.ok (), w.journal)
    | .error e w => (.error e, w.journal)

end ResolutionCache.LoadTest
