import ResolutionCache.Event
import ResolutionCache.Heap.Basic
import ResolutionCache.LoadTest.Symbols
import ResolutionCache.Resolver

/-!
# Load tests

A load test puts one cache under load. In every round, mutators look up pseudo-random indices and
resolve those that miss; then everything unreachable from the cache is freed, everything else is
moved, and the cache's roots are sent after it; then every cached entry is looked at, whether it
leads to the live object that belongs to its index. In the end the hits and misses are reported.

This module has the sizes of a load test, the reasons for which one stops early, its surroundings,
its state, and the ways to work on the parts of the state.
-/

namespace ResolutionCache

/-- Why a load test stops early. -/
inductive LoadTestError where
  /-- A capacity cannot be used. -/
  | badCapacity (bad : BadCapacity)
  /-- A fault outside the mutators. -/
  | fault (f : Fault)
  /-- A fault in a mutator. -/
  | mutatorStopped
  /-- A collection moved more or fewer objects than it sent roots after them. -/
  | unbalanced (moved sent : Nat)
  | deadString (index : Nat)
  | wrongString (index : Nat) (text : String)
  | deadType (index : Nat)
  | unresolvedType (index : Nat)
  | wrongType (index : Nat) (descriptor : String)
  | deadCallSite (index : Nat)
  deriving DecidableEq

/-- The wording of an error. -/
def LoadTestError.message : LoadTestError → String
  | badCapacity bad => bad.message
  | fault f => f.message
  | mutatorStopped => "mutator thread panicked"
  | unbalanced moved sent =>
    toString moved ++ " objects moved but " ++ toString sent ++ " roots rewritten"
  | deadString index => "string " ++ toString index ++ " points at a dead object"
  | wrongString index text => "string " ++ toString index ++ " resolved to " ++ Text.quoted text
  | deadType index => "type " ++ toString index ++ " points at a dead object"
  | unresolvedType index => "type " ++ toString index ++ " was published unresolved"
  | wrongType index descriptor => "type " ++ toString index ++ " resolved to " ++ descriptor
  | deadCallSite index => "call site " ++ toString index ++ " points at a dead object"

/-- The sizes of a load test. -/
structure LoadTestOptions where
  /-- Mutators in each round. -/
  threads : Nat := 4
  /-- Iterations of each mutator. -/
  iterations : Nat := 20000
  rounds : Nat := 3
  /-- Indices of strings, types and fields. -/
  ids : UInt32 := 4096
  callSites : UInt32 := 256
  capacities : Overrides := {}

/-- **What a load test finds as it is and cannot choose.** The collections of a load test never list
the same place twice, so one shuffle stands for any orders in which they happen to list places. -/
structure Surroundings where
  /-- The order in which a collection moves the objects. -/
  order : Shuffle := .asListed
  /-- Where the records of the fields stand. -/
  fields : FieldTable := .inRow

/-- A heap, a cache at work on it, the counts of its lookups, and what happened so far. -/
structure LoadTest where
  surroundings : Surroundings
  heap : Heap
  resolver : Resolver
  hits : UInt64 := 0
  misses : UInt64 := 0
  /-- What happened, oldest first. -/
  journal : Array Event := #[]

namespace LoadTest

variable {α ε : Type}

/-- Runs an operation of the heap. -/
def onHeap (action : EStateM ε Heap α) : EStateM ε LoadTest α := fun w =>
  let heap := w.heap
  let rest := { w with heap := {} }
  match action heap with
  | .ok a heap => .ok a { rest with heap }
  | .error e heap => .error e { rest with heap }

/-- Runs an operation of the cache's resolver. -/
def onCache (action : EStateM ε Resolver α) : EStateM ε LoadTest α := fun w =>
  match action w.resolver with
  | .ok a resolver => .ok a { w with resolver }
  | .error e resolver => .error e { w with resolver }

/-- Adds an event to the journal. -/
def report (event : Event) : EStateM ε LoadTest Unit :=
  modify fun w => { w with journal := w.journal.push event }

/-- An operation whose faults stop the load test for one reason. -/
def stoppingWith {β : Type} (reason : Fault → β) (action : Attempt LoadTest α) :
    EStateM β LoadTest α := fun w =>
  match action w with
  | .ok a w => .ok a w
  | .error f w => .error (reason f) w

end LoadTest

end ResolutionCache
