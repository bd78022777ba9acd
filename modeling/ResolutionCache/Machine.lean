import ResolutionCache.Event
import ResolutionCache.Heap.Basic
import ResolutionCache.Resolver

/-!
# Machines

A whole system: one heap, and any number of hosts, dirty sets, mark sets and caches, each named by
its number in order of creation. A cache is bound for good to the host it asks and to the dirty set
that its barrier feeds; several caches may share either.

An operation on one cache is an operation of its resolver: the machine puts the resolver together,
runs it, and puts its parts back, also when it stopped with a fault (`Machine.onCache`). What
happened is noted in the journal. A number that names nothing is no fault: the operation has no
result then and changes nothing.
-/

namespace ResolutionCache

/-- A cache with the numbers of its host and, if its writes are remembered, of its dirty set. -/
structure Tenant where
  cache : Cache
  host : Nat
  dirty : Option Nat

/-- A heap with the hosts, dirty sets, mark sets and caches that share it. -/
structure Machine where
  heap : Heap := {}
  hosts : Array Host := #[]
  dirtySets : Array DirtySet := #[]
  markSets : Array MarkSet := #[]
  tenants : Array Tenant := #[]
  /-- The number of the next cache to be created. -/
  nextId : Nat := 1
  /-- What happened, oldest first. -/
  journal : Array Event := #[]

namespace Machine

/-- An operation on a machine. It has no result if it names something that is not there. -/
abbrev Operation (α : Type) := OptionT (Attempt Machine) α

variable {α σ : Type}

/-- Adds an event to the journal. -/
def report (event : Event) : Operation Unit :=
  modify fun m => { m with journal := m.journal.push event }

/-! ### Parts by number -/

/-- The cache of a number, together with its host and its dirty set. -/
def resolver? (m : Machine) (number : Nat) : Option Resolver := do
  let tenant ← m.tenants[number]?
  let host ← m.hosts[tenant.host]?
  match tenant.dirty with
  | none => return { cache := tenant.cache, host, dirty := none }
  | some dirty => return { cache := tenant.cache, host, dirty := some (← m.dirtySets[dirty]?) }

/-- Puts a cache back, together with its host and its dirty set. -/
def keep (m : Machine) (number : Nat) (r : Resolver) : Machine :=
  match m.tenants[number]? with
  | none => m
  | some tenant =>
    { m with
      tenants := m.tenants.setIfInBounds number { tenant with cache := r.cache }
      hosts := m.hosts.setIfInBounds tenant.host r.host
      dirtySets :=
        match tenant.dirty, r.dirty with
        | some number, some dirty => m.dirtySets.setIfInBounds number dirty
        | _, _ => m.dirtySets }

/-- Runs an operation of a cache's resolver. -/
def onCache (number : Nat) (action : Attempt Resolver α) : Operation α :=
  OptionT.mk fun m =>
    match m.resolver? number with
    | none => .ok none m
    | some r =>
      match action r with
      | .ok a r => .ok (some a) (m.keep number r)
      | .error e r => .error e (m.keep number r)

/-- Runs an operation of the heap. -/
def onHeap (action : Attempt Heap α) : Operation α :=
  OptionT.mk fun m =>
    let heap := m.heap
    let rest := { m with heap := {} }
    match action heap with
    | .ok a heap => .ok (some a) { rest with heap }
    | .error e heap => .error e { rest with heap }

/-- Replaces a host by what a check on it answers. -/
def onHost (number : Nat) (action : Host → Except Fault Host) : Operation Unit :=
  OptionT.mk fun m =>
    match m.hosts[number]? with
    | none => .ok none m
    | some host =>
      match action host with
      | .ok host => .ok (some ()) { m with hosts := m.hosts.setIfInBounds number host }
      | .error e => .error e m

/-- What is found in an array under a number. -/
def pick (part : Machine → Array α) (number : Nat) : Operation α :=
  OptionT.mk do return (part (← MonadState.get))[number]?

/-- The cache of a number, alone. -/
def cache (number : Nat) : Operation Cache := do
  return (← pick Machine.tenants number).cache

/-! ### New parts -/

/-- Adds a host and tells its number. -/
def addHost (host : Host) : Operation Nat := do
  modify fun m => { m with hosts := m.hosts.push host }
  return (← MonadState.get).hosts.size - 1

/-- Adds an empty dirty set and tells its number. -/
def addDirtySet : Operation Nat := do
  modify fun m => { m with dirtySets := m.dirtySets.push {} }
  return (← MonadState.get).dirtySets.size - 1

/-- Adds an empty mark set and tells its number. -/
def addMarkSet : Operation Nat := do
  modify fun m => { m with markSets := m.markSets.push {} }
  return (← MonadState.get).markSets.size - 1

/-- Creates a cache on a host and tells its number and its identity. Capacities that cannot be used
are reported back, and no identity is spent on them. -/
def addCache (file : SymbolFile) (location : Ref) (overrides : Overrides) (host : Nat)
    (dirty : Option Nat) : Operation (Except BadCapacity (Nat × CacheId)) := do
  let _ ← pick Machine.hosts host
  if let some number := dirty then
    let _ ← pick Machine.dirtySets number
  let m ← MonadState.get
  let id : CacheId := ⟨m.nextId⟩
  match Cache.create id file location overrides with
  | .error bad => return .error bad
  | .ok cache =>
    set { m with tenants := m.tenants.push { cache, host, dirty }, nextId := m.nextId + 1 }
    report (.ofCreated cache)
    return .ok (m.tenants.size, id)

/-! ### Hosts and transactions -/

/-- Closes a host's transaction and makes a cache forget the strings that the host logged for it,
the last one first. The cache does so under the rules of its own host, which may be another one. -/
def rollback (host number : Nat) : Operation Unit := do
  let h ← pick Machine.hosts host
  let c ← cache number
  let recorded := h.recorded c.id
  onHost host fun h => .ok (h.withdraw c.id)
  report (.rollingBack recorded.length c.file.location)
  onCache number (Resolver.clearStrings recorded)

/-- Notes on a host that a cache resolved a string. -/
def record (host number : Nat) (index : UInt32) : Operation Unit := do
  let c ← cache number
  onHost host fun h => .ok (h.record c.id index)

/-! ### Dirty sets and mark sets -/

/-- Remembers a cache in a dirty set, whether or not it is the cache's own. -/
def remember (dirty number : Nat) : Operation Unit := do
  let c ← cache number
  let s ← pick Machine.dirtySets dirty
  modify fun m => { m with dirtySets := m.dirtySets.setIfInBounds dirty (s.insert c.id) }

/-- Takes the caches remembered out of a dirty set. -/
def takeDirty (dirty : Nat) : Operation (List CacheId) := do
  let (ids, s) := (← pick Machine.dirtySets dirty).take
  modify fun m => { m with dirtySets := m.dirtySets.setIfInBounds dirty s }
  return ids

/-- Replaces a mark set. -/
def putMarks (number : Nat) (marks : MarkSet) : Operation Unit :=
  modify fun m => { m with markSets := m.markSets.setIfInBounds number marks }

/-- Adds references to a mark set. -/
def mark (number : Nat) (refs : List Ref) : Operation MarkSet := do
  let marks := refs.foldl MarkSet.insert (← pick Machine.markSets number)
  putMarks number marks
  return marks

/-! ### The heap -/

/-- Moves one object and tells its new place. -/
def move (r : Ref) : Operation (Option Ref) := do
  let moved ← onHeap (Heap.move r)
  if let some target := moved then report (.movedObject r target)
  return moved

/-- Moves every object and tells how many there were. -/
def moveAll : Operation Nat := do
  let count ← onHeap Heap.moveAll
  report (.movedAllObjects count)
  return count

/-- Frees every object that a mark set does not hold, and tells how many were freed. -/
def sweep (number : Nat) : Operation Nat := do
  let marks ← pick Machine.markSets number
  onHeap fun h =>
    let (freed, h) := h.sweep marks
    .ok freed h

/-- Ends a collection and tells the epoch that begins. -/
def endEpoch : Operation UInt64 :=
  onHeap fun h =>
    let h := h.endEpoch
    .ok h.epoch h

/-- Sends references to where their objects went, and tells how many were sent. -/
def follow (refs : List Ref) : Operation (List Ref × Nat) := do
  let h := (← MonadState.get).heap
  return (refs.mapM h.following : StateM Nat (List Ref)) 0

/-! ### Passes over a cache -/

/-- Leads a visitor over the roots of a cache and tells its last state. -/
def scan (number : Nat) (withTables : Bool) (v : Visitor 32 σ) (state : σ) : Operation σ := do
  let (location, changed, state) ← onCache number do
    let r ← MonadState.get
    let (c, changed, state) := r.cache.scan withTables v state
    Resolver.putCache c
    return (c.file.location, changed, state)
  report (.scanned location changed)
  return state

/-- Marks the roots of a cache in a mark set. -/
def markRoots (number : Nat) (withTables : Bool) (marks : Nat) : Operation MarkSet := do
  let s ← pick Machine.markSets marks
  let s ← scan number withTables MarkSet.marking s
  putMarks marks s
  return s

/-- Sends the roots of a cache to where their objects went, and tells how many were sent. -/
def followRoots (number : Nat) (withTables : Bool) : Operation Nat := do
  let h := (← MonadState.get).heap
  scan number withTables h.following 0

/-- Copies a table of a cache, relocated, over a destination. -/
def copyTable (number : Nat) (kind : SlotKind) (v : Visitor kind.width σ)
    (destination : Array (Entry kind.width)) (state : σ) :
    Operation (Array (Entry kind.width) × σ) := do
  let c ← cache number
  let copied ← onCache number (Attempt.inspect fun r =>
    (r.cache.table kind).copyInto v destination state)
  report (.copied kind destination.size c.file.location)
  return copied

/-- Copies the call sites of a cache, relocated, over a destination. -/
def copyCallSites (number : Nat) (v : Visitor 32 σ) (destination : Array Ref) (state : σ) :
    Operation (Array Ref × σ) := do
  let c ← cache number
  let copied ← onCache number (Attempt.inspect fun r =>
    r.cache.callSites.copyInto v destination state)
  report (.copiedCallSites destination.size c.file.location)
  return copied

/-- Copies the overlay of a cache, relocated, over a destination. -/
def copyOverlay (number : Nat) (v : Visitor 32 σ) (destination : Array Ref) (state : σ) :
    Operation (Array Ref × σ) :=
  onCache number (Attempt.inspect fun r => r.cache.overlay.copyInto v destination state)

/-! ### The overlay of a cache -/

/-- Switches a cache's overlay on. -/
def offerOverlay (number : Nat) : Operation Unit := do
  onCache number Resolver.offerOverlay
  let c ← cache number
  report (.overlayOffered c.file.strings.toNat c.file.location)

/-- Switches a cache's overlay off. -/
def withdrawOverlay (number : Nat) : Operation Unit := do
  onCache number Resolver.withdrawOverlay
  report (.overlayWithdrawn (← cache number).file.location)

end Machine

end ResolutionCache
