import ResolutionCache.Proofs.Collection.Lookups

/-!
# Mutators

A mutator works on a cache by requests: it looks symbols up, stores references, clears symbols,
switches the overlay and opens and closes transactions. A reference that it stores is either made
for the purpose or one that a lookup has answered; what lookups have answered is good until the next
collection, and no longer.

A run of a mutator is a list of steps, requests with full collections between them. What the mutator
sees of it (`Session.trace`) is one observation for each request: the reply, in which references
stand for the objects that they lead to, or the fault, and the host as it is then.
-/

namespace ResolutionCache

/-- A cache at work on a heap, with what its lookups have answered since the last collection. -/
structure Session where
  heap : Heap
  resolver : Resolver
  /-- The answers of lookups since the last collection, the latest first. -/
  handles : List (Option Ref) := []

namespace Session

/-- Where a mutator has a reference from that it stores. -/
inductive Source where
  /-- A new object, allocated for the purpose. -/
  | fresh (object : Object)
  /-- The answer of a lookup, counted back from the latest. -/
  | held (back : Nat)

/-- What a mutator asks of a cache. -/
inductive Request where
  | find (kind : ReferenceKind) (index : UInt32)
  | store (kind : ReferenceKind) (index : UInt32) (source : Source)
  | clear (kind : SlotKind) (index : UInt32)
  | offerOverlay
  | withdrawOverlay
  | storeOverlay (index : UInt32) (source : Source)
  | begin
  | commit
  | rollback

/-- What a mutator is told. References are told by the objects that they lead to. -/
inductive Reply where
  | done
  | missed
  | found (object : Option Object)
  /-- Whether a candidate was taken, whether it is the one that stands, and which object stands. -/
  | claimed (won own : Bool) (object : Option Object)
  /-- The lookup whose answer was to be stored had missed. -/
  | nothingToStore

/-- Whether an object that a reply tells of is there. -/
def Reply.Live : Reply → Prop
  | .found object => object.isSome
  | .claimed _ _ object => object.isSome
  | _ => True

/-- A request of the mutator, or a full collection with the objects moving in some order. -/
inductive Step where
  | request (q : Request)
  | collection (s : Shuffle)

/-! ### Carrying requests out -/

variable {α β : Type}

/-- Runs an operation of the heap. -/
def onHeap (action : Attempt Heap α) : Attempt Session α := fun x =>
  match action x.heap with
  | .ok a heap => .ok a { x with heap }
  | .error e heap => .error e { x with heap }

/-- Runs an operation of the resolver. -/
def onCache (action : Attempt Resolver α) : Attempt Session α := fun x =>
  match action x.resolver with
  | .ok a resolver => .ok a { x with resolver }
  | .error e resolver => .error e { x with resolver }

/-- Looks a symbol up and keeps the answer. -/
def find (kind : ReferenceKind) (index : UInt32) : Attempt Session Reply := fun x =>
  match x.resolver.find kind index with
  | .error f => .error f { x with handles := none :: x.handles }
  | .ok none => .ok .missed { x with handles := none :: x.handles }
  | .ok (some r) => .ok (.found x.heap.objects[r]?) { x with handles := some r :: x.handles }

/-- The reference to be stored. -/
def supply : Source → Attempt Session (Option Ref)
  | .fresh object => do return some (← onHeap (Heap.allocate object))
  | .held back => do return (← get).handles[back]?.join

/-- Whether a candidate would be taken. -/
def wins (r : Resolver) (index : UInt32) (candidate : Ref) : Bool :=
  match r.cache.callSites.outcome index.toNat candidate with
  | .ok outcome => outcome.isTaken
  | .error _ => false

/-- Claims a call site. -/
def claim (index : UInt32) (candidate : Ref) : Attempt Session Reply := do
  let won := wins (← get).resolver index candidate
  let standing ← onCache (Resolver.setCallSite index candidate)
  return .claimed won (standing = candidate) (← get).heap.objects[standing]?

/-- Stores a reference. -/
def store : ReferenceKind → UInt32 → Ref → Attempt Session Reply
  | .string, index, r => do onCache (Resolver.set .string index r); return .done
  | .type, index, r => do onCache (Resolver.set .type index r); return .done
  | .methodType, index, r => do onCache (Resolver.set .methodType index r); return .done
  | .callSite, index, r => claim index r

/-- Gets a reference and does something with it, if there is one. -/
def storing (source : Source) (action : Ref → Attempt Session Reply) : Attempt Session Reply := do
  match ← supply source with
  | none => return .nothingToStore
  | some r => action r

/-- Carries a request out. -/
def carryOut : Request → Attempt Session Reply
  | .find kind index => find kind index
  | .store kind index source => storing source (store kind index)
  | .clear kind index => do onCache (Resolver.clear kind index); return .done
  | .offerOverlay => do onCache Resolver.offerOverlay; return .done
  | .withdrawOverlay => do onCache Resolver.withdrawOverlay; return .done
  | .storeOverlay index source =>
    storing source fun r => do onCache (Resolver.setOverlay index r); return .done
  | .begin => do onCache Resolver.begin; return .done
  | .commit => do onCache Resolver.commit; return .done
  | .rollback => do onCache Resolver.rollback; return .done

/-- What a collection works on. -/
def estate (x : Session) : Estate := ⟨x.heap, [x.resolver.cache]⟩

/-- The session after a collection. Answers of earlier lookups are not good any more. -/
def collected (x : Session) (e : Estate) : Session where
  heap := e.heap
  resolver := { x.resolver with cache := e.caches.headD x.resolver.cache }

/-- A full collection. -/
def collect (s : Shuffle) : Attempt Session Unit := fun x =>
  match x.estate.collect s with
  | .ok _ e => .ok () (x.collected e)
  | .error f e => .error f (x.collected e)

/-- One step; a collection has no reply. -/
def perform : Step → Attempt Session (Option Reply)
  | .request q => do return some (← carryOut q)
  | .collection s => do collect s; return none

/-! ### Runs -/

/-- What a mutator sees of a request: the reply or the fault, and the host's flags and log. -/
structure Observation where
  reply : Except Fault Reply
  host : Host

/-- What a mutator sees of a run. A fault ends its request, not the run. -/
def trace : List Step → Session → List Observation
  | [], _ => []
  | step :: rest, x =>
    match perform step x with
    | .ok (some reply) y => ⟨.ok reply, y.resolver.host⟩ :: trace rest y
    | .ok none y => trace rest y
    | .error f y => ⟨.error f, y.resolver.host⟩ :: trace rest y

/-- A run never asks for a place in vain. -/
def Spacious : List Step → Session → Prop
  | [], _ => True
  | step :: rest, x =>
    match perform step x with
    | .ok _ y => Spacious rest y
    | .error f y => f ≠ .spaceExhausted ∧ Spacious rest y

/-- The requests among the steps. -/
def requests : List Step → List Request
  | [] => []
  | .request q :: rest => q :: requests rest
  | .collection _ :: rest => requests rest

/-- A source can be used after `lookups` lookups since the last collection. -/
def Source.Available (lookups : Nat) : Source → Prop
  | .fresh _ => True
  | .held back => back < lookups

/-- A request stores only what it may, `lookups` lookups after the last collection. -/
def Request.Allowed (lookups : Nat) : Request → Prop
  | .store _ _ source => source.Available lookups
  | .storeOverlay _ source => source.Available lookups
  | _ => True

/-- The number of lookups that a request makes. -/
def Request.lookups : Request → Nat
  | .find _ _ => 1
  | _ => 0

/-- **The rule for mutators:** what a lookup answered is stored before the next collection or
never. -/
def Disciplined : (lookups : Nat) → List Step → Prop
  | _, [] => True
  | lookups, .request q :: rest => q.Allowed lookups ∧ Disciplined (lookups + q.lookups) rest
  | _, .collection _ :: rest => Disciplined 0 rest

end Session

end ResolutionCache
