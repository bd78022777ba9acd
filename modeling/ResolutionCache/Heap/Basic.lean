import Std.Data.HashMap
import ResolutionCache.Attempt
import ResolutionCache.Heap.MarkSet
import ResolutionCache.Object
import ResolutionCache.Text.Record

/-!
# The moving heap

Objects live behind compressed references. Every new place, for a new object or for one that moves,
is the next multiple of eight; places are not used twice. An object that moves leaves a *forwarding*
entry behind, from its old place to its new one, until the collection finishes; then the forwarding
entries are dropped and the next epoch begins.

Moving every object takes them in some order, and the order decides which object gets which place.
`Heap.moveAllBy` lets somebody choose it (`Shuffle`); `Heap.moveAll` uses the order in which the
heap happens to list its objects.
-/

namespace ResolutionCache

/-- **A way to list references.** A hash map may list its keys in any order; a shuffle stands for
the order that it happens to choose. -/
structure Shuffle where
  /-- The list in the order chosen. -/
  apply : List Ref → List Ref
  /-- Nothing is lost and nothing is invented. -/
  perm : ∀ refs, (apply refs).Perm refs

namespace Shuffle

/-- The order in which the list stands. -/
def asListed : Shuffle := ⟨id, fun _ => .refl _⟩

/-- The opposite order. -/
def reversed : Shuffle := ⟨List.reverse, List.reverse_perm⟩

end Shuffle

/-- Objects by their references, and where moved objects went. -/
structure Heap where
  /-- The live objects. -/
  objects : Std.HashMap Ref Object := {}
  /-- From the old places of objects moved in this epoch to their new ones. -/
  forwarding : Std.HashMap Ref Ref := {}
  /-- The next place to hand out. -/
  next : UInt32 := 8
  /-- The number of collections finished. -/
  epoch : UInt64 := 0

namespace Heap

/-- The distance between two places. -/
def alignment : UInt32 := 8

/-- Whether a place can be handed out: it is not null, and not among the last of the space. -/
def usable (place : UInt32) : Bool :=
  place != 0 && decide (place < 0xffffffff - alignment)

/-- Hands out the next place. The counter moves on even when the place cannot be used. -/
def nextPlace : Attempt Heap Ref := fun h =>
  let place := h.next
  let h := { h with next := place + alignment }
  if usable place then .ok ⟨place.toBitVec⟩ h else .error .spaceExhausted h

/-! ### Objects -/

/-- Puts a new object on the heap. -/
def allocate (object : Object) : Attempt Heap Ref := do
  let place ← nextPlace
  modify fun h => { h with objects := h.objects.insert place object }
  return place

/-- The object behind a reference, if it is live and has the shape asked for. -/
def resolve (h : Heap) (r : Ref) (shape : Shape) : Option Object :=
  h.objects[r]?.filter (·.shape = shape)

/-- Whether a reference leads to a live object. -/
def contains (h : Heap) (r : Ref) : Bool := h.objects.contains r

/-- The number of live objects. -/
def size (h : Heap) : Nat := h.objects.size

/-- Whether no object is live. -/
def isEmpty (h : Heap) : Bool := h.objects.isEmpty

/-! ### Moving -/

/-- Moves the object at `source`, if there is one, to a place already handed out. -/
def relocate (h : Heap) (source target : Ref) : Heap :=
  match h.objects[source]? with
  | none => h
  | some object =>
    { h with
      objects := (h.objects.erase source).insert target object
      forwarding := h.forwarding.insert source target }

/-- Moves one object and tells its new place. A place is used up even if no object is there. -/
def move (r : Ref) : Attempt Heap (Option Ref) := do
  let place ← nextPlace
  let live := (← get).contains r
  modify (·.relocate r place)
  return if live then some place else none

/-- Moves objects one after another, each to the next place. -/
def moveInOrder : List Ref → Attempt Heap Unit
  | [] => pure ()
  | r :: rest => do
    let place ← nextPlace
    modify (·.relocate r place)
    moveInOrder rest

/-- Moves every object, in an order of somebody's choice, and tells how many there were. -/
def moveAllBy (s : Shuffle) : Attempt Heap Nat := do
  let order := s.apply (← get).objects.keys
  moveInOrder order
  return order.length

/-- Moves every object, in the order in which the heap lists them. -/
def moveAll : Attempt Heap Nat := moveAllBy .asListed

/-- Where the object that was at a reference has gone in this epoch, if it has moved. -/
def movedTo? (h : Heap) (r : Ref) : Option Ref := h.forwarding[r]?

/-- The visitor that sends references to where their objects went, counting those it sends. It
follows one move. -/
def following (h : Heap) : Visitor 32 Nat := fun r forwarded =>
  match h.movedTo? r with
  | some target => (target, forwarded + 1)
  | none => (r, forwarded)

/-! ### Collections -/

/-- Frees every object that is not marked, and tells how many were freed. -/
def sweep (h : Heap) (marked : MarkSet) : Nat × Heap :=
  let kept := h.objects.filter fun r _ => marked.contains r
  (h.objects.size - kept.size, { h with objects := kept })

/-- Drops the forwarding entries and begins the next epoch. -/
def endEpoch (h : Heap) : Heap :=
  { h with forwarding := {}, epoch := h.epoch + 1 }

/-- The heap in its structural form. -/
def debug (h : Heap) : String :=
  Text.record "ObjectSpace"
    [ ("objects", toString h.objects.size),
      ("forwarding", toString h.forwarding.size),
      ("epoch", toString h.epoch.toNat) ]

end Heap

end ResolutionCache
