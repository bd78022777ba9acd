import ResolutionCache.Attempt
import ResolutionCache.Cache
import ResolutionCache.DirtySet
import ResolutionCache.Host

/-!
# Resolvers

A cache at work, together with what it works with: the host that it asks about the compiler,
transactions and method handles, and the dirty set, if there is one, that its write barrier feeds.

Lookups are pure functions into `Except Fault`. Operations that change something run in
`Attempt Resolver`, whose result has the state also when it stopped. The checks come in a fixed
order, and the first that fails is the fault.
-/

namespace ResolutionCache

/-- A cache with its host and the dirty set of its write barrier. -/
structure Resolver where
  cache : Cache
  host : Host
  /-- Absent if writes need not be remembered. -/
  dirty : Option DirtySet := none

namespace Resolver

open Attempt

/-- Replaces the cache. -/
def putCache (cache : Cache) : Attempt Resolver Unit :=
  modify fun r => { r with cache }

/-- Changes the table of one kind. -/
def mapTable (kind : SlotKind) (f : DirectMap kind.width → DirectMap kind.width) :
    Attempt Resolver Unit :=
  modify fun r => { r with cache := r.cache.mapTable kind f }

/-- Replaces the host. -/
def putHost (host : Host) : Attempt Resolver Unit :=
  modify fun r => { r with host }

/-- **The write barrier.** Remembers the cache as written. -/
def barrier : Attempt Resolver Unit :=
  modify fun r => { r with dirty := r.dirty.map (·.insert r.cache.id) }

/-! ### Direct mapped kinds -/

/-- The slot of an index. Method types need method handles; the index has to be one of the file's;
the capacity has to be a power of two, and the slot one of those held. -/
def slot (r : Resolver) (kind : SlotKind) (index : UInt32) : Except Fault Nat :=
  if kind = .methodType ∧ !r.host.flags.methodHandles then .error .noMethodHandles
  else if r.cache.ids kind ≤ index then .error (.outOfRange kind.space index)
  else do
    let slot ← slotFor index (r.cache.settings.capacity kind)
    if slot < (r.cache.table kind).size then .ok slot else .error (.slotNotHeld kind)

/-- What the table of the kind has for an index. -/
def slotted (r : Resolver) (kind : SlotKind) (index : UInt32) :
    Except Fault (Option (Address kind.width)) := do
  let slot ← r.slot kind index
  (r.cache.table kind).lookup slot index

/-- What an index resolved to. For a string the overlay answers first, without any check; what it
does not have is looked up in the table. -/
def get (r : Resolver) : (kind : SlotKind) → (index : UInt32) →
    Except Fault (Option (Address kind.width))
  | .string, index =>
    match r.cache.overlay.lookup index.toNat with
    | some string => .ok (some string)
    | none => r.slotted .string index
  | kind, index => r.slotted kind index

/-- Logs a string resolved while a transaction is open. Only the compiler has transactions. -/
def recordString (index : UInt32) : Attempt Resolver Unit := do
  let r ← MonadState.get
  if r.host.flags.transaction then
    require r.host.flags.compiler .notCompiler
    putHost (r.host.record r.cache.id index)

/-- Keeps what an index resolved to. The store comes before the log, so a string that cannot be
logged is stored all the same. -/
def set (kind : SlotKind) (index : UInt32) (payload : Address kind.width) :
    Attempt Resolver Unit := do
  require (!payload.isNull) .nullPayload
  let slot ← inspect (Resolver.slot · kind index)
  inspect fun r => (r.cache.table kind).check slot
  mapTable kind (·.replace slot ⟨payload, index⟩)
  if kind = .string then recordString index
  barrier

/-- Forgets what an index resolved to, if its slot still belongs to it. Only the compiler may do
this, and it does so for strings and types. -/
def clear (kind : SlotKind) (index : UInt32) : Attempt Resolver Unit := do
  require (← MonadState.get).host.flags.compiler .notCompiler
  let slot ← inspect (Resolver.slot · kind index)
  let owned ← inspect fun r => (r.cache.table kind).owns slot index
  if owned then mapTable kind (·.vacate slot)

/-! ### Call sites -/

/-- Call sites need method handles, and their index has to be one of the file's. -/
def checkCallSite (r : Resolver) (index : UInt32) : Except Fault Unit :=
  if !r.host.flags.methodHandles then .error .noMethodHandles
  else if r.cache.file.callSites ≤ index then .error (.outOfRange .callSite index)
  else .ok ()

/-- The call site bound at an index. -/
def getCallSite (r : Resolver) (index : UInt32) : Except Fault (Option Ref) := do
  r.checkCallSite index
  r.cache.callSites.lookup index.toNat

/-- Replaces the call site bound at an index. -/
def bindCallSite (index : UInt32) (callSite : Ref) : Attempt Resolver Unit :=
  modify fun r =>
    { r with cache := { r.cache with
      callSites := r.cache.callSites.replace index.toNat callSite } }

/-- Binds a call site unless one is bound already, and tells which one is. Only a binding that is
new counts as a write. -/
def setCallSite (index : UInt32) (candidate : Ref) : Attempt Resolver Ref := do
  inspect (checkCallSite · index)
  let outcome ← inspect fun r => r.cache.callSites.outcome index.toNat candidate
  bindCallSite index outcome.standing
  if outcome.isTaken then barrier
  return outcome.standing

/-! ### The overlay -/

/-- Switches the overlay on, without any string in it. -/
def offerOverlay : Attempt Resolver Unit := do
  require (← MonadState.get).host.flags.compiler .notCompiler
  modify fun r => { r with cache := { r.cache with overlay := r.cache.overlay.offer } }

/-- Switches the overlay off. -/
def withdrawOverlay : Attempt Resolver Unit :=
  modify fun r => { r with cache := { r.cache with overlay := r.cache.overlay.withdraw } }

/-- Stores a pre-resolved string. -/
def setOverlay (index : UInt32) (string : Ref) : Attempt Resolver Unit := do
  let r ← MonadState.get
  require (!string.isNull) .nullPayload
  require (index < r.cache.file.strings) (.outOfRange .string index)
  require r.host.flags.compiler .overlayOutsideCompiler
  require (!r.host.flags.transaction) .overlayInTransaction
  match r.cache.overlay.put? index.toNat string with
  | some overlay => putCache { r.cache with overlay }
  | none => throw .overlayOff
  barrier

/-! ### Transactions -/

/-- Opens a transaction on the host. -/
def begin : Attempt Resolver Unit := do
  putHost (← inspect fun r => r.host.begin)

/-- Closes the host's transaction and keeps what was resolved in it. -/
def commit : Attempt Resolver Unit :=
  modify fun r => { r with host := r.host.commit }

/-- Forgets strings, in the order given. -/
def clearStrings : List UInt32 → Attempt Resolver Unit
  | [] => pure ()
  | index :: rest => do
    clear .string index
    clearStrings rest

/-- Closes the host's transaction and forgets the strings that the cache resolved in it, the last
one first. The transaction is closed before the cache is touched. -/
def rollback : Attempt Resolver Unit := do
  let r ← MonadState.get
  putHost (r.host.withdraw r.cache.id)
  clearStrings (r.host.recorded r.cache.id)

end Resolver

end ResolutionCache
