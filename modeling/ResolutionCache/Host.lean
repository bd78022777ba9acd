import ResolutionCache.CacheId
import ResolutionCache.Fault

/-!
# Hosts

The host of a cache is the machine that runs the code whose symbols are resolved. A cache asks it
three things: whether it is the ahead-of-time compiler, whether a transaction is open, and whether
method handles are on. While a transaction is open the host keeps a log of the strings resolved in
it, so that they can be forgotten again.

Several caches may share a host. Its log is then one log for all of them, and closing a transaction
by a rollback withdraws the entries of one cache only.
-/

namespace ResolutionCache

/-- What a host is and does at the moment. -/
structure HostFlags where
  compiler : Bool := false
  transaction : Bool := false
  methodHandles : Bool := false
  deriving DecidableEq

/-- The flags as a word with one bit each, the compiler lowest. -/
def HostFlags.bits (f : HostFlags) : UInt8 :=
  (if f.compiler then 1 else 0) ||| (if f.transaction then 2 else 0)
    ||| (if f.methodHandles then 4 else 0)

/-- A host: its flags and the log of strings resolved, newest first. -/
structure Host where
  flags : HostFlags := { methodHandles := true }
  log : List (CacheId × UInt32) := []
  deriving DecidableEq

namespace Host

/-- A host that is the ahead-of-time compiler. -/
def ofCompiler : Host := { flags := { compiler := true, methodHandles := true } }

/-- Notes that a cache resolved a string. -/
def record (h : Host) (id : CacheId) (index : UInt32) : Host :=
  { h with log := (id, index) :: h.log }

/-! ### Transactions -/

/-- Closes a transaction, whether or not one is open, leaving the log alone. -/
def close (h : Host) : Host :=
  { h with flags := { h.flags with transaction := false } }

/-- Opens a transaction. -/
def begin (h : Host) : Except Fault Host :=
  if !h.flags.compiler then .error .transactionOutsideCompiler
  else if h.flags.transaction then .error .nestedTransaction
  else .ok { h with flags := { h.flags with transaction := true } }

/-- Keeps what was resolved: empties the log and closes the transaction. -/
def commit (h : Host) : Host :=
  { h with log := [] }.close

/-- The strings logged for a cache, newest first. -/
def recorded (h : Host) (id : CacheId) : List UInt32 :=
  (h.log.filter (·.1 = id)).map (·.2)

/-- Takes the entries of a cache out of the log, leaving the others in their order, and closes the
transaction. -/
def withdraw (h : Host) (id : CacheId) : Host :=
  { h with log := h.log.filter (·.1 ≠ id) }.close

/-! ### The entries of one cache

The log is shared; what it says of one cache is changed by that cache's strings alone. -/

@[simp] theorem recorded_record (h : Host) (id other : CacheId) (index : UInt32) :
    (h.record id index).recorded other =
      (if id = other then [index] else []) ++ h.recorded other := by
  by_cases same : id = other <;> simp [record, recorded, same]

@[simp] theorem recorded_withdraw_self (h : Host) (id : CacheId) :
    (h.withdraw id).recorded id = [] := by
  simp [withdraw, recorded, close, List.filter_filter]

theorem recorded_withdraw_of_ne (h : Host) {id other : CacheId} (ne : other ≠ id) :
    (h.withdraw id).recorded other = h.recorded other := by
  simp only [withdraw, recorded, close, List.filter_filter]
  congr 1
  apply List.filter_congr
  rintro ⟨cache, _⟩ _
  by_cases same : cache = other
  · simp [same, ne]
  · simp [same]

end Host

end ResolutionCache
