import ResolutionCache.Cache
import ResolutionCache.Decimal.Fixed

/-!
# Events

What a machine reports while it works. An event holds the facts; its level and its wording are
functions of it.
-/

namespace ResolutionCache

/-- How much detail a report is about. -/
inductive Level where
  | trace
  | debug
  | info
  deriving DecidableEq

/-- The word for a level. -/
def Level.label : Level → String
  | trace => "TRACE"
  | debug => "DEBUG"
  | info => "INFO"

/-- Something that happened, with the numbers its report needs. -/
inductive Event where
  /-- A cache was created, with these numbers of slots and entries. -/
  | created (id : CacheId) (location : String) (slots : SlotKind → Nat) (callSites : Nat)
  /-- The overlay of a file's cache was switched on. -/
  | overlayOffered (strings : Nat) (location : String)
  /-- The overlay of a file's cache was switched off. -/
  | overlayWithdrawn (location : String)
  /-- A visitor was led over the roots of a file's cache and changed some of them. -/
  | scanned (location : String) (changed : Nat)
  /-- A table of a file's cache was copied. -/
  | copied (kind : SlotKind) (entries : Nat) (location : String)
  /-- The call sites of a file's cache were copied. -/
  | copiedCallSites (entries : Nat) (location : String)
  /-- A host is about to forget strings resolved by a file's cache. -/
  | rollingBack (strings : Nat) (location : String)
  /-- One object moved. -/
  | movedObject (source target : Ref)
  /-- All objects moved. -/
  | movedAllObjects (objects : Nat)
  /-- The lookups of a round of a load test are over. -/
  | roundOver (round live remembered : Nat)
  /-- A collection of a load test is over. -/
  | collected (epoch : UInt64) (freed moved sent : Nat)
  /-- The cached entries of a round of a load test are as they should be. -/
  | verified (round entries : Nat)
  /-- The figures of a whole load test. -/
  | figures (hits misses : UInt64)

namespace Event

/-- The report that a cache was created. -/
def ofCreated (c : Cache) : Event :=
  .created c.id c.file.location (fun kind => (c.table kind).size) c.callSites.size

/-- The level of an event. -/
def level : Event → Level
  | scanned .. => .trace
  | movedObject .. => .trace
  | collected .. => .info
  | verified .. => .info
  | figures .. => .info
  | _ => .debug

/-- The word for the entries of a table. -/
def plural : SlotKind → String
  | .string => "strings"
  | .type => "types"
  | .methodType => "method types"
  | .field => "fields"
  | .method => "methods"

/-- The share of hits among all lookups in percent, with one place; none are no percent. -/
def hitRate (hits misses : UInt64) : String :=
  let total := max (hits + misses) 1
  (Decimal.Binary.ofFloat (100.0 * hits.toFloat / total.toFloat)).fixed 1

/-- The wording of an event. -/
def message : Event → String
  | created id location slots callSites =>
    let tables := SlotKind.all.map fun kind => toString (slots kind) ++ " " ++ plural kind
    "created dex cache " ++ id.debug ++ " for " ++ location ++ ": "
      ++ ", ".intercalate (tables ++ [toString callSites ++ " call sites"])
  | overlayOffered strings location =>
    "enabled " ++ toString strings ++ " pre-resolved strings for " ++ location
  | overlayWithdrawn location => "cleared pre-resolved strings for " ++ location
  | scanned location changed =>
    "visited dex cache " ++ location ++ ", " ++ toString changed ++ " roots moved"
  | copied kind entries location =>
    "fixed up " ++ toString entries ++ " " ++ plural kind ++ " of " ++ location
  | copiedCallSites entries location =>
    "fixed up " ++ toString entries ++ " call sites of " ++ location
  | rollingBack strings location =>
    "rolling back " ++ toString strings ++ " string resolutions in " ++ location
  | movedObject source target => "evacuated " ++ source.hex ++ " -> " ++ target.hex
  | movedAllObjects objects => "evacuated " ++ toString objects ++ " objects"
  | roundOver round live remembered =>
    "round " ++ toString round ++ ": " ++ toString live ++ " objects live, "
      ++ toString remembered ++ " caches remembered"
  | collected epoch freed moved sent =>
    "collection " ++ toString epoch.toNat ++ ": freed " ++ toString freed ++ ", moved "
      ++ toString moved ++ ", rewrote " ++ toString sent ++ " roots"
  | verified round entries =>
    "round " ++ toString round ++ ": verified " ++ toString entries ++ " cached entries"
  | figures hits misses =>
    toString (hits + misses).toNat ++ " lookups, " ++ toString hits.toNat ++ " hits, "
      ++ toString misses.toNat ++ " misses (" ++ hitRate hits misses ++ "% hit rate)"

/-- The event on one line: the level, then the wording. -/
def line (e : Event) : String := e.level.label ++ " " ++ e.message

end Event

end ResolutionCache
