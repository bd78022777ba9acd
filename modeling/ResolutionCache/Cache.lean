import ResolutionCache.CacheId
import ResolutionCache.Settings
import ResolutionCache.SymbolFile
import ResolutionCache.Table.DirectMap
import ResolutionCache.Table.Overlay

/-!
# Caches

A cache belongs to one loaded file and keeps what the file's symbols resolved to: five direct
mapped tables, one for each `SlotKind`, a claim table for call sites, and the overlay of
pre-resolved strings. It also keeps a reference to the string that names the file's location.

The references among these are the cache's *roots*: a collector must see them all and may
change them (`Cache.scan`). Native records are not roots.
-/

namespace ResolutionCache

/-- The resolution cache of one file. -/
structure Cache where
  id : CacheId
  file : SymbolFile
  settings : Settings
  /-- The managed string with the file's location, or null. -/
  location : Ref
  strings : DirectMap 32
  types : DirectMap 32
  methodTypes : DirectMap 32
  fields : DirectMap 64
  methods : DirectMap 64
  callSites : ClaimTable
  overlay : Overlay
  deriving DecidableEq

namespace Cache

variable {σ : Type}

/-- The table of one kind. -/
def table (c : Cache) : (kind : SlotKind) → DirectMap kind.width
  | .string => c.strings
  | .type => c.types
  | .methodType => c.methodTypes
  | .field => c.fields
  | .method => c.methods

/-- The cache with the table of one kind changed. -/
def mapTable (c : Cache) :
    (kind : SlotKind) → (DirectMap kind.width → DirectMap kind.width) → Cache
  | .string, f => { c with strings := f c.strings }
  | .type, f => { c with types := f c.types }
  | .methodType, f => { c with methodTypes := f c.methodTypes }
  | .field, f => { c with fields := f c.fields }
  | .method, f => { c with methods := f c.methods }

@[simp] theorem table_mapTable (c : Cache) (kind : SlotKind)
    (f : DirectMap kind.width → DirectMap kind.width) :
    (c.mapTable kind f).table kind = f (c.table kind) := by
  cases kind <;> rfl

/-- Changing the table of one kind leaves those of the others alone. -/
theorem table_mapTable_of_ne (c : Cache) {kind other : SlotKind}
    (f : DirectMap kind.width → DirectMap kind.width) (h : other ≠ kind) :
    (c.mapTable kind f).table other = c.table other := by
  cases kind <;> cases other <;> simp_all [table, mapTable]

/-- The number of indices that the file has for a kind. -/
def ids (c : Cache) (kind : SlotKind) : UInt32 := c.file.count kind.space

/-- **A cache for a file**, with nothing resolved and the overlay off. A table has as many slots as
its capacity says, but not more than there are indices. -/
def create (id : CacheId) (file : SymbolFile) (location : Ref) (overrides : Overrides) :
    Except BadCapacity Cache := do
  let settings ← Settings.ofOverrides overrides
  let slots (kind : SlotKind) : Nat :=
    slotCount (settings.capacity kind) (file.count kind.space)
  return {
    id, file, settings, location
    strings := .fresh (slots .string)
    types := .fresh (slots .type)
    methodTypes := .fresh (slots .methodType)
    fields := .fresh (slots .field)
    methods := .fresh (slots .method)
    callSites := .fresh file.callSites.toNat
    overlay := .ofSize file.strings.toNat }

/-! ### Passes over the roots -/

/-- Shows the roots to a visitor and keeps its answers: always the location, and the tables too if
`withTables`. The tables are shown in the order strings, types, method types, call sites,
overlay. -/
def scanWith (withTables : Bool) (v : Visitor 32 σ) (c : Cache) : StateM σ Cache := do
  let c := { c with location := ← v.meet c.location }
  if withTables then
    let c := { c with strings := ← c.strings.scan v }
    let c := { c with types := ← c.types.scan v }
    let c := { c with methodTypes := ← c.methodTypes.scan v }
    let c := { c with callSites := ← c.callSites.scan v }
    return { c with overlay := ← c.overlay.scan v }
  else
    return c

/-- Shows the roots to a visitor, keeps its answers, and tells how many roots it changed. -/
def scan (withTables : Bool) (v : Visitor 32 σ) (c : Cache) (state : σ) :
    Cache × Nat × σ :=
  let (c, state, changed) := c.scanWith withTables v.counting (state, 0)
  (c, changed, state)

/-! ### The structural form -/

/-- The cache in its structural form: its identity, its location and the sizes of its tables. -/
def debug (c : Cache) : String :=
  Text.record "DexCache"
    [ ("id", c.id.debug),
      ("location", Text.quoted c.file.location),
      ("strings", toString c.strings.size),
      ("types", toString c.types.size),
      ("method_types", toString c.methodTypes.size),
      ("fields", toString c.fields.size),
      ("methods", toString c.methods.size),
      ("call_sites", toString c.callSites.size),
      ("pre_resolved_strings", c.overlay.debug) ]

end Cache

end ResolutionCache
