import Mathlib.Data.List.Nodup
import ResolutionCache.LoadTest.Symbols
import ResolutionCache.Proofs.Capacities
import ResolutionCache.Proofs.Collection.Lookups
import ResolutionCache.Proofs.Resolver.Steps

/-!
# The cache of a load test

What a load test keeps up for its cache, whatever has been looked up, evicted and moved
(`Cache.Stocked`): the location, every string, type and call site held is the object that belongs
there, every field held is the record of its index, and no reference is held twice. So every object
on the heap that survives a collection has exactly one root.

A new cache has it; an allocation keeps it, for the place is nobody's; so does storing a reference
that is nobody's (`Stocked.store_string`, `Stocked.store_type`, `Stocked.bind`); and so does a
collection (`Stocked.collected`).
-/

namespace ResolutionCache

open LoadTest

/-! ### Lists without repetition -/

/-- Replacing a member by something new brings no repetition. -/
theorem nodup_filter_set {α : Type} {p : α → Bool} {l : List α} {x : α}
    (distinct : (l.filter p).Nodup) (new : x ∉ l) (counted : p x = true) (i : Nat) :
    ((l.set i x).filter p).Nodup := by
  induction l generalizing i with
  | nil => exact distinct
  | cons a l ih =>
    rw [List.mem_cons, not_or] at new
    have rest : (l.filter p).Nodup := distinct.sublist ((List.sublist_cons_self a l).filter p)
    cases i with
    | zero =>
      rw [List.set_cons_zero, List.filter_cons, if_pos counted]
      exact List.nodup_cons.mpr ⟨fun mem => new.2 (List.mem_of_mem_filter mem), rest⟩
    | succ i =>
      rw [List.set_cons_succ, List.filter_cons]
      have tail := ih rest new.2 i
      split
      · rw [List.filter_cons, if_pos ‹p a = true›] at distinct
        refine List.nodup_cons.mpr ⟨?_, tail⟩
        intro mem
        -- the head is still in front of the change, and the change is new
        rcases List.mem_or_eq_of_mem_set (List.mem_of_mem_filter mem) with there | rfl
        · exact (List.nodup_cons.mp distinct).1 (List.mem_filter.mpr ⟨there, ‹_›⟩)
        · exact new.1 rfl
      · exact tail

/-- Replacing a member of a list in the middle of others. -/
theorem append_set_append {α : Type} (before l after : List α) {i : Nat} (here : i < l.length)
    (x : α) : before ++ l.set i x ++ after = (before ++ l ++ after).set (before.length + i) x := by
  rw [List.set_append_left _ _ (by rw [List.length_append]; omega),
    List.set_append_right _ _ (by omega), Nat.add_sub_cancel_left]

namespace Cache

variable {c : Cache} {r : Ref}

/-- A cache whose references differ from another's in one place, where something new is, still holds
no root twice. -/
theorem nodup_roots_set {c' : Cache} (distinct : c.roots.Nodup) (new : r ∉ c.roots)
    (full : r ≠ .null) {i : Nat} (references : c'.references = c.references.set i r) :
    c'.roots.Nodup := by
  unfold roots
  rw [references]
  refine nodup_filter_set distinct (fun mem => new (mem_roots.mpr ⟨mem, full⟩)) ?_ i
  rw [Bool.not_eq_true', ← Bool.not_eq_true, Address.isNull_iff]
  exact full

end Cache

theorem DirectMap.length_payloads (m : DirectMap 32) : m.payloads.length = m.size := by
  rw [payloads, List.length_map, Array.length_toList, size_entries]

theorem DirectMap.payloads_replace (m : DirectMap 32) (slot : Nat) (e : Entry 32) :
    (m.replace slot e).payloads = m.payloads.set slot e.payload := by
  unfold payloads
  rw [entries_replace (Nat.le_refl 32), Array.toList_setIfInBounds, List.map_set]

namespace Cache

/-- The references, one part after the other. -/
theorem references_eq (c : Cache) :
    c.references = [c.location] ++ c.strings.payloads ++ c.types.payloads ++ c.methodTypes.payloads
      ++ c.callSites.entries.toList ++ c.overlay.references := by
  simp [references, referenceTables]

/-- Replacing an entry of the strings replaces one reference. -/
theorem references_replace_string (c : Cache) {slot : Nat} (held : slot < c.strings.size)
    (e : Entry 32) : ∃ i, (c.mapTable .string (·.replace slot e)).references =
      c.references.set i e.payload := by
  have length : slot < c.strings.payloads.length := by
    rwa [DirectMap.length_payloads]
  refine ⟨[c.location].length + slot, ?_⟩
  rw [references_eq, references_eq]
  show [c.location] ++ (c.strings.replace slot e).payloads ++ c.types.payloads
    ++ c.methodTypes.payloads ++ c.callSites.entries.toList ++ c.overlay.references = _
  rw [DirectMap.payloads_replace]
  have replaced := append_set_append [c.location] c.strings.payloads
    (c.types.payloads ++ c.methodTypes.payloads ++ c.callSites.entries.toList
      ++ c.overlay.references) length e.payload
  simpa only [List.append_assoc] using replaced

/-- Replacing an entry of the types replaces one reference. -/
theorem references_replace_type (c : Cache) {slot : Nat} (held : slot < c.types.size)
    (e : Entry 32) : ∃ i, (c.mapTable .type (·.replace slot e)).references =
      c.references.set i e.payload := by
  have length : slot < c.types.payloads.length := by
    rwa [DirectMap.length_payloads]
  refine ⟨([c.location] ++ c.strings.payloads).length + slot, ?_⟩
  rw [references_eq, references_eq]
  show [c.location] ++ c.strings.payloads ++ (c.types.replace slot e).payloads
    ++ c.methodTypes.payloads ++ c.callSites.entries.toList ++ c.overlay.references = _
  rw [DirectMap.payloads_replace]
  have replaced := append_set_append ([c.location] ++ c.strings.payloads) c.types.payloads
    (c.methodTypes.payloads ++ c.callSites.entries.toList ++ c.overlay.references) length e.payload
  simpa only [List.append_assoc] using replaced

/-- Binding a call site replaces one reference. -/
theorem references_replace_callSite (c : Cache) {index : Nat} (held : index < c.callSites.size)
    (r : Ref) : ∃ i, ({ c with callSites := c.callSites.replace index r } : Cache).references =
      c.references.set i r := by
  have length : index < c.callSites.entries.toList.length := held
  refine ⟨([c.location] ++ c.strings.payloads ++ c.types.payloads
    ++ c.methodTypes.payloads).length + index, ?_⟩
  rw [references_eq, references_eq]
  show [c.location] ++ c.strings.payloads ++ c.types.payloads ++ c.methodTypes.payloads
    ++ (c.callSites.entries.setIfInBounds index r).toList ++ c.overlay.references = _
  rw [Array.toList_setIfInBounds]
  exact append_set_append ([c.location] ++ c.strings.payloads ++ c.types.payloads
    ++ c.methodTypes.payloads) c.callSites.entries.toList c.overlay.references length r

end Cache

/-! ### The invariant -/

/-- The call site bound at an index. -/
def Cache.callSiteAt (c : Cache) (index : Nat) : Option Ref :=
  c.callSites.entries[index]? >>= Address.nonNull

/-- Every payload of a table is the object that belongs to its owner. -/
def DirectMap.Shows (m : DirectMap 32) (h : Heap) (object : UInt32 → Object) : Prop :=
  ∀ e ∈ m.entries, e.payload ≠ .null → h.objects[e.payload]? = some (object e.owner)

/-- **The cache of a load test,** for a file that has no prototypes. -/
structure Cache.Stocked (c : Cache) (file : SymbolFile) (records : FieldTable) (h : Heap) :
    Prop where
  serves : c.file = file
  usable : ∀ kind, UsableCapacity (c.settings.capacity kind)
  slots : ∀ kind, (c.table kind).size = slotCount (c.settings.capacity kind) (file.count kind.space)
  methodTypes : c.methodTypes.size = 0
  callSites : c.callSites.size = file.callSites.toNat
  overlay : c.overlay.offered = false
  location : h.objects[c.location]? = some (.string LoadTest.location)
  strings : c.strings.Shows h stringObject
  types : c.types.Shows h typeObject
  /-- Every call site bound is the one that belongs to its index. -/
  bound : ∀ (index : Nat) (r : Ref), c.callSites.entries[index]? = some r → r ≠ .null →
    h.objects[r]? = some (callSiteObject index.toUInt32)
  /-- Every field held is the record that belongs to its owner. -/
  fields : ∀ e ∈ c.fields.entries, e.payload ≠ .null → e.payload = records.address e.owner
  /-- No reference is held twice. -/
  distinct : c.roots.Nodup

namespace Cache.Stocked

variable {c : Cache} {file : SymbolFile} {records : FieldTable} {h : Heap}

/-- A new cache holds nothing that could be wrong. -/
theorem of_new {location : Ref} (new : c.New file location)
    (usable : ∀ kind, UsableCapacity (c.settings.capacity kind)) (protos : file.protos = 0)
    (live : h.objects[location]? = some (.string LoadTest.location)) :
    c.Stocked file records h where
  serves := new.serves
  usable := usable
  slots kind := by rw [new.tables, DirectMap.size_fresh]
  methodTypes := by
    rw [show c.methodTypes = .fresh _ from new.tables .methodType, DirectMap.size_fresh,
      SlotKind.space, SymbolFile.count, protos]
    exact Nat.min_eq_zero_iff.mpr (.inr rfl)
  callSites := by rw [new.callSites, ClaimTable.size_fresh]
  overlay := by rw [new.overlay, Overlay.ofSize]
  location := by rwa [new.placed]
  strings e mem full := by
    rw [show c.strings = .fresh _ from new.tables .string] at mem
    exact absurd (payload_fresh (Nat.le_refl 32) mem) full
  types e mem full := by
    rw [show c.types = .fresh _ from new.tables .type] at mem
    exact absurd (payload_fresh (Nat.le_refl 32) mem) full
  bound index r there full := by
    have mem := Array.mem_of_getElem? there
    rw [new.callSites, ClaimTable.fresh, Array.mem_replicate] at mem
    exact absurd mem.2 full
  fields e mem full := by
    rw [show c.fields = .fresh _ from new.tables .field] at mem
    exact absurd (payload_fresh (by decide) mem) full
  distinct := by
    rw [new.roots]
    exact (List.nodup_singleton location).filter _

/-- Every root leads to a live object. -/
theorem held (stocked : c.Stocked file records h) {r : Ref} (root : r ∈ c.roots) :
    r ∈ h.objects := by
  have payload {m : DirectMap 32} {object : UInt32 → Object} (shows_ : m.Shows h object)
      (mem : r ∈ m.payloads) (full : r ≠ .null) : r ∈ h.objects := by
    obtain ⟨e, there, rfl⟩ := List.mem_map.mp mem
    exact Heap.mem_of_found (shows_ e (Array.mem_toList_iff.mp there) full)
  obtain ⟨mem, full⟩ := mem_roots.mp root
  rw [references_eq] at mem
  simp only [List.mem_append, List.mem_singleton] at mem
  rcases mem with ((((rfl | in_strings) | in_types) | in_methodTypes) | in_callSites) | in_overlay
  · exact Heap.mem_of_found stocked.location
  · exact payload stocked.strings in_strings full
  · exact payload stocked.types in_types full
  · have none : c.methodTypes.entries = #[] :=
      Array.eq_empty_of_size_eq_zero (by rw [DirectMap.size_entries]; exact stocked.methodTypes)
    rw [DirectMap.payloads, none] at in_methodTypes
    cases in_methodTypes
  · obtain ⟨index, here, rfl⟩ := List.mem_iff_getElem.mp in_callSites
    exact Heap.mem_of_found (stocked.bound index _ (Array.getElem?_eq_getElem here) full)
  · rw [Overlay.references, Overlay.entries?, stocked.overlay] at in_overlay
    cases in_overlay

/-- What a cache holds is not changed by objects that come on top. -/
theorem of_carried (stocked : c.Stocked file records h) {h' : Heap}
    (carried : ∀ r ∈ h.objects, h'.objects[r]? = h.objects[r]?) : c.Stocked file records h' := by
  have live {r : Ref} {object : Object} (found : h.objects[r]? = some object) :
      h'.objects[r]? = some object := by
    rw [carried r (Heap.mem_of_found found), found]
  exact
    { stocked with
      location := live stocked.location
      strings := fun e mem full => live (stocked.strings e mem full)
      types := fun e mem full => live (stocked.types e mem full)
      bound := fun index r there full => live (stocked.bound index r there full) }

theorem withNew (stocked : c.Stocked file records h) (wf : h.WellFormed) (object : Object) :
    c.Stocked file records (h.withNew object) :=
  stocked.of_carried fun _ mem => wf.getElem?_withNew_of_mem mem object

theorem size_mapTable (stocked : c.Stocked file records h) (kind : SlotKind) (slot : Nat)
    (e : Entry kind.width) (other : SlotKind) :
    ((c.mapTable kind (·.replace slot e)).table other).size =
      slotCount (c.settings.capacity other) (file.count other.space) := by
  by_cases same : other = kind
  · subst same
    rw [table_mapTable, DirectMap.size_replace]
    exact stocked.slots other
  · rw [table_mapTable_of_ne _ _ same]
    exact stocked.slots other

theorem shows_replace {m : DirectMap 32} {object : UInt32 → Object} (shown : m.Shows h object)
    {index : UInt32} {r : Ref} (found : h.objects[r]? = some (object index)) (slot : Nat) :
    (m.replace slot ⟨r, index⟩).Shows h object := by
  intro e mem full
  rw [DirectMap.entries_replace (Nat.le_refl 32)] at mem
  rcases Array.mem_or_eq_of_mem_setIfInBounds mem with there | rfl
  · exact shown e there full
  · exact found

/-- Storing a string that is nobody's. -/
theorem store_string (stocked : c.Stocked file records h) {index : UInt32} {r : Ref} {slot : Nat}
    (held : slot < c.strings.size) (full : r ≠ .null) (new : r ∉ c.roots)
    (found : h.objects[r]? = some (stringObject index)) :
    (c.mapTable .string (·.replace slot ⟨r, index⟩)).Stocked file records h := by
  obtain ⟨i, references⟩ := c.references_replace_string held ⟨r, index⟩
  exact
    { stocked with
      slots := stocked.size_mapTable .string slot ⟨r, index⟩
      strings := shows_replace stocked.strings found slot
      distinct := nodup_roots_set stocked.distinct new full references }

/-- Storing a type that is nobody's. -/
theorem store_type (stocked : c.Stocked file records h) {index : UInt32} {r : Ref} {slot : Nat}
    (held : slot < c.types.size) (full : r ≠ .null) (new : r ∉ c.roots)
    (found : h.objects[r]? = some (typeObject index)) :
    (c.mapTable .type (·.replace slot ⟨r, index⟩)).Stocked file records h := by
  obtain ⟨i, references⟩ := c.references_replace_type held ⟨r, index⟩
  exact
    { stocked with
      slots := stocked.size_mapTable .type slot ⟨r, index⟩
      types := shows_replace stocked.types found slot
      distinct := nodup_roots_set stocked.distinct new full references }

/-- Storing a field. -/
theorem store_field (stocked : c.Stocked file records h) (index : UInt32) (slot : Nat) :
    (c.mapTable .field (·.replace slot ⟨records.address index, index⟩)).Stocked file records
      h := by
  refine
    { stocked with
      slots := stocked.size_mapTable .field slot ⟨records.address index, index⟩
      fields := ?_ }
  intro e mem full
  change e ∈ (c.fields.replace slot ⟨records.address index, index⟩).entries at mem
  rw [DirectMap.entries_replace (by decide)] at mem
  rcases Array.mem_or_eq_of_mem_setIfInBounds mem with there | rfl
  · exact stocked.fields e there full
  · rfl

/-- Binding a call site that is nobody's. -/
theorem bind (stocked : c.Stocked file records h) {index : UInt32} {r : Ref}
    (range : index < file.callSites) (full : r ≠ .null) (new : r ∉ c.roots)
    (found : h.objects[r]? = some (callSiteObject index)) :
    ({ c with callSites := c.callSites.replace index.toNat r } : Cache).Stocked file records h := by
  have below : index.toNat < c.callSites.size := by
    rw [stocked.callSites]
    exact UInt32.lt_iff_toNat_lt.mp range
  obtain ⟨i, references⟩ := c.references_replace_callSite below r
  refine { stocked with callSites := ?_, bound := ?_, distinct := ?_ }
  · show (c.callSites.entries.setIfInBounds index.toNat r).size = _
    rw [Array.size_setIfInBounds]
    exact stocked.callSites
  · intro other held there held_full
    change (c.callSites.entries.setIfInBounds index.toNat r)[other]? = some held at there
    rw [Array.getElem?_setIfInBounds] at there
    split at there
    · obtain rfl := ‹index.toNat = other›
      split at there
      · cases there
        rw [found, show index.toNat.toUInt32 = index from UInt32.ofNat_toNat]
      · cases there
    · exact stocked.bound other held there held_full
  · exact nodup_roots_set stocked.distinct new full references

end Cache.Stocked

/-! ### After a collection -/

theorem DirectMap.size_sent (f : Ref → Ref) (m : DirectMap 32) : (m.sent f).size = m.size := by
  rw [← size_entries, entries_sent, Array.size_map, size_entries]

/-- The roots of a sent cache are the roots, sent. -/
theorem Cache.roots_sent {f : Ref → Ref} {c : Cache} (full : ∀ r ∈ c.roots, f r ≠ .null) :
    (c.sent f).roots = c.roots.map f := by
  have along (l : List Ref) (full : ∀ r ∈ l, r ≠ .null → f r ≠ .null) :
      (l.map (Address.sent f)).filter (!·.isNull) = (l.filter (!·.isNull)).map f := by
    induction l with
    | nil => rfl
    | cons a l ih =>
      have rest := ih fun r mem => full r (List.mem_cons_of_mem _ mem)
      by_cases null : a = .null
      · simp [null, rest]
      · have counted {r : Ref} (ne : r ≠ .null) : (!r.isNull) = true := by
          rw [Bool.not_eq_true', ← Bool.not_eq_true, Address.isNull_iff]
          exact ne
        rw [List.map_cons, Address.sent_of_ne null, List.filter_cons, List.filter_cons,
          if_pos (counted null), if_pos (counted (full a List.mem_cons_self null)), rest,
          List.map_cons]
  unfold roots
  rw [references_sent]
  exact along c.references fun r mem ne => full r (mem_roots.mpr ⟨mem, ne⟩)

theorem Overlay.sent_of_withdrawn {o : Overlay} (withdrawn : o.offered = false) (f : Ref → Ref) :
    o.sent f = o := by
  simp [Overlay.sent, entries?, withdrawn]

namespace Cache.Stocked

variable {c : Cache} {file : SymbolFile} {records : FieldTable} {h : Heap}

/-- **A collection keeps it all:** what belonged to an index has moved, and so has the reference. -/
theorem collected (stocked : c.Stocked file records h) (wf : h.WellFormed) {f : Ref → Ref}
    {count : Estate.Counts} {e' : Estate} (done : Estate.Collected ⟨h, [c]⟩ f count e') :
    (c.sent f).Stocked file records e'.heap := by
  have roots : Estate.roots ⟨h, [c]⟩ = c.roots := List.append_nil _
  have held : Estate.Held ⟨h, [c]⟩ := fun r root => stocked.held (by rwa [roots] at root)
  have carried {r : Ref} (root : r ∈ c.roots) : e'.heap.objects[f r]? = h.objects[r]? :=
    done.carried r (by rwa [roots])
  have full {r : Ref} (root : r ∈ c.roots) : f r ≠ .null :=
    (done.followed held (by rwa [roots])).1
  -- nulls are not sent, so what is not null came from a root
  have unsent {r : Ref} (sent : r.sent f ≠ .null) : r ≠ .null := by
    rintro rfl
    exact sent (Address.sent_null f)
  have shows_sent {m : DirectMap 32} {object : UInt32 → Object} (shown : m.Shows h object)
      (table : m ∈ c.referenceTables) : (m.sent f).Shows e'.heap object := by
    intro e' mem' sent
    rw [DirectMap.entries_sent] at mem'
    obtain ⟨e, mem, rfl⟩ := Array.mem_map.mp mem'
    have ne := unsent sent
    show e'.heap.objects[e.payload.sent f]? = _
    rw [Address.sent_of_ne ne, carried (mem_roots.mpr ⟨payload_mem table mem, ne⟩)]
    exact shown e mem ne
  constructor
  case serves => exact stocked.serves
  case usable => exact stocked.usable
  case slots =>
    intro kind
    rw [show (c.sent f).settings = c.settings from rfl, ← stocked.slots kind]
    cases kind
    case string | type | methodType => exact DirectMap.size_sent f _
    case field | method => rfl
  case methodTypes => exact (DirectMap.size_sent f _).trans stocked.methodTypes
  case callSites =>
    show (c.callSites.entries.map _).size = _
    rw [Array.size_map]
    exact stocked.callSites
  case overlay =>
    show (c.overlay.sent f).offered = false
    rw [Overlay.sent_of_withdrawn stocked.overlay, stocked.overlay]
  case location =>
    have ne := wf.ne_null_of_mem (Heap.mem_of_found stocked.location)
    show e'.heap.objects[c.location.sent f]? = _
    rw [Address.sent_of_ne ne, carried (mem_roots.mpr ⟨location_mem, ne⟩)]
    exact stocked.location
  case strings => exact shows_sent stocked.strings (by simp [referenceTables])
  case types => exact shows_sent stocked.types (by simp [referenceTables])
  case bound =>
    intro index r there ne
    change (c.callSites.entries.map _)[index]? = some r at there
    rw [Array.getElem?_map, Option.map_eq_some_iff] at there
    obtain ⟨source, there, rfl⟩ := there
    have source_ne := unsent ne
    rw [Address.sent_of_ne source_ne, carried (mem_roots.mpr
      ⟨callSite_mem (Array.mem_of_getElem? there), source_ne⟩)]
    exact stocked.bound index source there source_ne
  case fields => exact stocked.fields
  case distinct =>
    rw [roots_sent fun r root => full root]
    refine List.Nodup.map_on (fun r root r' root' same => ?_) stocked.distinct
    exact done.injective r (by rwa [roots]) r' (by rwa [roots]) same

/-- Every survivor has exactly one root. -/
theorem length_survivors (stocked : c.Stocked file records h) :
    (Estate.survivors ⟨h, [c]⟩).length = (Estate.roots ⟨h, [c]⟩).length := by
  have roots : Estate.roots ⟨h, [c]⟩ = c.roots := List.append_nil _
  have distinct : (Estate.roots ⟨h, [c]⟩).Nodup := by
    rw [roots]
    exact stocked.distinct
  apply List.Perm.length_eq
  unfold Estate.survivors
  rw [List.perm_ext_iff_of_nodup (Std.HashMap.nodup_keys.filter _) distinct]
  intro r
  rw [List.mem_filter, List.contains_iff_mem, Std.HashMap.mem_keys]
  constructor
  · exact fun both => both.2
  · exact fun root => ⟨stocked.held (by rwa [roots] at root), root⟩

end Cache.Stocked

end ResolutionCache
