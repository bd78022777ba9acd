import Mathlib.Data.List.Nodup
import ResolutionCache.Proofs.Resolver.Effects

/-!
# What stands in the slots of a table

A slot is either unused, and then it holds just what it held at first, or it holds something for an
index of the file whose slot it is (`DirectMap.Filed`). The sentinel that marks a slot unused is an
index like any other, but one that has another slot, so it cannot be taken for an owner.

A new cache has all its tables filed, and whatever an action does to a cache leaves them so, as long
as visitors answer no reference with null (`Resolver.Effect.filed`). In a filed table each occupied
slot answers for one index, its owner, and the indices that hit are the owners, none of them twice
(`Resolver.hits_iff`, `DirectMap.Filed.nodup_owners`).
-/

namespace ResolutionCache

/-- The visitor answers no address but null with null. -/
def Visitor.KeepsFull {w : Nat} {σ : Type} (v : Visitor w σ) : Prop :=
  ∀ a s, a ≠ .null → (v a s).1 ≠ .null

theorem Visitor.Answers.full {w : Nat} {σ : Type} {v : Visitor w σ} {a b : Address w}
    (answer : v.Answers a b) (keeps : v.KeepsFull) (full : a ≠ .null) : b ≠ .null := by
  obtain ⟨s, rfl⟩ := answer
  rw [v.meet_of_ne full]
  exact keeps a s full

/-- An entry before and after a pass of such a visitor: the same index owns it, and it is in use if
it was. -/
def Entry.Readdressed {w : Nat} (e e' : Entry w) : Prop :=
  e'.owner = e.owner ∧ (e.payload = .null ↔ e'.payload = .null)

theorem Entry.Met.readdressed {w : Nat} {σ : Type} {v : Visitor w σ} {e e' : Entry w}
    (met : e.Met v e') (keeps : v.KeepsFull) : e.Readdressed e' := by
  refine ⟨met.1, fun empty => ?_, fun empty => ?_⟩
  · have answer := met.2
    rw [empty] at answer
    exact answer.null
  · by_contra full
    exact met.2.full keeps full empty

namespace DirectMap

variable {w : Nat} {m m' : DirectMap w} {capacity : UInt64} {ids : UInt32} {slot : Nat}
  {e : Entry w}

/-- **A table in which everything is filed:** it has as many slots as there can be indices for, and
each is unused or holds something for an index that the file has and whose slot it is. -/
structure Filed (m : DirectMap w) (capacity : UInt64) (ids : UInt32) : Prop where
  size : m.size = slotCount capacity ids
  slots : ∀ (slot : Nat) (e : Entry w), m.entries[slot]? = some e →
    e = .vacant slot ∨ (e.payload ≠ .null ∧ e.owner < ids ∧ slotOf e.owner capacity = slot)

theorem filed_fresh (wide : 32 ≤ w) (capacity : UInt64) (ids : UInt32) :
    (fresh (slotCount capacity ids) : DirectMap w).Filed capacity ids := by
  refine ⟨size_fresh _, fun slot e there => .inl ?_⟩
  rw [entries_fresh wide, Array.getElem?_ofFn] at there
  split at there
  · exact (Option.some.inj there).symm
  · cases there

namespace Filed

theorem replace (filed : m.Filed capacity ids) (wide : 32 ≤ w)
    (fits : e = .vacant slot ∨
      (e.payload ≠ .null ∧ e.owner < ids ∧ slotOf e.owner capacity = slot)) :
    (m.replace slot e).Filed capacity ids := by
  refine ⟨(size_replace m slot e).trans filed.size, fun place e' there => ?_⟩
  rw [entries_replace wide, Array.getElem?_setIfInBounds] at there
  split at there
  · subst ‹slot = place›
    split at there
    · cases there
      exact fits
    · cases there
  · exact filed.slots place e' there

theorem readdressed (filed : m.Filed capacity ids)
    (readdressed : Pointwise Entry.Readdressed m.entries m'.entries) :
    m'.Filed capacity ids := by
  constructor
  case size =>
    have sizes := readdressed.size_eq
    rw [size_entries, size_entries] at sizes
    rw [← sizes, filed.size]
  case slots =>
    intro slot e' there
    obtain ⟨e, before, owner, empty⟩ := readdressed.of_right there
    rcases filed.slots slot e before with rfl | ⟨full, below, here⟩
    · -- with the sentinel as its owner and without a payload it is the unused entry
      obtain ⟨payload, owner'⟩ := e'
      obtain rfl : payload = .null := empty.mp rfl
      obtain rfl : owner' = sentinel slot := owner
      exact .inl rfl
    · rw [owner]
      exact .inr ⟨mt empty.mpr full, below, here⟩

end Filed

/-! ### Occupied slots -/

theorem mem_occupied :
    (slot, e) ∈ m.occupied ↔ m.entries[slot]? = some e ∧ e ≠ .vacant slot := by
  unfold occupied
  rw [List.mem_filterMap]
  constructor
  · rintro ⟨⟨e', slot'⟩, mem, kept⟩
    simp only [Option.ite_none_left_eq_some, Option.some.injEq] at kept
    obtain ⟨used, same⟩ := kept
    cases same
    rw [List.mem_zipIdx_iff_getElem?, Array.getElem?_toList] at mem
    exact ⟨mem, used⟩
  · rintro ⟨there, used⟩
    refine ⟨(e, slot), ?_, if_neg used⟩
    rwa [List.mem_zipIdx_iff_getElem?, Array.getElem?_toList]

/-- No slot is listed twice. -/
theorem nodup_occupied (m : DirectMap w) : (m.occupied.map Prod.fst).Nodup := by
  have ascending : m.entries.toList.zipIdx.Pairwise fun p q => p.2 ≠ q.2 := by
    apply List.pairwise_map.mp
    show (m.entries.toList.zipIdx.map Prod.snd).Nodup
    rw [List.zipIdx_map_snd]
    exact List.nodup_range'
  apply List.pairwise_map.mpr
  refine List.Pairwise.filterMap _ ?_ ascending
  rintro ⟨e, slot⟩ ⟨e', slot'⟩ apart p kept p' kept'
  simp only [Option.ite_none_left_eq_some, Option.some.injEq] at kept kept'
  obtain ⟨-, rfl⟩ := kept
  obtain ⟨-, rfl⟩ := kept'
  exact apart

theorem length_occupied_le (m : DirectMap w) : m.occupied.length ≤ m.size := by
  have fewer : m.occupied.length ≤ m.entries.toList.zipIdx.length := List.length_filterMap_le _ _
  have slots : m.entries.toList.length = m.size := Array.length_toList.trans (size_entries m)
  rwa [List.length_zipIdx, slots] at fewer

/-- The indices that the occupied slots belong to, in the order of the slots. -/
def owners (m : DirectMap w) : List UInt32 := m.occupied.map fun (_, e) => e.owner

namespace Filed

theorem of_mem_occupied (filed : m.Filed capacity ids) (mem : (slot, e) ∈ m.occupied) :
    e.payload ≠ .null ∧ e.owner < ids ∧ slotOf e.owner capacity = slot := by
  obtain ⟨there, used⟩ := mem_occupied.mp mem
  exact (filed.slots slot e there).resolve_left used

/-- **No index owns two slots,** for it has only one slot that it could own. -/
theorem nodup_owners (filed : m.Filed capacity ids) : m.owners.Nodup := by
  have slots : m.owners.map (slotOf · capacity) = m.occupied.map Prod.fst := by
    unfold owners
    rw [List.map_map]
    apply List.map_congr_left
    rintro ⟨slot, e⟩ mem
    exact (filed.of_mem_occupied mem).2.2
  have distinct := nodup_occupied m
  rw [← slots] at distinct
  exact .of_map _ distinct

theorem length_owners_le (filed : m.Filed capacity ids) :
    m.owners.length ≤ slotCount capacity ids := by
  rw [← filed.size, owners, List.length_map]
  exact length_occupied_le m

/-- An index owns a slot if its own slot has something for it. -/
theorem mem_owners_iff (filed : m.Filed capacity ids) {index : UInt32} :
    index ∈ m.owners ↔ ∃ e, m.entries[slotOf index capacity]? = some e ∧ e.owner = index ∧
      e.payload ≠ .null := by
  unfold owners
  rw [List.mem_map]
  constructor
  · rintro ⟨⟨slot, e⟩, mem, rfl⟩
    obtain ⟨full, -, here⟩ := filed.of_mem_occupied mem
    obtain ⟨there, -⟩ := mem_occupied.mp mem
    rw [← here] at there
    exact ⟨e, there, rfl, full⟩
  · rintro ⟨e, there, rfl, full⟩
    refine ⟨(slotOf e.owner capacity, e), mem_occupied.mpr ⟨there, ?_⟩, rfl⟩
    intro vacant
    rw [vacant] at full
    exact full rfl

end Filed

end DirectMap

namespace Cache

variable {c : Cache} {kind : SlotKind}

/-- Everything is filed in all five tables. -/
def Filed (c : Cache) : Prop :=
  ∀ kind, (c.table kind).Filed (c.settings.capacity kind) (c.ids kind)

theorem New.filed {file : SymbolFile} {location : Ref} (new : c.New file location) : c.Filed := by
  intro kind
  rw [new.tables, Cache.ids, new.serves]
  exact DirectMap.filed_fresh kind.wide _ _

/-- Changing one table leaves everything filed if it does so in that table. -/
theorem Filed.mapTable (filed : c.Filed) {f : DirectMap kind.width → DirectMap kind.width}
    (kept : (f (c.table kind)).Filed (c.settings.capacity kind) (c.ids kind)) :
    (c.mapTable kind f).Filed := by
  intro other
  have settings : (c.mapTable kind f).settings = c.settings := by cases kind <;> rfl
  have file : (c.mapTable kind f).file = c.file := by cases kind <;> rfl
  rw [settings, Cache.ids, file]
  by_cases same : other = kind
  · subst same
    rw [table_mapTable]
    exact kept
  · rw [table_mapTable_of_ne c f same]
    exact filed other

/-- What leaves the tables alone leaves everything filed. -/
theorem Filed.congr {c' : Cache} (filed : c.Filed) (settings : c'.settings = c.settings)
    (file : c'.file = c.file) (tables : ∀ kind, c'.table kind = c.table kind) : c'.Filed := by
  intro kind
  rw [tables, settings, Cache.ids, file]
  exact filed kind

theorem Filed.scan (filed : c.Filed) {σ : Type} {v : Visitor 32 σ} (keeps : v.KeepsFull)
    (withTables : Bool) (state : σ) : (c.scan withTables v state).1.Filed := by
  cases withTables with
  | false => exact filed.congr rfl rfl fun kind => by cases kind <;> rfl
  | true =>
    have met := c.scan_met v state
    have readdressed (m m' : DirectMap 32) (met : Pointwise (Entry.Met v) m.entries m'.entries) :
        Pointwise Entry.Readdressed m.entries m'.entries :=
      met.mono fun _ _ entry => entry.readdressed keeps
    rw [met.kept]
    intro kind
    cases kind with
    | string => exact (filed .string).readdressed (readdressed _ _ met.strings)
    | type => exact (filed .type).readdressed (readdressed _ _ met.types)
    | methodType => exact (filed .methodType).readdressed (readdressed _ _ met.methodTypes)
    | field => exact filed .field
    | method => exact filed .method

/-- Sending the roots leaves everything filed, unless one of them is sent to null. -/
theorem Filed.sent (filed : c.Filed) {f : Ref → Ref} (full : ∀ r ∈ c.roots, f r ≠ .null) :
    (c.sent f).Filed := by
  have readdressed (m : DirectMap 32) (table : m ∈ c.referenceTables) :
      Pointwise Entry.Readdressed m.entries (m.sent f).entries := by
    intro slot
    rw [DirectMap.entries_sent, Array.getElem?_map]
    cases there : m.entries[slot]? with
    | none => exact .none
    | some e =>
      refine .some ⟨rfl, ?_⟩
      show e.payload = .null ↔ e.payload.sent f = .null
      by_cases empty : e.payload = .null
      · rw [empty, Address.sent_null]
      · have root := mem_roots.mpr ⟨payload_mem table (Array.mem_of_getElem? there), empty⟩
        rw [Address.sent_of_ne empty]
        exact iff_of_false empty (full _ root)
  intro kind
  cases kind with
  | string => exact (filed .string).readdressed (readdressed c.strings (by simp [referenceTables]))
  | type => exact (filed .type).readdressed (readdressed c.types (by simp [referenceTables]))
  | methodType =>
    exact (filed .methodType).readdressed (readdressed c.methodTypes (by simp [referenceTables]))
  | field => exact filed .field
  | method => exact filed .method

end Cache

/-- The visitor of the action, if it has one, answers no reference with null. -/
def Action.KeepsFull : Action → Prop
  | .scan _ v _ => v.KeepsFull
  | _ => True

namespace Resolver

open Attempt

variable {r : Resolver} {a : Action} {c' : Cache} {kind : SlotKind} {index : UInt32}

/-- **Whatever an action does to a cache** leaves everything filed. -/
theorem Effect.filed (effect : r.Effect a c') (keeps : a.KeepsFull) (filed : r.cache.Filed) :
    c'.Filed := by
  cases effect with
  | @stored kind index payload slot full at_slot =>
    obtain ⟨-, range, -, here, -⟩ := slot_eq_ok_iff.mp at_slot
    exact filed.mapTable ((filed kind).replace kind.wide (.inr ⟨full, range, here⟩))
  | @vacated kind index slot => exact filed.mapTable ((filed kind).replace kind.wide (.inl rfl))
  | visited => exact filed.scan keeps _ _
  | bound | pinned | offered | withdrawn | unchanged =>
    exact filed.congr rfl rfl fun kind => by cases kind <;> rfl

/-- So does forgetting any strings, also if some of them cannot be forgotten. -/
theorem clearStrings_filed {c : Cache} (indices : List UInt32) :
    Preserves (fun r => r.cache.Filed ∧ r.cache.settings = c.settings ∧ r.cache.file = c.file)
      (clearStrings indices) := by
  induction indices with
  | nil => exact fun _ before => before
  | cons index rest ih =>
    refine Preserves.bind (fun r ⟨filed, settings, file⟩ => ?_) fun _ => ih
    have effect := effect_clear .string index r
    obtain ⟨-, file', settings'⟩ := effect.kept
    exact ⟨effect.filed trivial filed, settings'.trans settings, file'.trans file⟩

/-! ### Hits -/

/-- The lookup in the table of a kind hits. -/
def Hits (r : Resolver) (kind : SlotKind) (index : UInt32) : Prop :=
  ∃ payload, r.slotted kind index = .ok (some payload)

/-- **The indices that hit** are the owners of the occupied slots. -/
theorem hits_iff (filed : r.cache.Filed)
    (usable : UsableCapacity (r.cache.settings.capacity kind))
    (handles : kind = .methodType → r.host.flags.methodHandles = true) :
    r.Hits kind index ↔ index ∈ (r.cache.table kind).owners := by
  rw [(filed kind).mem_owners_iff]
  constructor
  · rintro ⟨payload, answered⟩
    obtain ⟨-, held⟩ := of_slotted_ok answered
    obtain ⟨e, there, found⟩ := Option.bind_eq_some_iff.mp held
    obtain ⟨owner, rfl, full⟩ := Entry.lookup_eq_some_iff.mp found
    exact ⟨e, there, owner, full⟩
  · rintro ⟨e, there, rfl, full⟩
    have used : e ≠ .vacant (slotOf e.owner (r.cache.settings.capacity kind)) := by
      intro vacant
      rw [vacant] at full
      exact full rfl
    obtain ⟨-, range, -⟩ := ((filed kind).slots _ e there).resolve_left used
    obtain ⟨held, -⟩ := Array.getElem?_eq_some_iff.mp there
    rw [DirectMap.size_entries] at held
    have at_slot : r.slot kind e.owner = .ok _ :=
      slot_eq_ok_iff.mpr ⟨handles, range, usable.isPowerOfTwo, rfl, held⟩
    refine ⟨e.payload, ?_⟩
    rw [slotted_of_ok at_slot, Cache.held, there]
    exact congrArg Except.ok (Entry.lookup_eq_some_iff.mpr ⟨rfl, rfl, full⟩)

end Resolver

end ResolutionCache
