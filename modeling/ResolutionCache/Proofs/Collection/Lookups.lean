import Mathlib.Data.List.Forall2
import ResolutionCache.Proofs.Collection
import ResolutionCache.Proofs.Resolver.Similar

/-!
# Lookups after a collection

A full collection changes every reference, but not what the references lead to: each lookup hits
after it if it hit before it, and leads to the same object. What is not referenced by any cache is
gone (`Estate.collect_preserves`).

Each cache is similar to the one before the collection, for the relation that sends a root to where
it went (`Estate.Collected.similar`), so the lookups agree.
-/

namespace ResolutionCache

/-- Two references that lead to the same object, each in a heap of its own. -/
def Heap.SameObject (h h' : Heap) (r r' : Ref) : Prop :=
  ∃ object, h.objects[r]? = some object ∧ h'.objects[r']? = some object

/-- A reference and what has become of it: it was sent, together with its object. -/
def Heap.Followed (f : Ref → Ref) (h h' : Heap) (r r' : Ref) : Prop :=
  r' = f r ∧ h.SameObject h' r r'

/-! ### Sent caches -/

theorem DirectMap.payloads_sent (f : Ref → Ref) (m : DirectMap 32) :
    (m.sent f).payloads = m.payloads.map (Address.sent f) := by
  unfold payloads
  rw [entries_sent]
  simp [Entry.sent]

theorem Overlay.references_sent (f : Ref → Ref) (o : Overlay) :
    (o.sent f).references = o.references.map (Address.sent f) := by
  unfold references
  rw [entries?_sent, Array.toList_map]

namespace Cache

theorem references_sent (f : Ref → Ref) (c : Cache) :
    (c.sent f).references = c.references.map (Address.sent f) := by
  simp only [references, referenceTables, sent, List.map_cons, List.map_append, List.flatMap_cons,
    List.flatMap_nil, List.append_nil, DirectMap.payloads_sent, Overlay.references_sent,
    ClaimTable.sent, Array.toList_map]

theorem sent_mem_roots {f : Ref → Ref} {c : Cache} {r : Ref} (root : r ∈ c.roots)
    (full : f r ≠ .null) : f r ∈ (c.sent f).roots := by
  obtain ⟨mem, ne⟩ := mem_roots.mp root
  rw [mem_roots, references_sent]
  refine ⟨?_, full⟩
  rw [← Address.sent_of_ne (f := f) ne]
  exact List.mem_map_of_mem mem

/-- What a collection preserves of one cache, when the roots are sent by `f`. -/
structure Preserved (f : Ref → Ref) (h h' : Heap) (c c' : Cache) : Prop where
  /-- Whatever the host, a lookup is refused as before or hits as before, and what it finds is the
  object that it found. -/
  found : ∀ (host : Host) (dirty : Option DirtySet) (kind : ReferenceKind) (index : UInt32),
    Attempt.SameAnswer (Option.Rel (Heap.Followed f h h'))
      (Resolver.find ⟨c, host, dirty⟩ kind index) (Resolver.find ⟨c', host, dirty⟩ kind index)
  location : Option.Rel (Heap.Followed f h h') c.location.nonNull c'.location.nonNull
  owners : ∀ kind : SlotKind,
    (c.table kind).entries.map Entry.owner = (c'.table kind).entries.map Entry.owner
  fields : c.fields = c'.fields
  methods : c.methods = c'.methods

end Cache

namespace Estate

variable {e e' : Estate} {f : Ref → Ref} {count : Counts}

/-- Null or sent: what has become of a reference. -/
def Traced (e e' : Estate) (f : Ref → Ref) (r r' : Ref) : Prop :=
  (r = .null ∧ r' = .null) ∨ (r ≠ .null ∧ r' ≠ .null ∧ Heap.Followed f e.heap e'.heap r r')

theorem traced_linking : Linking (Traced e e' f) where
  null := .inl ⟨rfl, rfl⟩
  null_iff := by
    rintro a b (⟨rfl, rfl⟩ | ⟨full, full', -⟩)
    · exact Iff.rfl
    · exact iff_of_false full full'

/-- A root is found where it was sent. -/
theorem Collected.followed (done : e.Collected f count e') (held : e.Held) {r : Ref}
    (root : r ∈ e.roots) : f r ≠ .null ∧ Heap.Followed f e.heap e'.heap r (f r) := by
  have live := held r root
  have before := Std.HashMap.getElem?_eq_some_getElem live
  have after : e'.heap.objects[f r]? = some e.heap.objects[r] := by rw [done.carried r root, before]
  refine ⟨done.wellFormed.ne_null_of_mem ?_, rfl, _, before, after⟩
  rw [Std.HashMap.mem_iff_isSome_getElem?, after]
  rfl

/-- **A collected cache is similar to what it was.** -/
theorem Collected.similar (done : e.Collected f count e') (held : e.Held) {c : Cache}
    (mem : c ∈ e.caches) : c.Similar (Traced e e' f) (c.sent f) := by
  refine (Cache.Similar.refl c).sent_right ?_ ?_
  · rintro a rfl
    exact .inl ⟨rfl, rfl⟩
  · rintro a b root rfl
    obtain ⟨full, followed⟩ := done.followed held (List.mem_flatMap.mpr ⟨c, mem, root⟩)
    exact .inr ⟨(Cache.mem_roots.mp root).2, full, followed⟩

/-- What a reference has become, if it is not null, it was followed to. -/
theorem Traced.followed {r r' : Ref} (traced : Traced e e' f r r') (full : r ≠ .null) :
    Heap.Followed f e.heap e'.heap r r' := by
  rcases traced with ⟨rfl, -⟩ | ⟨-, -, followed⟩
  · exact absurd rfl full
  · exact followed

theorem Collected.preserved (done : e.Collected f count e') (held : e.Held) {c : Cache}
    (mem : c ∈ e.caches) : c.Preserved f e.heap e'.heap (c.sent f) := by
  have similar := done.similar held mem
  constructor
  case found =>
    intro host dirty kind index
    have resolvers : Resolver.Similar (Traced e e' f) ⟨c, host, dirty⟩ ⟨c.sent f, host, dirty⟩ :=
      ⟨similar, rfl⟩
    -- the two resolvers differ in the references alone, which no lookup looks into
    have found := Resolver.find_agree traced_linking resolvers kind index
    generalize Resolver.find ⟨c, host, dirty⟩ kind index = x at found
    generalize Resolver.find ⟨c.sent f, host, dirty⟩ kind index = y at found
    cases found with
    | error e => exact .error e
    | ok answers =>
      cases answers with
      | none => exact .ok .none
      | some full => exact .ok (.some (full.1.followed full.2))
  case location =>
    have location := Address.nonNull_related traced_linking similar.location
    generalize c.location.nonNull = x at location
    generalize (c.sent f).location.nonNull = y at location
    cases location with
    | none => exact .none
    | some full => exact .some (full.1.followed full.2)
  case owners =>
    intro kind
    apply Array.ext_getElem?
    intro slot
    have at_slot := similar.table kind slot
    rw [Array.getElem?_map, Array.getElem?_map]
    generalize (c.table kind).entries[slot]? = x at at_slot
    generalize ((c.sent f).table kind).entries[slot]? = y at at_slot
    cases at_slot with
    | none => rfl
    | some same => rw [Option.map_some, Option.map_some, same.1]
  case fields => rfl
  case methods => rfl

/-- After a collection, too, every root leads to a live object. -/
theorem Collected.held (done : e.Collected f count e') (held : e.Held) : e'.Held := by
  intro r root
  obtain ⟨c', mem', root⟩ := List.mem_flatMap.mp root
  rw [done.caches] at mem'
  obtain ⟨c, mem, rfl⟩ := List.mem_map.mp mem'
  rw [Cache.mem_roots, Cache.references_sent] at root
  obtain ⟨source, there, rfl⟩ := List.mem_map.mp root.1
  -- a root of a sent cache comes from a root
  have full : source ≠ .null := by
    rintro rfl
    exact root.2 (Address.sent_null f)
  rw [Address.sent_of_ne full]
  have source_root := List.mem_flatMap.mpr ⟨c, mem, Cache.mem_roots.mpr ⟨there, full⟩⟩
  obtain ⟨-, -, object, -, after⟩ := done.followed held source_root
  rw [Std.HashMap.mem_iff_isSome_getElem?, after]
  rfl

/-- Whatever is left is held by some cache. -/
theorem Collected.referenced (done : e.Collected f count e') {r : Ref}
    (live : r ∈ e'.heap.objects) : ∃ c ∈ e'.caches, r ∈ c.roots := by
  obtain ⟨source, root, rfl⟩ := done.onto r live
  obtain ⟨c, mem, root⟩ := List.mem_flatMap.mp root
  rw [done.caches]
  exact ⟨c.sent f, List.mem_map_of_mem mem,
    Cache.sent_mem_roots root (done.wellFormed.ne_null_of_mem live)⟩

/-- **A full collection preserves everything that the caches can answer and keeps nothing else.**
Take a heap that was reached without running out of places, any caches whose roots are live in it,
and any order of moving. If there is a place for every survivor, the collection ends. Some function
`f`, one-to-one on the roots, tells where each root went: every cache finds afterwards what it found
before, with its references sent by `f` and leading to the same objects; owners and native records
stand as they stood. Every object left is a root of some cache. The sweep freed what no cache held,
every survivor was moved once, and every root was sent. -/
theorem collect_preserves {e : Estate} (s : Shuffle) (reachable : e.heap.Reachable) (held : e.Held)
    (enough : e.survivors.length ≤ e.heap.room) :
    ∃ f count e', e.collect s = .ok count e' ∧
      List.Forall₂ (Cache.Preserved f e.heap e'.heap) e.caches e'.caches ∧
      (∀ r ∈ e.roots, ∀ r' ∈ e.roots, f r = f r' → r = r') ∧
      (∀ r ∈ e'.heap.objects, ∃ c ∈ e'.caches, r ∈ c.roots) ∧
      count.freed + e.survivors.length = e.heap.size ∧
      count.moved = e.survivors.length ∧
      e'.heap.size = e.survivors.length ∧
      count.sent = e.roots.length ∧
      e'.heap.Reachable ∧ e'.Held := by
  obtain ⟨f, count, e', ran, done⟩ := collect_ok s reachable.wellFormed held enough
  refine ⟨f, count, e', ran, ?_, done.injective, fun r live => done.referenced live, done.freed,
    done.moved, done.size, done.sent, reachable_collect reachable ran, done.held held⟩
  rw [done.caches, List.forall₂_map_right_iff, List.forall₂_same]
  exact fun c mem => done.preserved held mem

/-- A heap with one string, and a cache that holds it three times: as its location, in its table of
strings and in its overlay. -/
def oneString : Estate where
  heap := ({} : Heap).withNew (.string "core.jar")
  caches :=
    [{ id := ⟨1⟩
       file := { location := "core.jar", strings := 1 }
       settings := {}
       location := ({} : Heap).place
       strings := ⟨#[.ofEntry ⟨({} : Heap).place, 0⟩]⟩
       types := ⟨#[]⟩
       methodTypes := ⟨#[]⟩
       fields := ⟨#[]⟩
       methods := ⟨#[]⟩
       callSites := ⟨#[]⟩
       overlay :=
         { size := 1, offered := true, count := 1, storage := some #[({} : Heap).place] } }]

theorem collect_preserves_oneString :
    oneString.heap.Reachable ∧ oneString.Held ∧ oneString.survivors.length ≤ oneString.heap.room ∧
      ∃ f count e', oneString.collect .reversed = .ok count e' ∧
        List.Forall₂ (Cache.Preserved f oneString.heap e'.heap) oneString.caches e'.caches ∧
        count.sent = 3 := by
  have reachable : oneString.heap.Reachable :=
    .allocate .empty (Heap.wellFormed_empty.allocate_ok (by decide) (.string "core.jar"))
  have roots : oneString.roots = List.replicate 3 ({} : Heap).place := by decide +kernel
  have held : oneString.Held := by
    intro r root
    rw [roots] at root
    rw [List.eq_of_mem_replicate root]
    exact Std.HashMap.mem_insert_self
  have enough : oneString.survivors.length ≤ oneString.heap.room := by
    have size : oneString.heap.objects.size = 1 := Heap.wellFormed_empty.size_withNew _
    refine Nat.le_trans oneString.length_survivors_le ?_
    rw [size]
    decide
  obtain ⟨f, count, e', ran, preserved, -, -, -, -, -, sent, -⟩ :=
    collect_preserves .reversed reachable held enough
  refine ⟨reachable, held, enough, f, count, e', ran, preserved, ?_⟩
  rw [sent, roots]
  rfl

end Estate

end ResolutionCache
