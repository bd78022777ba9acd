import Mathlib.Data.List.Perm.Subperm
import ResolutionCache.LoadTest.Collection
import ResolutionCache.Proofs.LoadTest.Turns

/-!
# Collections keep a load test sound

What a load test does between its rounds is a full collection of its heap and of its cache alone
(`LoadTest.collectOnce_agrees`). Because no object is held twice, it moves as many objects as it
sends roots after them, so the load test goes on (`LoadTest.collect_within`). Every survivor takes a
place.
-/

namespace ResolutionCache

open Attempt

/-- A bound for the roots of a cache for a file without prototypes, whose overlay is off. -/
def SymbolFile.mostRoots (file : SymbolFile) : Nat :=
  1 + file.strings.toNat + file.types.toNat + file.callSites.toNat

theorem Cache.Stocked.length_roots_le {c : Cache} {file : SymbolFile} {records : FieldTable}
    {h : Heap} (stocked : c.Stocked file records h) : c.roots.length ≤ file.mostRoots := by
  have strings : c.strings.size ≤ file.strings.toNat :=
    Nat.le_trans (Nat.le_of_eq (stocked.slots .string)) (slotCount_le_ids _ _)
  have types : c.types.size ≤ file.types.toNat :=
    Nat.le_trans (Nat.le_of_eq (stocked.slots .type)) (slotCount_le_ids _ _)
  have callSites : c.callSites.entries.toList.length = file.callSites.toNat := stocked.callSites
  have overlay : c.overlay.references = [] := by
    rw [Overlay.references, Overlay.entries?, stocked.overlay]
    rfl
  have all : c.references.length ≤ file.mostRoots := by
    rw [references_eq, overlay]
    simp only [List.length_append, List.length_singleton, List.length_nil,
      DirectMap.length_payloads, stocked.methodTypes, SymbolFile.mostRoots]
    omega
  exact Nat.le_trans (List.length_filter_le _ _) all

namespace LoadTest

variable {σ : Type} {file : SymbolFile} {w : LoadTest}

/-- The heap of a load test, and the one cache that holds its objects. -/
def estate (w : LoadTest) : Estate := ⟨w.heap, [w.resolver.cache]⟩

/-- A pass over the cache changes the cache and the journal. -/
theorem scan_eq {v : Visitor 32 σ} {f : Ref → Ref} (answers : v.AnswersBy f) (state : σ)
    (w : LoadTest) : ∃ journal,
      scan v state w = .ok (v.after state w.resolver.cache.references)
        { w with resolver := { w.resolver with cache := w.resolver.cache.sent f }, journal } := by
  rw [← Cache.scan_sent answers _ state, ← Cache.scan_state answers]
  exact ⟨_, rfl⟩

theorem onHeap_sweep (marks : MarkSet) (w : LoadTest) :
    (onHeap fun h =>
      let (freed, h) := h.sweep marks
      .ok freed h : Attempt LoadTest Nat) w =
      .ok (w.heap.sweep marks).1 { w with heap := (w.heap.sweep marks).2 } := rfl

/-- **A collection of a load test** is a full collection of its heap and its cache, in the order of
its surroundings. These and the host are left alone. -/
theorem collectOnce_agrees (w : LoadTest) :
    Agree
      (fun w' e => w'.heap = e.heap ∧ e.caches = [w'.resolver.cache] ∧
        w'.resolver.host = w.resolver.host ∧ w'.surroundings = w.surroundings)
      (fun counted count => counted = (count.moved, count.sent))
      (collectOnce w) (w.estate.collect w.surroundings.order) := by
  have marks : MarkSet.marking.after {} w.resolver.cache.references = w.estate.marks := by
    rw [Estate.marks, estate, List.flatMap_singleton]
  have references : w.estate.caches.flatMap Cache.references = w.resolver.cache.references :=
    List.flatMap_singleton ..
  obtain ⟨journal, marked⟩ := scan_eq MarkSet.marking_answers {} w
  rw [Cache.sent_id, marks] at marked
  rw [Estate.collect_eq, references]
  -- marking and sweeping cannot fail; only the move may run out of places
  refine .after marked (.after (onHeap_sweep _ _) (.after rfl ?_))
  cases moved : Heap.moveAllBy w.surroundings.order w.estate.swept with
  | error f h =>
    rw [bind_error (onHeap_error moved)]
    exact .error f ⟨rfl, rfl, rfl, rfl⟩
  | ok n h =>
    refine .after (onHeap_ok moved) (.after rfl (.after rfl ?_))
    exact .after (scan_eq h.following_answers 0 _).choose_spec (.ok rfl ⟨rfl, rfl, rfl, rfl⟩)

/-- **After a collection** that counted the objects moved and the roots sent: there are as many
roots as objects, and the load test is sound. -/
structure Settled (file : SymbolFile) (counted : Nat × Nat) (w : LoadTest) : Prop where
  sound : w.Sound file
  balanced : counted.2 = counted.1
  size : w.heap.size = counted.1
  roots : w.resolver.cache.roots.length = counted.1

/-- **A collection** moves as many objects as it sends roots, and takes a place for each. -/
theorem collectOnce_within (sound : w.Sound file) :
    Within w.heap.room file.mostRoots (Settled file) (collectOnce w) := by
  have agree := collectOnce_agrees w
  have most : w.estate.survivors.length ≤ file.mostRoots := by
    rw [estate, sound.stocked.length_survivors, Estate.roots, List.flatMap_singleton]
    exact sound.stocked.length_roots_le
  by_cases enough : w.estate.survivors.length ≤ w.heap.room
  · have held : w.estate.Held := by
      intro r root
      rw [estate, Estate.roots, List.flatMap_singleton] at root
      exact sound.stocked.held root
    obtain ⟨f, count, e', ran, done⟩ :=
      Estate.collect_ok w.surroundings.order sound.wellFormed held enough
    rw [ran] at agree
    generalize collectOnce w = result at agree
    cases agree with
    | @ok counted _ w' _ answered left =>
      obtain ⟨heap, caches, host, surroundings⟩ := left
      have sent : w'.resolver.cache = w.resolver.cache.sent f :=
        (List.singleton_inj.mp (done.caches.symm.trans caches)).symm
      -- one root for each survivor
      have balanced : count.sent = count.moved := by
        rw [done.sent, done.moved, estate, sound.stocked.length_survivors]
      have full (r : Ref) (root : r ∈ w.resolver.cache.roots) : f r ≠ .null :=
        (done.followed held (by rwa [estate, Estate.roots, List.flatMap_singleton])).1
      subst answered
      refine .ok ⟨⟨?_, ?_, ?_, ?_⟩, balanced, ?_, ?_⟩ ?_
      · rw [heap]
        exact done.wellFormed
      · rw [heap, sent, surroundings]
        exact sound.stocked.collected sound.wellFormed done
      · rw [host, sound.host]
      · rw [sent]
        exact sound.filed.sent full
      · rw [heap, Heap.size, done.size, done.moved]
      · rw [sent, Cache.roots_sent full, List.length_map, ← balanced, done.sent, estate,
          Estate.roots, List.flatMap_singleton]
      · have next := done.next
        unfold Heap.room at enough ⊢
        rw [heap, next]
        show _ ≤ (_ - (w.heap.next.toNat + _)) / 8 + _
        omega
  · obtain ⟨e', ran, wrapped⟩ :=
      Estate.collect_error w.surroundings.order sound.wellFormed (Nat.lt_of_not_le enough)
    rw [ran] at agree
    generalize collectOnce w = result at agree
    cases agree with
    | error _ left => exact .exhausted (left.1 ▸ wrapped) (by omega)

/-- **A collection of a sound load test** does not stop it, unless places run out. -/
theorem collect_within (sound : w.Sound file) :
    Within w.heap.room file.mostRoots (fun _ w' => w'.Sound file) (collect w) := by
  refine (collectOnce_within sound).stoppingWith.bind_free
    fun (moved, sent) w' settled => ?_
  have balanced : sent = moved := settled.balanced
  show Within w'.heap.room 0 _ ((if sent ≠ moved then _ else _ : EStateM LoadTestError _ _) w')
  rw [if_neg (not_not_intro balanced)]
  exact .ok settled.sound (by omega)

/-- After a collection the places of the objects are the roots. -/
theorem Settled.perm_keys {counted : Nat × Nat} (settled : Settled file counted w) :
    w.resolver.cache.roots.Perm w.heap.objects.keys := by
  have stocked := settled.sound.stocked
  have within : w.resolver.cache.roots ⊆ w.heap.objects.keys := fun r root =>
    Std.HashMap.mem_keys.mpr (stocked.held root)
  have as_many : w.heap.objects.keys.length ≤ w.resolver.cache.roots.length := by
    rw [Std.HashMap.length_keys, settled.roots]
    exact Nat.le_of_eq settled.size
  exact (List.subperm_of_subset stocked.distinct within).perm_of_length_le as_many

end LoadTest

end ResolutionCache
