import ResolutionCache.Proofs.Heap.Moves

/-!
# The heaps that operations lead to

`Heap.Reachable` holds of the heaps that come from the empty one by allocating, moving one object
or all of them in any order, sweeping and ending epochs, as long as no place is asked for in vain.
All of them are well formed (`Heap.Reachable.wellFormed`), so what an operation needs to know about
where it works is `Heap.WellFormed` alone.
-/

namespace ResolutionCache

namespace Heap

/-! ### Allocating -/

/-- The heap with a new object at its next place. -/
def withNew (h : Heap) (object : Object) : Heap :=
  { h.advance with objects := h.objects.insert h.place object }

theorem allocate_eq (h : Heap) (object : Object) :
    allocate object h =
      if usable h.next then .ok h.place (h.withNew object)
      else .error .spaceExhausted h.advance := by
  have next := nextPlace_eq h
  unfold allocate
  split
  · rw [if_pos ‹_›] at next
    rw [Attempt.bind_ok next]
    rfl
  · rw [if_neg ‹_›] at next
    rw [Attempt.bind_error next]

theorem getElem?_objects_withNew (h : Heap) (object : Object) (r : Ref) :
    (h.withNew object).objects[r]? = if h.place = r then some object else h.objects[r]? := by
  simp [withNew, Std.HashMap.getElem?_insert]

namespace WellFormed

variable {h : Heap}

/-- With room left an allocation succeeds. -/
theorem allocate_ok (wf : h.WellFormed) (room : 0 < h.room) (object : Object) :
    allocate object h = .ok h.place (h.withNew object) := by
  rw [allocate_eq, if_pos (wf.usable_iff.mpr room)]

/-- Without room an allocation stops at the end of the address space. -/
theorem allocate_error (wf : h.WellFormed) (full : h.room = 0) (object : Object) :
    allocate object h = .error .spaceExhausted h.advance := by
  rw [allocate_eq, if_neg]
  rw [wf.usable_iff, full]
  exact Nat.lt_irrefl 0

theorem withNew (wf : h.WellFormed) (room : 0 < h.room) (object : Object) :
    (h.withNew object).WellFormed := by
  have after := wf.advance room
  refine ⟨after.aligned, after.started, after.bounded, ?_, ?_, wf.injective⟩
  · intro r mem
    rcases Std.HashMap.mem_insert.mp mem with same | there
    · rw [← eq_of_beq same]
      exact wf.handedOut_place room
    · exact after.live r there
  · intro r t entry
    obtain ⟨gone, up, out⟩ := after.forwards r t entry
    refine ⟨?_, up, out⟩
    intro mem
    rcases Std.HashMap.mem_insert.mp mem with same | there
    · have unforwarded := wf.place_not_forwarded
      rw [eq_of_beq same, show h.forwarding[r]? = some t from entry] at unforwarded
      cases unforwarded
    · exact gone there

/-- What lives before an allocation lives after it, at the same place. -/
theorem getElem?_withNew_of_mem (wf : h.WellFormed) {r : Ref} (mem : r ∈ h.objects)
    (object : Object) : (h.withNew object).objects[r]? = h.objects[r]? := by
  rw [getElem?_objects_withNew, if_neg]
  rintro rfl
  exact wf.place_not_mem mem

/-- An allocation adds one object. -/
theorem size_withNew (wf : h.WellFormed) (object : Object) :
    (h.withNew object).objects.size = h.objects.size + 1 := by
  show (h.objects.insert h.place object).size = _
  rw [Std.HashMap.size_insert, if_neg wf.place_not_mem]

/-! ### Moving -/

theorem moveAllBy_ok (wf : h.WellFormed) (s : Shuffle) (enough : h.objects.size ≤ h.room) :
    ∃ h', moveAllBy s h = .ok h.objects.size h' ∧ h.Moved (s.apply h.objects.keys) h' := by
  have listed := s.perm h.objects.keys
  have length : (s.apply h.objects.keys).length = h.objects.size :=
    listed.length_eq.trans Std.HashMap.length_keys
  have nodup : (s.apply h.objects.keys).Nodup := listed.nodup_iff.mpr Std.HashMap.nodup_keys
  have live : ∀ r ∈ s.apply h.objects.keys, r ∈ h.objects := fun r mem =>
    Std.HashMap.mem_keys.mp (listed.mem_iff.mp mem)
  obtain ⟨h', ran, moved⟩ := wf.moveInOrder_ok nodup live (by omega)
  refine ⟨h', ?_, moved⟩
  simp only [moveAllBy]
  rw [Attempt.bind_ok (Attempt.get_apply h), Attempt.bind_ok ran, length]
  rfl

theorem moveAllBy_error (wf : h.WellFormed) (s : Shuffle) (short : h.room < h.objects.size) :
    ∃ h', moveAllBy s h = .error .spaceExhausted h' ∧ h'.next = 0 := by
  have listed := s.perm h.objects.keys
  have length : (s.apply h.objects.keys).length = h.objects.size :=
    listed.length_eq.trans Std.HashMap.length_keys
  rw [← length] at short
  obtain ⟨h', stopped, wrapped⟩ := wf.moveInOrder_error short
  refine ⟨h', ?_, wrapped⟩
  simp only [moveAllBy]
  rw [Attempt.bind_ok (Attempt.get_apply h), Attempt.bind_error stopped]

end WellFormed

/-! ### Sweeping and ending an epoch -/

theorem getElem?_objects_sweep (h : Heap) (marked : MarkSet) (r : Ref) :
    (h.sweep marked).2.objects[r]? = if marked.contains r then h.objects[r]? else none := by
  simp only [sweep, Std.HashMap.getElem?_filter']
  cases h.objects[r]? <;> cases marked.contains r <;> rfl

theorem mem_objects_sweep (h : Heap) (marked : MarkSet) (r : Ref) :
    r ∈ (h.sweep marked).2.objects ↔ r ∈ h.objects ∧ marked.contains r = true := by
  simp only [Std.HashMap.mem_iff_isSome_getElem?, getElem?_objects_sweep]
  cases marked.contains r <;> simp

namespace WellFormed

variable {h : Heap}

theorem sweep (wf : h.WellFormed) (marked : MarkSet) : (h.sweep marked).2.WellFormed := by
  refine ⟨wf.aligned, wf.started, wf.bounded, ?_, ?_, wf.injective⟩
  · exact fun r mem => wf.live r ((mem_objects_sweep h marked r).mp mem).1
  · intro r t entry
    obtain ⟨gone, up, out⟩ := wf.forwards r t entry
    exact ⟨fun mem => gone ((mem_objects_sweep h marked r).mp mem).1, up, out⟩

theorem endEpoch (wf : h.WellFormed) : h.endEpoch.WellFormed where
  aligned := wf.aligned
  started := wf.started
  bounded := wf.bounded
  live := wf.live
  forwards := by simp [Heap.endEpoch]
  injective := by simp [Heap.endEpoch]

end WellFormed

/-! ### Reachability -/

/-- **The heaps reached without running out of places.** -/
inductive Reachable : Heap → Prop where
  | empty : Reachable {}
  | allocate {h h' : Heap} {object : Object} {r : Ref} :
    Reachable h → Heap.allocate object h = .ok r h' → Reachable h'
  | move {h h' : Heap} {r : Ref} {target : Option Ref} :
    Reachable h → Heap.move r h = .ok target h' → Reachable h'
  | moveAll {h h' : Heap} {s : Shuffle} {count : Nat} :
    Reachable h → moveAllBy s h = .ok count h' → Reachable h'
  | sweep {h : Heap} (marked : MarkSet) : Reachable h → Reachable (h.sweep marked).2
  | endEpoch {h : Heap} : Reachable h → Reachable h.endEpoch

theorem move_eq (h : Heap) (r : Ref) :
    move r h =
      if usable h.next then .ok (if h.contains r then some h.place else none) (h.moveNext r)
      else .error .spaceExhausted h.advance := by
  have next := nextPlace_eq h
  unfold move
  split
  · rw [if_pos ‹_›] at next
    rw [Attempt.bind_ok next]
    rfl
  · rw [if_neg ‹_›] at next
    rw [Attempt.bind_error next]

/-- **Every reachable heap is well formed.** -/
theorem Reachable.wellFormed {h : Heap} (reachable : h.Reachable) : h.WellFormed := by
  induction reachable with
  | empty => exact wellFormed_empty
  | allocate _ ran wf =>
    rw [allocate_eq] at ran
    split at ran
    · cases ran
      exact wf.withNew (wf.usable_iff.mp ‹_›) _
    · cases ran
  | move _ ran wf =>
    rw [move_eq] at ran
    split at ran
    · cases ran
      exact wf.moveNext (wf.usable_iff.mp ‹_›) _
    · cases ran
  | @moveAll h h' s count _ ran wf =>
    -- a move that ended had room for everybody
    rcases Nat.lt_or_ge h.room h.objects.size with short | enough
    · obtain ⟨_, stopped, -⟩ := wf.moveAllBy_error s short
      rw [stopped] at ran
      cases ran
    · obtain ⟨_, ran', moved⟩ := wf.moveAllBy_ok s enough
      rw [ran'] at ran
      cases ran
      exact moved.wellFormed
  | sweep marked _ wf => exact wf.sweep marked
  | endEpoch _ wf => exact wf.endEpoch

end Heap

end ResolutionCache
