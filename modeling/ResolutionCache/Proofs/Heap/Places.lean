import ResolutionCache.Heap.Basic

/-!
# The places of a heap

A place is never handed out twice: the counter only moves up, and it stops at the end of the
address space. So the objects of a heap stand at places below the counter, the place handed out
next is nobody's, and a forwarding entry always leads upward, from a place that is empty to one
that was handed out later.

`Heap.WellFormed` is that invariant. It holds of the empty heap and every operation that does not
run out of places keeps it (`Heap.Reachable.wellFormed`).
-/

namespace ResolutionCache

namespace Heap

/-! ### Handing out places -/

/-- The counter's value when every place has been handed out. -/
def limit : Nat := 0xfffffff8

/-- The number of places that can still be handed out. -/
def room (h : Heap) : Nat := (limit - h.next.toNat) / 8

/-- The place to be handed out next. -/
def place (h : Heap) : Ref := ⟨h.next.toBitVec⟩

/-- The heap once its next place has been handed out. -/
def advance (h : Heap) : Heap := { h with next := h.next + alignment }

/-- A place that was handed out: a multiple of eight above null and below the counter. -/
def HandedOut (h : Heap) (r : Ref) : Prop :=
  8 ∣ r.toNat ∧ 0 < r.toNat ∧ r.toNat < h.next.toNat

/-- Where an object is found, one stands. -/
theorem mem_of_found {h : Heap} {r : Ref} {object : Object} (found : h.objects[r]? = some object) :
    r ∈ h.objects :=
  Std.HashMap.mem_iff_isSome_getElem?.mpr (by rw [found]; rfl)

@[simp] theorem toNat_place (h : Heap) : h.place.toNat = h.next.toNat := rfl

@[simp] theorem objects_advance (h : Heap) : h.advance.objects = h.objects := rfl

@[simp] theorem forwarding_advance (h : Heap) : h.advance.forwarding = h.forwarding := rfl

theorem nextPlace_eq (h : Heap) :
    nextPlace h =
      if usable h.next then .ok h.place h.advance else .error .spaceExhausted h.advance := rfl

/-! ### The invariant -/

/-- **A heap whose places are in order.** -/
structure WellFormed (h : Heap) : Prop where
  aligned : 8 ∣ h.next.toNat
  started : 8 ≤ h.next.toNat
  bounded : h.next.toNat ≤ limit
  /-- Objects stand at places that were handed out. -/
  live : ∀ r ∈ h.objects, h.HandedOut r
  /-- A forwarding entry leads from an empty place up to one that was handed out. -/
  forwards : ∀ r t : Ref, h.forwarding[r]? = some t →
    r ∉ h.objects ∧ r.toNat < t.toNat ∧ h.HandedOut t
  /-- No two forwarding entries lead to one place. -/
  injective : ∀ r r' t : Ref, h.forwarding[r]? = some t → h.forwarding[r']? = some t → r = r'

theorem wellFormed_empty : WellFormed {} where
  aligned := by decide
  started := by decide
  bounded := by decide
  live := by simp
  forwards := by simp
  injective := by simp

namespace WellFormed

variable {h : Heap}

/-- A place can be handed out as long as there is room. -/
theorem usable_iff (wf : h.WellFormed) : usable h.next = true ↔ 0 < h.room := by
  have started := wf.started
  have bounded := wf.bounded
  obtain ⟨k, hk⟩ := wf.aligned
  have positive : h.next ≠ 0 := by
    intro zero
    rw [zero] at started
    exact absurd started (by decide)
  simp only [usable, alignment, room, limit, bne_iff_ne, ne_eq, positive, not_false_eq_true,
    Bool.and_eq_true, decide_eq_true_eq, UInt32.lt_iff_toNat_lt, true_and] at *
  have cap : (0xffffffff - 8 : UInt32).toNat = 4294967287 := rfl
  omega

/-- With room left the counter does not wrap around. -/
theorem toNat_next_advance (wf : h.WellFormed) (room : 0 < h.room) :
    h.advance.next.toNat = h.next.toNat + 8 := by
  have bounded := wf.bounded
  obtain ⟨k, hk⟩ := wf.aligned
  have eight : alignment.toNat = 8 := rfl
  simp only [advance, UInt32.toNat_add, eight]
  simp only [Heap.room, limit] at *
  omega

/-- **The end of the address space.** Asking for a place takes the counter to zero when there is no
room left, and only then. -/
theorem next_advance_eq_zero_iff (wf : h.WellFormed) : h.advance.next = 0 ↔ h.room = 0 := by
  have bounded := wf.bounded
  obtain ⟨k, hk⟩ := wf.aligned
  have eight : alignment.toNat = 8 := rfl
  rw [← UInt32.toNat_inj]
  simp only [advance, UInt32.toNat_add, UInt32.toNat_zero, eight]
  simp only [room, limit] at *
  omega

theorem room_advance (wf : h.WellFormed) (room : 0 < h.room) : h.advance.room + 1 = h.room := by
  have next := wf.toNat_next_advance room
  simp only [Heap.room, limit] at *
  omega

/-- A place just handed out was never handed out before. -/
theorem handedOut_ne_place {r : Ref} (r_out : h.HandedOut r) : r ≠ h.place := by
  rintro rfl
  exact Nat.lt_irrefl _ r_out.2.2

theorem place_ne_null (wf : h.WellFormed) : h.place ≠ .null := by
  rw [ne_eq, Address.eq_null_iff_toNat, toNat_place]
  have := wf.started
  omega

theorem ne_null_of_mem (wf : h.WellFormed) {r : Ref} (mem : r ∈ h.objects) : r ≠ .null := by
  rw [ne_eq, Address.eq_null_iff_toNat]
  have := (wf.live r mem).2.1
  omega

theorem place_not_mem (wf : h.WellFormed) : h.place ∉ h.objects := fun mem =>
  handedOut_ne_place (wf.live _ mem) rfl

theorem place_not_forwarded (wf : h.WellFormed) : h.forwarding[h.place]? = none := by
  cases found : h.forwarding[h.place]? with
  | none => rfl
  | some t =>
    obtain ⟨-, up, out⟩ := wf.forwards _ _ found
    have := out.2.2
    rw [toNat_place] at up
    omega

/-- What was handed out before the counter moved on is still handed out after it did. -/
theorem handedOut_advance (wf : h.WellFormed) (room : 0 < h.room) {r : Ref}
    (out : h.HandedOut r) : h.advance.HandedOut r := by
  refine ⟨out.1, out.2.1, ?_⟩
  rw [wf.toNat_next_advance room]
  have := out.2.2
  omega

theorem handedOut_place (wf : h.WellFormed) (room : 0 < h.room) :
    h.advance.HandedOut h.place := by
  refine ⟨wf.aligned, ?_, ?_⟩
  · have := wf.started
    rw [toNat_place]
    omega
  · rw [toNat_place, wf.toNat_next_advance room]
    omega

theorem advance (wf : h.WellFormed) (room : 0 < h.room) : h.advance.WellFormed := by
  have next := wf.toNat_next_advance room
  obtain ⟨k, hk⟩ := wf.aligned
  have bounded := wf.bounded
  refine ⟨⟨k + 1, by omega⟩, by omega, ?_, ?_, ?_, wf.injective⟩
  · simp only [Heap.room, limit] at *
    omega
  · exact fun r mem => wf.handedOut_advance room (wf.live r mem)
  · intro r t found
    obtain ⟨gone, up, out⟩ := wf.forwards r t found
    exact ⟨gone, up, wf.handedOut_advance room out⟩

end WellFormed

end Heap

end ResolutionCache
