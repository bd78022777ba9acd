import ResolutionCache.Proofs.Attempt
import ResolutionCache.Proofs.Heap.Places

/-!
# Moving everything

Moving objects in an order takes the `i`-th of them to the `i`-th place that is handed out from
then on. `Heap.dest` is that map from old places to new ones, and `Heap.Moved` says what a heap is
like after the move: the objects are the ones from before at their destinations, each old place
forwards to its destination, and nothing else has changed. `WellFormed.moveInOrder_ok` says that
the move gets there whenever there is room for it.
-/

namespace ResolutionCache

namespace Heap

/-! ### Moving one object -/

/-- The heap once the object at `r` has moved to the next place. -/
def moveNext (h : Heap) (r : Ref) : Heap := h.advance.relocate r h.place

section

variable {h : Heap} {r : Ref} {object : Object}

theorem moveNext_eq (found : h.objects[r]? = some object) :
    h.moveNext r =
      { h.advance with
        objects := (h.objects.erase r).insert h.place object
        forwarding := h.forwarding.insert r h.place } := by
  simp [moveNext, relocate, found]

/-- If nothing is at `r` a place is used up all the same. -/
theorem moveNext_of_dead (dead : h.objects[r]? = none) : h.moveNext r = h.advance := by
  simp [moveNext, relocate, dead]

theorem next_moveNext : (h.moveNext r).next = h.advance.next := by
  unfold moveNext relocate
  split <;> rfl

theorem epoch_moveNext : (h.moveNext r).epoch = h.epoch := by
  unfold moveNext relocate
  split <;> rfl

theorem getElem?_objects_moveNext (found : h.objects[r]? = some object) (x : Ref) :
    (h.moveNext r).objects[x]? =
      if h.place = x then some object else if r = x then none else h.objects[x]? := by
  simp [moveNext_eq found, Std.HashMap.getElem?_insert, Std.HashMap.getElem?_erase]

theorem getElem?_forwarding_moveNext (found : h.objects[r]? = some object) (x : Ref) :
    (h.moveNext r).forwarding[x]? = if r = x then some h.place else h.forwarding[x]? := by
  simp [moveNext_eq found, Std.HashMap.getElem?_insert]

theorem mem_objects_moveNext (mem : r ∈ h.objects) (x : Ref) :
    x ∈ (h.moveNext r).objects ↔ h.place = x ∨ (r ≠ x ∧ x ∈ h.objects) := by
  have found := Std.HashMap.getElem?_eq_some_getElem mem
  simp [moveNext_eq found, Std.HashMap.mem_insert, Std.HashMap.mem_erase]

theorem size_objects_moveNext (fresh : h.place ∉ h.objects) (mem : r ∈ h.objects) :
    (h.moveNext r).objects.size = h.objects.size := by
  have found := Std.HashMap.getElem?_eq_some_getElem mem
  -- one object leaves and one arrives; the subtraction needs that there was one
  have some_object : h.objects.size ≠ 0 := by
    intro none_there
    have empty : h.objects.isEmpty := by rw [Std.HashMap.isEmpty_eq_size_eq_zero]; simp [none_there]
    exact Std.HashMap.not_mem_of_isEmpty empty mem
  have vacant : h.place ∉ h.objects.erase r := fun there =>
    fresh (Std.HashMap.mem_of_mem_erase there)
  rw [moveNext_eq found]
  simp only [Std.HashMap.size_insert, Std.HashMap.size_erase, vacant, mem, if_true, if_false]
  omega

end

namespace WellFormed

variable {h : Heap} {r : Ref}

theorem moveNext (wf : h.WellFormed) (room : 0 < h.room) (r : Ref) :
    (h.moveNext r).WellFormed := by
  cases found : h.objects[r]? with
  | none => exact (moveNext_of_dead found).symm ▸ wf.advance room
  | some object =>
    have mem : r ∈ h.objects := Std.HashMap.mem_iff_isSome_getElem?.mpr (by rw [found]; rfl)
    have r_out := wf.live r mem
    have after := wf.advance room
    have live : ∀ x ∈ (h.moveNext r).objects, h.advance.HandedOut x := by
      intro x x_mem
      rcases (mem_objects_moveNext mem x).mp x_mem with rfl | ⟨-, there⟩
      · exact wf.handedOut_place room
      · exact after.live x there
    rw [moveNext_eq found] at live ⊢
    refine ⟨after.aligned, after.started, after.bounded, live, ?_, ?_⟩
    · -- the new entry leads up from the place just left; the old ones keep away from both
      intro x t
      simp only [Std.HashMap.getElem?_insert, beq_iff_eq, Std.HashMap.mem_insert,
        Std.HashMap.mem_erase]
      split
      · rintro ⟨⟩
        rename_i same
        subst same
        have below := r_out.2.2
        refine ⟨?_, by rw [toNat_place]; exact below, wf.handedOut_place room⟩
        rintro (same | ⟨other, -⟩)
        · exact handedOut_ne_place r_out same.symm
        · simp at other
      · intro entry
        obtain ⟨gone, up, out⟩ := wf.forwards x t entry
        refine ⟨?_, up, wf.handedOut_advance room out⟩
        rintro (same | ⟨-, there⟩)
        · subst same
          rw [wf.place_not_forwarded] at entry
          cases entry
        · exact gone there
    · -- no old entry leads to a place that has not been handed out yet
      intro x x' t
      simp only [Std.HashMap.getElem?_insert, beq_iff_eq]
      split <;> split
      · rintro - -
        exact (‹r = x›).symm.trans ‹r = x'›
      · rintro ⟨⟩ entry
        exact absurd rfl (handedOut_ne_place (wf.forwards x' _ entry).2.2)
      · rintro entry ⟨⟩
        exact absurd rfl (handedOut_ne_place (wf.forwards x _ entry).2.2)
      · exact wf.injective x x' t

theorem toNat_next_moveNext (wf : h.WellFormed) (room : 0 < h.room) :
    (h.moveNext r).next.toNat = h.next.toNat + 8 := by
  rw [next_moveNext, wf.toNat_next_advance room]

theorem room_moveNext (wf : h.WellFormed) (room : 0 < h.room) :
    (h.moveNext r).room + 1 = h.room := by
  have next := wf.toNat_next_moveNext (r := r) room
  simp only [Heap.room, limit] at *
  omega

end WellFormed

/-! ### Moving objects in an order -/

/-- Where an object goes when objects are moved in an order: its turn decides. -/
def dest (h : Heap) (order : List Ref) (r : Ref) : Ref :=
  .ofNat (h.next.toNat + 8 * order.idxOf r)

/-- Objects move to places of their own. -/
theorem dest_injOn {h : Heap} {order : List Ref} (enough : order.length ≤ h.room) {r r' : Ref}
    (mem : r ∈ order) (mem' : r' ∈ order) (same : h.dest order r = h.dest order r') : r = r' := by
  have turn := List.idxOf_lt_length_iff.mpr mem
  have turn' := List.idxOf_lt_length_iff.mpr mem'
  have numbers := congrArg Address.toNat same
  simp only [dest, Address.toNat, Address.ofNat, BitVec.toNat_ofNat] at numbers
  simp only [room, limit] at enough
  -- there is room for all of them, so no destination wraps around
  have turns : order.idxOf r = order.idxOf r' := by omega
  have here := List.getElem_idxOf turn
  have there := List.getElem_idxOf turn'
  rw [← here, ← there]
  simp only [turns]

/-- **A heap after a move.** The objects named by `order`, and no others, have moved, each to its
destination. -/
structure Moved (h : Heap) (order : List Ref) (h' : Heap) : Prop where
  wellFormed : h'.WellFormed
  next : h'.next.toNat = h.next.toNat + 8 * order.length
  epoch : h'.epoch = h.epoch
  size : h'.objects.size = h.objects.size
  /-- A destination has the object that was at the source. -/
  arrived : ∀ r ∈ order, h'.objects[h.dest order r]? = h.objects[r]?
  /-- What was not to be moved is where it was. -/
  stayed : ∀ r ∉ order, r.toNat < h.next.toNat → h'.objects[r]? = h.objects[r]?
  /-- Every object either arrived or stayed. -/
  origin : ∀ r ∈ h'.objects,
    (∃ source ∈ order, r = h.dest order source) ∨ (r ∈ h.objects ∧ r ∉ order)
  /-- Each source forwards to its destination. -/
  forwarded : ∀ r ∈ order, h'.forwarding[r]? = some (h.dest order r)
  /-- Other places forward where they did. -/
  unforwarded : ∀ r ∉ order, h'.forwarding[r]? = h.forwarding[r]?

section

variable {h : Heap} {r : Ref} {rest : List Ref}

theorem dest_cons_self : h.dest (r :: rest) r = h.place := by
  simp [dest, place, Address.ofNat]

/-- Everybody behind the head has the turn that it has once the head has moved. -/
theorem dest_cons_of_ne (wf : h.WellFormed) (room : 0 < h.room) {x : Ref} (ne : r ≠ x) :
    h.dest (r :: rest) x = (h.moveNext r).dest rest x := by
  have behind : (r :: rest).idxOf x = rest.idxOf x + 1 := by
    rw [List.idxOf_cons, beq_false_of_ne ne, cond_false]
  unfold dest
  rw [behind, wf.toNat_next_moveNext room]
  congr 1
  omega

end

/-- A move of nothing. -/
theorem Moved.refl {h : Heap} (wf : h.WellFormed) : h.Moved [] h where
  wellFormed := wf
  next := by simp
  epoch := rfl
  size := rfl
  arrived := by simp
  stayed := by simp
  origin := by simp
  forwarded := by simp
  unforwarded := by simp

/-- Moving one object and then others is moving them all. -/
theorem Moved.cons {h h' : Heap} {r : Ref} {rest : List Ref} (wf : h.WellFormed)
    (room : 0 < h.room) (live : r ∈ h.objects) (once : r ∉ rest)
    (live_rest : ∀ x ∈ rest, x ∈ h.objects) (moved : (h.moveNext r).Moved rest h') :
    h.Moved (r :: rest) h' := by
  have found := Std.HashMap.getElem?_eq_some_getElem live
  have next := wf.toNat_next_moveNext (r := r) room
  have place_once : h.place ∉ rest := fun mem => wf.place_not_mem (live_rest _ mem)
  have ne_of_mem : ∀ x ∈ rest, r ≠ x := fun x mem same => once (same ▸ mem)
  constructor
  case wellFormed => exact moved.wellFormed
  case next =>
    rw [moved.next, next, List.length_cons]
    omega
  case epoch => rw [moved.epoch, epoch_moveNext]
  case size => rw [moved.size, size_objects_moveNext wf.place_not_mem live]
  case arrived =>
    intro x mem
    rcases List.mem_cons.mp mem with rfl | mem
    · -- the head has arrived, and the others leave its place alone
      rw [dest_cons_self, moved.stayed _ place_once (by rw [next, toNat_place]; omega),
        getElem?_objects_moveNext found, if_pos rfl, found]
    · have below := (wf.live x (live_rest x mem)).2.2
      have ne_place : h.place ≠ x := fun same =>
        WellFormed.handedOut_ne_place (wf.live x (live_rest x mem)) same.symm
      rw [dest_cons_of_ne wf room (ne_of_mem x mem), moved.arrived x mem,
        getElem?_objects_moveNext found, if_neg ne_place, if_neg (ne_of_mem x mem)]
  case stayed =>
    intro x not_mem below
    rw [List.mem_cons, not_or] at not_mem
    have ne_place : h.place ≠ x := by
      rintro rfl
      exact Nat.lt_irrefl _ below
    rw [moved.stayed x not_mem.2 (by omega), getElem?_objects_moveNext found, if_neg ne_place,
      if_neg (Ne.symm not_mem.1)]
  case origin =>
    intro x mem
    -- what the rest has moved came from behind the head; what stayed may be the head itself
    rcases moved.origin x mem with ⟨source, source_mem, rfl⟩ | ⟨there, not_mem⟩
    · refine .inl ⟨source, List.mem_cons_of_mem _ source_mem, ?_⟩
      rw [dest_cons_of_ne wf room (ne_of_mem source source_mem)]
    · rcases (mem_objects_moveNext live x).mp there with rfl | ⟨ne, there⟩
      · exact .inl ⟨r, List.mem_cons_self, dest_cons_self.symm⟩
      · exact .inr ⟨there, by simp [Ne.symm ne, not_mem]⟩
  case forwarded =>
    intro x mem
    rcases List.mem_cons.mp mem with rfl | mem
    · rw [dest_cons_self, moved.unforwarded _ once, getElem?_forwarding_moveNext found, if_pos rfl]
    · rw [dest_cons_of_ne wf room (ne_of_mem x mem), moved.forwarded x mem]
  case unforwarded =>
    intro x not_mem
    rw [List.mem_cons, not_or] at not_mem
    rw [moved.unforwarded x not_mem.2, getElem?_forwarding_moveNext found,
      if_neg (Ne.symm not_mem.1)]

theorem moveInOrder_cons (h : Heap) (r : Ref) (rest : List Ref) :
    moveInOrder (r :: rest) h =
      if usable h.next then moveInOrder rest (h.moveNext r)
      else .error .spaceExhausted h.advance := by
  have next := nextPlace_eq h
  rw [moveInOrder]
  split
  · rw [if_pos ‹_›] at next
    rw [Attempt.bind_ok next]
    rfl
  · rw [if_neg ‹_›] at next
    rw [Attempt.bind_error next]

/-- **With room for everybody a move succeeds.** -/
theorem WellFormed.moveInOrder_ok {order : List Ref} : ∀ {h : Heap}, h.WellFormed →
    order.Nodup → (∀ r ∈ order, r ∈ h.objects) → order.length ≤ h.room →
    ∃ h', moveInOrder order h = .ok () h' ∧ h.Moved order h' := by
  induction order with
  | nil => exact fun wf _ _ _ => ⟨_, rfl, .refl wf⟩
  | cons r rest ih =>
    intro h wf nodup live enough
    obtain ⟨once, nodup⟩ := List.nodup_cons.mp nodup
    rw [List.length_cons] at enough
    have room : 0 < h.room := by omega
    have left := wf.room_moveNext (r := r) room
    have live_rest : ∀ x ∈ rest, x ∈ h.objects := fun x mem => live x (List.mem_cons_of_mem _ mem)
    have live_r := live r List.mem_cons_self
    -- the others are still there once the head has moved, and there is a place less for them
    obtain ⟨h', ran, moved⟩ := ih (wf.moveNext room r) nodup
      (fun x mem => (mem_objects_moveNext live_r x).mpr
        (.inr ⟨fun same => once (same ▸ mem), live_rest x mem⟩)) (by omega)
    refine ⟨h', ?_, .cons wf room live_r once live_rest moved⟩
    rw [moveInOrder_cons, if_pos (wf.usable_iff.mpr room), ran]

/-- **Without room for everybody a move stops at the end of the address space.** -/
theorem WellFormed.moveInOrder_error {order : List Ref} : ∀ {h : Heap}, h.WellFormed →
    h.room < order.length →
    ∃ h', moveInOrder order h = .error .spaceExhausted h' ∧ h'.next = 0 := by
  induction order with
  | nil => exact fun _ short => absurd short (Nat.not_lt_zero _)
  | cons r rest ih =>
    intro h wf short
    rw [moveInOrder_cons]
    rcases Nat.eq_zero_or_pos h.room with full | room
    · rw [if_neg (by rw [wf.usable_iff]; omega)]
      exact ⟨_, rfl, wf.next_advance_eq_zero_iff.mpr full⟩
    · rw [if_pos (wf.usable_iff.mpr room)]
      have left := wf.room_moveNext (r := r) room
      rw [List.length_cons] at short
      exact ih (wf.moveNext room r) (by omega)

end Heap

end ResolutionCache
