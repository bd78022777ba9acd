import ResolutionCache.Proofs.Collection

/-!
# The order of a move

A move of everything takes the objects in the order in which a hash map happens to list them, and
the order decides which object gets which place. All the same the outcome can be told without it
(`Heap.MovedAll`): how far the counter goes, which places are taken, which references forward, and
that behind each of them is the object that was there. Two moves in different orders satisfy one
description, so they are alike in all of this, and whoever follows the references finds the same
objects and counts the same number (`Heap.moves_alike`).
-/

namespace ResolutionCache.Heap

variable {h h' : Heap} {order : List Ref} {r : Ref} {s : Shuffle} {count : Nat}

/-! ### Destinations -/

/-- As long as there is room for all of them, destinations are places in a row. -/
theorem toNat_dest (enough : order.length ≤ h.room) (mem : r ∈ order) :
    (h.dest order r).toNat = h.next.toNat + 8 * order.idxOf r := by
  have turn := List.idxOf_lt_length_iff.mpr mem
  simp only [room, limit] at enough
  show (BitVec.ofNat 32 _).toNat = _
  rw [BitVec.toNat_ofNat]
  omega

/-- Each of the places in a row is somebody's destination. -/
theorem exists_dest (enough : order.length ≤ h.room) (nodup : order.Nodup) {k : Nat}
    (turn : k < order.length) (place : r.toNat = h.next.toNat + 8 * k) :
    ∃ source ∈ order, r = h.dest order source := by
  refine ⟨order[k], List.getElem_mem turn, ?_⟩
  rw [← Address.toNat_inj, toNat_dest enough (List.getElem_mem turn), nodup.idxOf_getElem, place]

/-! ### A move of everything, without its order -/

/-- **A heap after a move of everything,** whatever the order. -/
structure MovedAll (h h' : Heap) : Prop where
  /-- The counter moves on by a place for each object. -/
  next : h'.next.toNat = h.next.toNat + 8 * h.size
  /-- The objects stand in a row, from where the counter was. -/
  live : ∀ r, r ∈ h'.objects ↔ ∃ k < h.size, r.toNat = h.next.toNat + 8 * k
  /-- Besides those that forwarded before, the places left forward. -/
  forwards : ∀ r, r ∈ h'.forwarding ↔ r ∈ h.forwarding ∨ r ∈ h.objects
  /-- A place left forwards to the object that stood there. -/
  followed : ∀ r ∈ h.objects, ∃ t, h'.movedTo? r = some t ∧ h'.objects[t]? = h.objects[r]?

/-- Moving everything in an order is moving everything. -/
theorem Moved.movedAll (moved : h.Moved order h') (listed : ∀ r, r ∈ order ↔ r ∈ h.objects)
    (nodup : order.Nodup) (size : order.length = h.size) (enough : order.length ≤ h.room) :
    h.MovedAll h' := by
  constructor
  case next => rw [moved.next, size]
  case live =>
    intro r
    rw [← size]
    constructor
    · intro mem
      -- everything was listed, so nothing stayed where it was
      rcases moved.origin r mem with ⟨source, there, rfl⟩ | ⟨there, unlisted⟩
      · exact ⟨_, List.idxOf_lt_length_iff.mpr there, toNat_dest enough there⟩
      · exact absurd ((listed r).mpr there) unlisted
    · rintro ⟨k, turn, place⟩
      obtain ⟨source, there, rfl⟩ := exists_dest enough nodup turn place
      rw [Std.HashMap.mem_iff_isSome_getElem?, moved.arrived source there,
        ← Std.HashMap.mem_iff_isSome_getElem?]
      exact (listed source).mp there
  case forwards =>
    intro r
    rw [Std.HashMap.mem_iff_isSome_getElem?]
    by_cases mem : r ∈ order
    · rw [moved.forwarded r mem]
      exact iff_of_true rfl (.inr ((listed r).mp mem))
    · rw [moved.unforwarded r mem, ← Std.HashMap.mem_iff_isSome_getElem?]
      exact (or_iff_left (mt (listed r).mpr mem)).symm
  case followed =>
    intro r mem
    have mem' := (listed r).mpr mem
    exact ⟨h.dest order r, moved.forwarded r mem', moved.arrived r mem'⟩

/-- A move that ended had a place for every object, and whatever its order it moved everything. -/
theorem WellFormed.of_moveAllBy_ok (wf : h.WellFormed) (ran : moveAllBy s h = .ok count h') :
    h.size ≤ h.room ∧ count = h.size ∧ h.MovedAll h' := by
  rcases Nat.lt_or_ge h.room h.size with short | enough
  · obtain ⟨_, stopped, -⟩ := wf.moveAllBy_error s short
    rw [stopped] at ran
    cases ran
  · obtain ⟨_, ran', moved⟩ := wf.moveAllBy_ok s enough
    rw [ran'] at ran
    cases ran
    have listed := s.perm h.objects.keys
    have size : (s.apply h.objects.keys).length = h.size :=
      listed.length_eq.trans Std.HashMap.length_keys
    refine ⟨enough, rfl, moved.movedAll (fun r => ?_) ?_ size (by rwa [size])⟩
    · rw [listed.mem_iff, Std.HashMap.mem_keys]
    · exact listed.nodup_iff.mpr Std.HashMap.nodup_keys

/-! ### Following after a move of everything -/

namespace MovedAll

/-- A reference that was live is sent to its object. -/
theorem resolve_sending (moved : h.MovedAll h') (mem : r ∈ h.objects) (shape : Shape) :
    h'.resolve (h'.sending r) shape = h.resolve r shape := by
  obtain ⟨t, entry, found⟩ := moved.followed r mem
  have sent : h'.sending r = t := by rw [sending, entry, Option.getD_some]
  rw [sent, resolve, resolve, found]

/-- The visitor that follows moves counts every reference that was live. -/
theorem count_following (moved : h.MovedAll h') (roots : List Ref)
    (live : ∀ r ∈ roots, r ∈ h.objects) (n : Nat) :
    roots.foldl (fun n r => (h'.following r n).2) n = n + roots.length := by
  induction roots generalizing n with
  | nil => rfl
  | cons r rest ih =>
    obtain ⟨t, entry, -⟩ := moved.followed r (live r List.mem_cons_self)
    have sent : (h'.following r n).2 = n + 1 := by simp only [following, entry]
    rw [List.foldl_cons, sent, ih fun r mem => live r (List.mem_cons_of_mem _ mem),
      List.length_cons]
    omega

/-- **Roots that were live** are all sent, and each to its object. -/
theorem follow (moved : h.MovedAll h') {roots : List Ref} (live : ∀ r ∈ roots, r ∈ h.objects) :
    ∃ sent, (roots.mapM h'.following : StateM Nat (List Ref)) 0 = (sent, roots.length) ∧
      ∀ shape, sent.map (h'.resolve · shape) = roots.map (h.resolve · shape) := by
  refine ⟨roots.map h'.sending, ?_, fun shape => ?_⟩
  · rw [Visitor.mapM_list h'.following_answers, moved.count_following roots live, Nat.zero_add]
  · rw [List.map_map]
    exact List.map_congr_left fun r mem => moved.resolve_sending (live r mem) shape

end MovedAll

/-- **The outcome of a move of everything does not depend on the order.** Take a heap that was
reached without running out of places, and a move of everything in some order that ends. Then a move
in any other order ends as well. Both count every object; they leave the counter at the same value
and the objects at the same places, in a row from where the counter was; the same references
forward; and a reference that was live forwards to the object that it led to, in the one as in the
other. So if roots that were live are led past the visitor that follows moves, it counts all of them
in both, and what the roots lead to afterwards is what they led to before, one after the other. -/
theorem moves_alike {h h₁ : Heap} {s₁ : Shuffle} {count : Nat} (reachable : h.Reachable)
    (ran : moveAllBy s₁ h = .ok count h₁) (s₂ : Shuffle) :
    ∃ h₂, moveAllBy s₂ h = .ok count h₂ ∧ count = h.size ∧ h₂.next = h₁.next ∧
      h₁.next.toNat = h.next.toNat + 8 * count ∧
      (∀ r, r ∈ h₁.objects ↔ ∃ k < count, r.toNat = h.next.toNat + 8 * k) ∧
      (∀ r, r ∈ h₂.objects ↔ r ∈ h₁.objects) ∧
      (∀ r, r ∈ h₂.forwarding ↔ r ∈ h₁.forwarding) ∧
      (∀ r ∈ h.objects, ∃ t₁ t₂, h₁.movedTo? r = some t₁ ∧ h₂.movedTo? r = some t₂ ∧
        h₁.objects[t₁]? = h.objects[r]? ∧ h₂.objects[t₂]? = h.objects[r]?) ∧
      ∀ roots : List Ref, (∀ r ∈ roots, r ∈ h.objects) → ∃ sent₁ sent₂,
        (roots.mapM h₁.following : StateM Nat (List Ref)) 0 = (sent₁, roots.length) ∧
        (roots.mapM h₂.following : StateM Nat (List Ref)) 0 = (sent₂, roots.length) ∧
        ∀ shape, sent₁.map (h₁.resolve · shape) = roots.map (h.resolve · shape) ∧
          sent₂.map (h₂.resolve · shape) = roots.map (h.resolve · shape) := by
  have wf := reachable.wellFormed
  obtain ⟨enough, rfl, moved₁⟩ := wf.of_moveAllBy_ok ran
  obtain ⟨h₂, ran₂, -⟩ := wf.moveAllBy_ok s₂ enough
  obtain ⟨-, -, moved₂⟩ := wf.of_moveAllBy_ok ran₂
  refine ⟨h₂, ran₂, rfl, ?_, moved₁.next, moved₁.live, fun r => ?_, fun r => ?_, fun r mem => ?_,
    fun roots live => ?_⟩
  · rw [← UInt32.toNat_inj, moved₂.next, moved₁.next]
  · rw [moved₂.live, moved₁.live]
  · rw [moved₂.forwards, moved₁.forwards]
  · obtain ⟨t₁, entry₁, found₁⟩ := moved₁.followed r mem
    obtain ⟨t₂, entry₂, found₂⟩ := moved₂.followed r mem
    exact ⟨t₁, t₂, entry₁, entry₂, found₁, found₂⟩
  · obtain ⟨sent₁, followed₁, same₁⟩ := moved₁.follow live
    obtain ⟨sent₂, followed₂, same₂⟩ := moved₂.follow live
    exact ⟨sent₁, sent₂, followed₁, followed₂, fun shape => ⟨same₁ shape, same₂ shape⟩⟩

/-- A heap with two strings, which can move in two orders. -/
def twoStrings : Heap := (({} : Heap).withNew (.string "core.jar")).withNew (.string "boot.jar")

theorem moves_alike_twoStrings :
    twoStrings.Reachable ∧ ∃ h₁, moveAllBy .asListed twoStrings = .ok 2 h₁ ∧
      ∃ h₂, moveAllBy .reversed twoStrings = .ok 2 h₂ ∧ h₂.next = h₁.next ∧
        ∀ r, r ∈ h₂.objects ↔ r ∈ h₁.objects := by
  have one := wellFormed_empty.withNew (by decide) (.string "core.jar")
  have two := one.withNew (by decide) (.string "boot.jar")
  have reachable : twoStrings.Reachable :=
    .allocate (.allocate .empty (wellFormed_empty.allocate_ok (by decide) (.string "core.jar")))
      (one.allocate_ok (by decide) (.string "boot.jar"))
  have size : twoStrings.objects.size = 2 := by
    rw [twoStrings, one.size_withNew, wellFormed_empty.size_withNew]
    rfl
  have room : 2 ≤ twoStrings.room := by decide
  obtain ⟨h₁, ran, -⟩ := two.moveAllBy_ok .asListed (by rwa [← twoStrings, size])
  rw [← twoStrings, size] at ran
  obtain ⟨h₂, ran₂, -, next, -, -, live, -⟩ := moves_alike reachable ran .reversed
  exact ⟨reachable, h₁, ran, h₂, ran₂, next, live⟩

end ResolutionCache.Heap
