import Mathlib.Logic.Function.Iterate
import ResolutionCache.Proofs.Collection

/-!
# The trails of moved objects

An object that moves leaves a forwarding entry behind, and if it moves again before the collection
finishes it leaves another one at the place it had come to. So the entries make a *trail*, as long as
the object has been moved (`Heap.Trail`), and the object is at its end
(`Heap.trail_run`). The visitor that sends references to where their objects went follows one entry
and no more: it reaches an object that moved at most once, and leaves a reference to any other at a
place that is empty (`Heap.following_trail`).
-/

namespace ResolutionCache.Heap

open Attempt

variable {h h' : Heap} {r p t : Ref} {object : Object} {n k : Nat}

/-- Nothing is forwarded from where an object stands. -/
theorem WellFormed.not_forwarded (wf : h.WellFormed) (found : h.objects[r]? = some object) :
    h.forwarding[r]? = none := by
  cases entry : h.forwarding[r]? with
  | none => rfl
  | some t => exact absurd (mem_of_found found) (wf.forwards r t entry).1

/-! ### Trails -/

/-- A trail of forwarding entries from one place to another. -/
inductive Trail (h : Heap) : Nat → Ref → Ref → Prop where
  | here {r : Ref} : Trail h 0 r r
  | hop {n : Nat} {r t p : Ref} : h.forwarding[r]? = some t → Trail h n t p → Trail h (n + 1) r p

namespace Trail

/-- New entries elsewhere do not disturb a trail. -/
theorem mono (trail : h.Trail n r p)
    (kept : ∀ r t : Ref, h.forwarding[r]? = some t → h'.forwarding[r]? = some t) :
    h'.Trail n r p := by
  induction trail with
  | here => exact .here
  | hop entry _ ih => exact .hop (kept _ _ entry) ih

/-- A trail goes on from where it ends. -/
theorem snoc (trail : h.Trail n r p) (entry : h.forwarding[p]? = some t) :
    h.Trail (n + 1) r t := by
  induction trail with
  | here => exact .hop entry .here
  | hop first _ ih => exact .hop first (ih entry)

/-- Sending a reference as often as the trail is long leads to its end. -/
theorem sending_iterate (trail : h.Trail n r p) : h.sending^[n] r = p := by
  induction trail with
  | here => rfl
  | hop entry _ ih =>
    rw [Function.iterate_succ_apply, sending, movedTo?, entry]
    exact ih

/-- Before its end a trail leads through empty places. -/
theorem empty (wf : h.WellFormed) (trail : h.Trail n r p) (before : k < n) :
    h.sending^[k] r ∉ h.objects := by
  induction trail generalizing k with
  | here => exact absurd before (Nat.not_lt_zero k)
  | hop entry _ ih =>
    cases k with
    | zero => exact (wf.forwards _ _ entry).1
    | succ k =>
      rw [Function.iterate_succ_apply, sending, movedTo?, entry]
      exact ih (Nat.lt_of_succ_lt_succ before)

end Trail

/-! ### Steps within an epoch -/

/-- What happens to a heap within an epoch. -/
inductive Step where
  | allocate (object : Object)
  | move (r : Ref)
  | moveAll (s : Shuffle)

namespace Step

/-- The step as an operation of the heap. -/
def run : Step → Attempt Heap Unit
  | allocate object => do let _ ← Heap.allocate object
  | move r => do let _ ← Heap.move r
  | moveAll s => do let _ ← moveAllBy s

/-- Whether the step can move objects. -/
def moves : Step → Bool
  | allocate _ => false
  | move _ => true
  | moveAll _ => true

end Step

/-- **What a step leaves behind.** Forwarding entries stay; an object either stays or forwards from
where it was to where it is. -/
structure Onward (moves : Bool) (h h' : Heap) : Prop where
  wellFormed : h'.WellFormed
  forwards : ∀ r t : Ref, h.forwarding[r]? = some t → h'.forwarding[r]? = some t
  lives : ∀ (r : Ref) (object : Object), h.objects[r]? = some object →
    h'.objects[r]? = some object ∨
      (moves = true ∧ ∃ t, h'.forwarding[r]? = some t ∧ h'.objects[t]? = some object)

namespace WellFormed

theorem onward_withNew (wf : h.WellFormed) (room : 0 < h.room) (object : Object) :
    Onward false h (h.withNew object) where
  wellFormed := wf.withNew room object
  forwards _ _ entry := entry
  lives _ _ found :=
    .inl ((wf.getElem?_withNew_of_mem (mem_of_found found) object).trans found)

theorem onward_moveNext (wf : h.WellFormed) (room : 0 < h.room) (r : Ref) :
    Onward true h (h.moveNext r) := by
  refine ⟨wf.moveNext room r, ?_, ?_⟩
  · intro x t entry
    cases found : h.objects[r]? with
    | none =>
      rw [moveNext_of_dead found]
      exact entry
    | some object =>
      -- an object stands where the new entry is, and none where an old one is
      have ne : r ≠ x := by
        rintro rfl
        rw [wf.not_forwarded found] at entry
        cases entry
      rw [getElem?_forwarding_moveNext found, if_neg ne, entry]
  · intro x other there
    cases found : h.objects[r]? with
    | none =>
      rw [moveNext_of_dead found]
      exact .inl there
    | some object =>
      by_cases same : r = x
      · subst same
        obtain rfl := Option.some.inj (found.symm.trans there)
        refine .inr ⟨rfl, h.place, ?_, ?_⟩
        · rw [getElem?_forwarding_moveNext found, if_pos rfl]
        · rw [getElem?_objects_moveNext found, if_pos rfl]
      · have ne_place : h.place ≠ x := by
          rintro rfl
          exact wf.place_not_mem (mem_of_found there)
        rw [getElem?_objects_moveNext found, if_neg ne_place, if_neg same]
        exact .inl there

theorem onward_moved {order : List Ref} (wf : h.WellFormed)
    (listed : ∀ r, r ∈ order ↔ r ∈ h.objects) (moved : h.Moved order h') : Onward true h h' where
  wellFormed := moved.wellFormed
  forwards r t entry := by
    have gone : r ∉ order := fun mem => (wf.forwards r t entry).1 ((listed r).mp mem)
    rw [moved.unforwarded r gone, entry]
  lives r object found := by
    have mem : r ∈ order := (listed r).mpr (mem_of_found found)
    exact .inr ⟨rfl, h.dest order r, moved.forwarded r mem, by rw [moved.arrived r mem, found]⟩

end WellFormed

/-- **Every step within an epoch** that did not run out of places goes onward. -/
theorem Step.onward {step : Step} (wf : h.WellFormed) (ran : step.run h = .ok () h') :
    Onward step.moves h h' := by
  cases step with
  | allocate object =>
    obtain ⟨_, _, allocated, ended⟩ := of_bind_ok ran
    cases ended
    rw [allocate_eq] at allocated
    split at allocated
    · cases allocated
      exact wf.onward_withNew (wf.usable_iff.mp ‹_›) object
    · cases allocated
  | move r =>
    obtain ⟨_, _, moved, ended⟩ := of_bind_ok ran
    cases ended
    rw [move_eq] at moved
    split at moved
    · cases moved
      exact wf.onward_moveNext (wf.usable_iff.mp ‹_›) r
    · cases moved
  | moveAll s =>
    obtain ⟨_, _, moved, ended⟩ := of_bind_ok ran
    cases ended
    -- a move that ended had room for everybody
    rcases Nat.lt_or_ge h.room h.objects.size with short | enough
    · obtain ⟨_, stopped, -⟩ := wf.moveAllBy_error s short
      rw [stopped] at moved
      cases moved
    · obtain ⟨_, ran', arrived⟩ := wf.moveAllBy_ok s enough
      rw [ran'] at moved
      cases moved
      refine wf.onward_moved (fun r => ?_) arrived
      rw [(s.perm _).mem_iff, Std.HashMap.mem_keys]

/-- **An object is at the end of its trail,** and the trail is no longer than there were steps that
move. -/
theorem trail_run {steps : List Step} (wf : h.WellFormed) (found : h.objects[p]? = some object)
    (trail : h.Trail n r p) (ran : steps.forM Step.run h = .ok () h') :
    h'.WellFormed ∧ ∃ m q, m ≤ n + steps.countP Step.moves ∧ h'.Trail m r q ∧
      h'.objects[q]? = some object := by
  induction steps generalizing h n p with
  | nil =>
    cases ran
    exact ⟨wf, n, p, Nat.le_refl n, trail, found⟩
  | cons step rest ih =>
    obtain ⟨mid, first, later⟩ := of_forM_cons ran
    have onward := Step.onward wf first
    rw [List.countP_cons]
    rcases onward.lives p object found with stayed | ⟨moving, t, entry, arrived⟩
    · obtain ⟨wf', m, q, short, there⟩ := ih onward.wellFormed stayed (trail.mono onward.forwards)
        later
      exact ⟨wf', m, q, by omega, there⟩
    · obtain ⟨wf', m, q, short, there⟩ := ih onward.wellFormed arrived
        ((trail.mono onward.forwards).snoc entry) later
      rw [if_pos moving]
      exact ⟨wf', m, q, by omega, there⟩

/-! ### Following a trail -/

theorem resolve_eq_some_iff {shape : Shape} :
    h.resolve r shape = some object ↔ h.objects[r]? = some object ∧ object.shape = shape := by
  unfold resolve
  rw [Option.filter_eq_some_iff, decide_eq_true_eq]

theorem resolve_of_not_mem (gone : r ∉ h.objects) (shape : Shape) : h.resolve r shape = none := by
  unfold resolve
  rw [Std.HashMap.getElem?_eq_none gone, Option.filter_none]

/-- **Following reaches an object that moved at most once.** Take a moment in an epoch when a
reference leads to an object, and let objects be allocated and moved after it in any way, without
ending the epoch. Then there is a number `n`, at most the number of steps that moved something since,
such that the reference leads to the object once it has been sent `n` times, and to nothing before.
So a visitor that follows one move leads to the object if `n` is zero or one, and in no other
case. -/
theorem following_trail {h mid h' : Heap} {before after : List Step} {r : Ref} {shape : Shape}
    {object : Object} (reachable : h.Reachable)
    (earlier : before.forM Step.run h.endEpoch = .ok () mid)
    (resolved : mid.resolve r shape = some object)
    (later : after.forM Step.run mid = .ok () h') :
    ∃ n ≤ after.countP Step.moves,
      h'.resolve (h'.sending^[n] r) shape = some object ∧
      (∀ k < n, ∀ other, h'.resolve (h'.sending^[k] r) other = none) ∧
      ∀ sent, h'.resolve (h'.following r sent).1 shape = some object ↔ n ≤ 1 := by
  have wf : mid.WellFormed := forM_invariant (I := WellFormed) reachable.wellFormed.endEpoch
    (fun step _ _ _ before ran => (Step.onward before ran).wellFormed) earlier
  obtain ⟨found, shaped⟩ := resolve_eq_some_iff.mp resolved
  obtain ⟨wf', n, q, short, trail, there⟩ := trail_run wf found .here later
  have reached : h'.resolve (h'.sending^[n] r) shape = some object := by
    rw [trail.sending_iterate]
    exact resolve_eq_some_iff.mpr ⟨there, shaped⟩
  have nothing : ∀ k < n, ∀ other, h'.resolve (h'.sending^[k] r) other = none :=
    fun k before other => resolve_of_not_mem (trail.empty wf' before) other
  refine ⟨n, by omega, reached, nothing, fun sent => ?_⟩
  have once : (h'.following r sent).1 = h'.sending^[1] r := h'.following_answers r sent
  rw [once]
  constructor
  · intro arrived
    refine Nat.le_of_not_lt fun longer => ?_
    rw [nothing 1 longer] at arrived
    cases arrived
  · intro le_one
    rcases Nat.le_one_iff_eq_zero_or_eq_one.mp le_one with rfl | rfl
    · -- the object has not moved, and nothing is forwarded from where it stands
      have stands : h'.objects[r]? = some object := (resolve_eq_some_iff.mp reached).1
      have stays : h'.sending^[1] r = r := by
        show h'.sending r = r
        rw [sending, movedTo?, wf'.not_forwarded stands]
        rfl
      rw [stays]
      exact reached
    · exact reached

/-! ### A trail of two -/

theorem run_move (room : usable h.next = true) (r : Ref) :
    (Step.move r).run h = .ok () (h.moveNext r) := by
  have moved := move_eq h r
  rw [if_pos room] at moved
  show (Heap.move r >>= fun _ => pure ()) h = _
  rw [bind_ok moved]
  rfl

theorem place_moveNext : (h.moveNext r).place = h.advance.place := by
  unfold place
  rw [next_moveNext]

/-- A string is allocated, and it moves twice before the epoch ends. -/
theorem run_movedTwice :
    ∃ mid h' : Heap, [Step.allocate (.string "s")].forM Step.run ({} : Heap).endEpoch = .ok () mid ∧
      mid.resolve ⟨8⟩ .string = some (.string "s") ∧
      [Step.move ⟨8⟩, Step.move ⟨16⟩].forM Step.run mid = .ok () h' ∧
      h'.movedTo? ⟨8⟩ = some ⟨16⟩ ∧ h'.resolve ⟨16⟩ .string = none ∧
      h'.resolve ⟨24⟩ .string = some (.string "s") := by
  let h₁ := ({} : Heap).endEpoch.withNew (.string "s")
  let h₂ := h₁.moveNext ⟨8⟩
  let h₃ := h₂.moveNext ⟨16⟩
  have at_8 : h₁.objects[(⟨8⟩ : Ref)]? = some (.string "s") := by
    rw [getElem?_objects_withNew]
    rfl
  have at_16 : h₂.objects[(⟨16⟩ : Ref)]? = some (.string "s") := by
    rw [getElem?_objects_moveNext at_8]
    rfl
  have place : h₂.place = ⟨24⟩ := place_moveNext
  refine ⟨h₁, h₃, rfl, resolve_eq_some_iff.mpr ⟨at_8, rfl⟩, ?_, ?_, ?_, ?_⟩
  · have room : usable h₂.next = true := by
      rw [next_moveNext]
      rfl
    show ((Step.move ⟨8⟩).run >>= fun _ => (Step.move ⟨16⟩).run >>= fun _ => pure ()) h₁ = _
    rw [bind_ok (run_move rfl ⟨8⟩), bind_ok (run_move room ⟨16⟩)]
    rfl
  · show h₃.forwarding[(⟨8⟩ : Ref)]? = _
    rw [getElem?_forwarding_moveNext at_16, getElem?_forwarding_moveNext at_8]
    rfl
  · refine resolve_of_not_mem (fun mem => ?_) _
    rw [Std.HashMap.mem_iff_isSome_getElem?, getElem?_objects_moveNext at_16, place] at mem
    cases mem
  · refine resolve_eq_some_iff.mpr ⟨?_, rfl⟩
    rw [getElem?_objects_moveNext at_16, place]
    rfl

/-- **One pass of following can miss an object.** The string was moved twice, and the reference to
its first place is sent to the second, which the string has left again. -/
theorem following_loses_trail :
    ¬ ∀ (h mid h' : Heap) (before after : List Step) (r : Ref) (shape : Shape) (object : Object),
      h.Reachable → before.forM Step.run h.endEpoch = .ok () mid →
      mid.resolve r shape = some object → after.forM Step.run mid = .ok () h' →
      ∀ sent, h'.resolve (h'.following r sent).1 shape = some object := by
  intro reaches
  obtain ⟨mid, h', allocated, resolved, moved, entry, gone, -⟩ := run_movedTwice
  have followed : (h'.following ⟨8⟩ 0).1 = ⟨16⟩ := by
    unfold following
    rw [entry]
  have found := reaches {} mid h' _ _ ⟨8⟩ .string _ .empty allocated resolved moved 0
  rw [followed, gone] at found
  cases found

theorem following_trail_movedTwice :
    ∃ mid h' : Heap, [Step.allocate (.string "s")].forM Step.run ({} : Heap).endEpoch = .ok () mid ∧
      mid.resolve ⟨8⟩ .string = some (.string "s") ∧
      [Step.move ⟨8⟩, Step.move ⟨16⟩].forM Step.run mid = .ok () h' ∧
      ∃ n ≤ 2, h'.resolve (h'.sending^[n] ⟨8⟩) .string = some (.string "s") := by
  obtain ⟨mid, h', allocated, resolved, moved, -⟩ := run_movedTwice
  obtain ⟨n, short, reached, -⟩ := following_trail .empty allocated resolved moved
  exact ⟨mid, h', allocated, resolved, moved, n, short, reached⟩

end ResolutionCache.Heap
