import Mathlib.Data.List.Nodup
import Mathlib.Data.List.Perm.Basic
import Mathlib.Logic.Equiv.Basic
import ResolutionCache.Proofs.Collection.Trails

/-!
# The annals of a heap

A place is handed out once, so a reference that has become stale leads nowhere or to the object that
it was made for, and never to another one (`Heap.places_never_reused`).

Two objects can look alike, so which of them stands somewhere cannot be read off the heap. The
annals of a run (`Heap.Annals`) number the objects as they are allocated and write down, beside what
the heap does, for whom each place was handed out, whose it is now and who has been freed. They
decide nothing: the heap in them is the one that the run leads to.
-/

namespace ResolutionCache.Heap

open Attempt

/-- What happens to a heap: a step within an epoch, a sweep, or the end of the epoch. -/
inductive Deed where
  | within (step : Step)
  | sweep (marked : MarkSet)
  | endEpoch

namespace Deed

/-- The deed as an operation of the heap. -/
def run : Deed → Attempt Heap Unit
  | within step => step.run
  | sweep marked => modify fun h => (h.sweep marked).2
  | endEpoch => modify Heap.endEpoch

/-- The object that the deed brings in. -/
def newObject? : Deed → Option Object
  | within (.allocate object) => some object
  | _ => none

end Deed

/-- A place handed out, with the number of the object it was handed out for, if there was one. -/
structure Grant where
  place : Ref
  number : Option Nat

/-- **What a run has done to its objects.** An object's number is its position in `born`. -/
structure Annals where
  heap : Heap := {}
  /-- The objects allocated. -/
  born : List Object := []
  /-- The places handed out, the latest first. -/
  granted : List Grant := []
  /-- Whose place it is now. -/
  holder : Ref → Option Nat := fun _ => none
  /-- The objects freed. -/
  freed : List Nat := []
  /-- How many objects the sweeps said that they freed. -/
  told : Nat := 0

namespace Annals

/-- A new object gets the next number and the place it was allocated at. -/
def allocated (a : Annals) (object : Object) : Annals :=
  match allocate object a.heap with
  | .ok place h =>
    { a with
      heap := h
      born := a.born ++ [object]
      granted := ⟨place, some a.born.length⟩ :: a.granted
      holder := Function.update a.holder place (some a.born.length) }
  | .error _ h => { a with heap := h }

/-- An object that moves takes its number along. -/
def moved (a : Annals) (r : Ref) : Annals :=
  match move r a.heap with
  | .ok (some place) h =>
    { a with
      heap := h
      granted := ⟨place, a.holder r⟩ :: a.granted
      holder := Function.update (Function.update a.holder r none) place (a.holder r) }
  | .ok none h => { a with heap := h, granted := ⟨a.heap.place, none⟩ :: a.granted }
  | .error _ h => { a with heap := h }

/-- The objects that stand at places without a mark are freed. -/
def swept (a : Annals) (marked : MarkSet) : Annals :=
  { a with
    heap := (a.heap.sweep marked).2
    holder := fun r => if marked.contains r then a.holder r else none
    freed := a.freed ++ (a.heap.objects.keys.filter (!marked.contains ·)).filterMap a.holder
    told := a.told + (a.heap.sweep marked).1 }

/-- The annals once a deed has been written down. -/
def write (a : Annals) : Deed → Annals
  | .within (.allocate object) => a.allocated object
  | .within (.move r) => a.moved r
  | .within (.moveAll s) => (s.apply a.heap.objects.keys).foldl moved a
  | .sweep marked => a.swept marked
  | .endEpoch => { a with heap := a.heap.endEpoch }

/-- The annals of a run from the empty heap. -/
def ofDeeds (deeds : List Deed) : Annals := deeds.foldl write {}

/-! ### The invariant -/

/-- **Annals whose numbers are in order.** -/
structure InOrder (a : Annals) : Prop where
  wellFormed : a.heap.WellFormed
  /-- Each place is above those handed out before it. -/
  descending : a.granted.Pairwise fun late early => early.place.toNat < late.place.toNat
  handedOut : ∀ g ∈ a.granted, a.heap.HandedOut g.place
  numbered : ∀ g ∈ a.granted, ∀ n, g.number = some n → n < a.born.length
  /-- Whoever holds a place was granted it. -/
  entitled : ∀ r n, a.holder r = some n → ⟨r, some n⟩ ∈ a.granted
  /-- At a place stands the object that holds it. -/
  stands : ∀ r, a.heap.objects[r]? = (a.holder r).bind (a.born[·]?)
  /-- Nobody holds two places. -/
  once : ∀ r r' n, a.holder r = some n → a.holder r' = some n → r = r'
  /-- The freed hold no place, and everybody else does. -/
  homeless : ∀ n, n ∈ a.freed ↔ n < a.born.length ∧ ∀ r, a.holder r ≠ some n
  freed_nodup : a.freed.Nodup
  counted : a.heap.objects.size + a.told = a.born.length

theorem inOrder_empty : InOrder {} where
  wellFormed := wellFormed_empty
  descending := .nil
  handedOut := by simp
  numbered := by simp
  entitled := by simp
  stands := by simp
  once := by simp
  homeless := by simp
  freed_nodup := .nil
  counted := by simp

namespace InOrder

variable {a : Annals} {h' : Heap} {r : Ref} {object : Object}

theorem lt_of_holder (ok : a.InOrder) {n : Nat} (holds : a.holder r = some n) :
    n < a.born.length :=
  ok.numbered _ (ok.entitled r n holds) n rfl

/-- Somebody holds a place exactly if an object stands there. -/
theorem holder_isSome_iff (ok : a.InOrder) : (a.holder r).isSome ↔ r ∈ a.heap.objects := by
  rw [Std.HashMap.mem_iff_isSome_getElem?, ok.stands]
  cases holds : a.holder r with
  | none => rfl
  | some n =>
    have born := ok.lt_of_holder holds
    simp [born]

theorem holder_eq_none (ok : a.InOrder) (dead : r ∉ a.heap.objects) : a.holder r = none := by
  rw [← Option.not_isSome_iff_eq_none, ok.holder_isSome_iff]
  exact dead

/-- The place to be handed out next is above all others. -/
theorem descending_cons (ok : a.InOrder) (number : Option Nat) :
    (⟨a.heap.place, number⟩ :: a.granted).Pairwise fun late early =>
      early.place.toNat < late.place.toNat :=
  List.pairwise_cons.mpr ⟨fun g mem => (ok.handedOut g mem).2.2, ok.descending⟩

theorem handedOut_cons (ok : a.InOrder) (room : 0 < a.heap.room) (number : Option Nat) :
    ∀ g ∈ (⟨a.heap.place, number⟩ :: a.granted : List Grant), a.heap.advance.HandedOut g.place := by
  intro g mem
  rcases List.mem_cons.mp mem with rfl | mem
  · exact ok.wellFormed.handedOut_place room
  · exact ok.wellFormed.handedOut_advance room (ok.handedOut g mem)

/-! ### Allocating -/

theorem allocated (ok : a.InOrder) (ran : allocate object a.heap = .ok r h') :
    (a.allocated object).heap = h' ∧ (a.allocated object).InOrder := by
  have result := ran
  rw [allocate_eq] at result
  split at result
  case isFalse => cases result
  cases result
  have wf := ok.wellFormed
  have room := wf.usable_iff.mp ‹_›
  have nobody : a.holder a.heap.place = none := ok.holder_eq_none wf.place_not_mem
  simp only [Annals.allocated, ran, true_and]
  constructor <;> dsimp only
  case wellFormed => exact wf.withNew room object
  case descending => exact ok.descending_cons _
  case handedOut => exact ok.handedOut_cons room _
  case numbered =>
    intro g mem n named
    rw [List.length_append, List.length_singleton]
    rcases List.mem_cons.mp mem with rfl | mem
    · cases named
      exact Nat.lt_succ_self _
    · exact Nat.lt_succ_of_lt (ok.numbered g mem n named)
  case entitled =>
    intro x n holds
    rw [Function.update_apply] at holds
    split at holds
    · cases holds
      subst ‹x = _›
      exact List.mem_cons_self
    · exact List.mem_cons_of_mem _ (ok.entitled x n holds)
  case stands =>
    intro x
    rw [getElem?_objects_withNew, Function.update_apply]
    by_cases same : x = a.heap.place
    · subst same
      simp
    · rw [if_neg (Ne.symm same), if_neg same, ok.stands]
      cases holds : a.holder x with
      | none => rfl
      | some n => exact (List.getElem?_append_left (ok.lt_of_holder holds)).symm
  case once =>
    intro x x' n holds holds'
    rw [Function.update_apply] at holds holds'
    -- the new number is above those given before
    split at holds <;> split at holds'
    · exact ‹x = _›.trans ‹x' = _›.symm
    · cases holds
      exact absurd (ok.lt_of_holder holds') (Nat.lt_irrefl _)
    · cases holds'
      exact absurd (ok.lt_of_holder holds) (Nat.lt_irrefl _)
    · exact ok.once x x' n holds holds'
  case homeless =>
    intro n
    rw [ok.homeless, List.length_append, List.length_singleton]
    constructor
    · rintro ⟨born, away⟩
      refine ⟨by omega, fun x => ?_⟩
      rw [Function.update_apply]
      split
      · intro same
        have := Option.some.inj same
        omega
      · exact away x
    · rintro ⟨born, away⟩
      have old : n ≠ a.born.length := by
        rintro rfl
        exact away a.heap.place (Function.update_self ..)
      refine ⟨by omega, fun x holds => away x ?_⟩
      rw [Function.update_of_ne, holds]
      rintro rfl
      rw [nobody] at holds
      cases holds
  case freed_nodup => exact ok.freed_nodup
  case counted =>
    have counted := ok.counted
    rw [wf.size_withNew, List.length_append, List.length_singleton]
    omega

/-! ### Moving -/

/-- The holder of the old place holds the new one, which nobody held. -/
theorem holder_moved (ok : a.InOrder) (x : Ref) :
    Function.update (Function.update a.holder r none) a.heap.place (a.holder r) x =
      a.holder (Equiv.swap r a.heap.place x) := by
  have nobody : a.holder a.heap.place = none := ok.holder_eq_none ok.wellFormed.place_not_mem
  rw [Function.update_apply, Function.update_apply, Equiv.swap_apply_def]
  split_ifs with at_place at_r
  · rw [← at_r, at_place]
  · rfl
  · exact nobody.symm
  · rfl

theorem objects_moved (wf : a.heap.WellFormed) (live : r ∈ a.heap.objects) (x : Ref) :
    (a.heap.moveNext r).objects[x]? = a.heap.objects[Equiv.swap r a.heap.place x]? := by
  have found := Std.HashMap.getElem?_eq_some_getElem live
  have nothing : a.heap.objects[a.heap.place]? = none :=
    Std.HashMap.getElem?_eq_none wf.place_not_mem
  have apart : r ≠ a.heap.place := WellFormed.handedOut_ne_place (wf.live r live)
  rw [getElem?_objects_moveNext found, Equiv.swap_apply_def]
  by_cases at_place : x = a.heap.place
  · subst at_place
    rw [if_pos rfl, if_neg (Ne.symm apart), if_pos rfl, found]
  · rw [if_neg (Ne.symm at_place), if_neg at_place]
    by_cases at_r : x = r
    · rw [if_pos at_r.symm, if_pos at_r, nothing]
    · rw [if_neg (Ne.symm at_r), if_neg at_r]

theorem moved (ok : a.InOrder) (room : usable a.heap.next = true) (r : Ref) :
    (a.moved r).heap = a.heap.moveNext r ∧ (a.moved r).InOrder := by
  have ran := move_eq a.heap r
  rw [if_pos room] at ran
  have wf := ok.wellFormed
  rw [wf.usable_iff] at room
  by_cases live : r ∈ a.heap.objects
  case neg =>
    -- a place is used up, and that is all
    have dead : a.heap.objects[r]? = none := Std.HashMap.getElem?_eq_none live
    have there : a.heap.contains r = false := by simpa [Heap.contains] using live
    rw [there, if_neg Bool.false_ne_true] at ran
    simp only [Annals.moved, ran, moveNext_of_dead dead, true_and]
    exact { ok with
      wellFormed := wf.advance room
      descending := ok.descending_cons none
      handedOut := ok.handedOut_cons room none
      numbered := by
        intro g mem n named
        rcases List.mem_cons.mp mem with rfl | mem
        · cases named
        · exact ok.numbered g mem n named
      entitled := fun x n holds => List.mem_cons_of_mem _ (ok.entitled x n holds) }
  case pos =>
    have there : a.heap.contains r = true := live
    rw [there, if_pos rfl] at ran
    simp only [Annals.moved, ran, true_and]
    constructor <;> dsimp only
    case wellFormed => exact wf.moveNext room r
    case descending => exact ok.descending_cons _
    case handedOut =>
      intro g mem
      have out := ok.handedOut_cons room _ g mem
      refine ⟨out.1, out.2.1, ?_⟩
      rw [next_moveNext]
      exact out.2.2
    case numbered =>
      intro g mem n named
      rcases List.mem_cons.mp mem with rfl | mem
      · exact ok.lt_of_holder named
      · exact ok.numbered g mem n named
    case entitled =>
      intro x n holds
      rw [Function.update_apply] at holds
      split at holds
      · subst ‹x = _›
        rw [holds]
        exact List.mem_cons_self
      · rw [Function.update_apply] at holds
        split at holds
        · cases holds
        · exact List.mem_cons_of_mem _ (ok.entitled x n holds)
    case stands =>
      intro x
      rw [ok.holder_moved, objects_moved wf live, ok.stands]
    case once =>
      intro x x' n holds holds'
      rw [ok.holder_moved] at holds holds'
      exact (Equiv.swap r a.heap.place).injective (ok.once _ _ n holds holds')
    case homeless =>
      intro n
      have anywhere : (∀ x, a.holder x ≠ some n) ↔
          ∀ x, a.holder (Equiv.swap r a.heap.place x) ≠ some n :=
        (Equiv.swap r a.heap.place).surjective.forall
      rw [ok.homeless, anywhere]
      simp only [ok.holder_moved]
    case freed_nodup => exact ok.freed_nodup
    case counted => rw [size_objects_moveNext wf.place_not_mem live, ok.counted]

/-- Moving objects one after another. -/
theorem foldl_moved {order : List Ref} (ok : a.InOrder)
    (ran : moveInOrder order a.heap = .ok () h') :
    (order.foldl Annals.moved a).heap = h' ∧ (order.foldl Annals.moved a).InOrder := by
  induction order generalizing a with
  | nil =>
    cases ran
    exact ⟨rfl, ok⟩
  | cons r rest ih =>
    rw [moveInOrder_cons] at ran
    split at ran
    · obtain ⟨same, kept⟩ := ok.moved ‹_› r
      rw [← same] at ran
      exact ih kept ran
    · cases ran

/-! ### Sweeping -/

theorem mem_swept (ok : a.InOrder) (marked : MarkSet) {n : Nat} :
    n ∈ (a.heap.objects.keys.filter (!marked.contains ·)).filterMap a.holder ↔
      ∃ r, marked.contains r = false ∧ a.holder r = some n := by
  rw [List.mem_filterMap]
  constructor
  · rintro ⟨x, mem, holds⟩
    have unmarked := (List.mem_filter.mp mem).2
    exact ⟨x, by simpa using unmarked, holds⟩
  · rintro ⟨x, unmarked, holds⟩
    have live : x ∈ a.heap.objects := ok.holder_isSome_iff.mp (by rw [holds]; rfl)
    refine ⟨x, List.mem_filter.mpr ⟨Std.HashMap.mem_keys.mpr live, ?_⟩, holds⟩
    rw [unmarked]
    rfl

theorem nodup_filterMap_holder (ok : a.InOrder) {places : List Ref} (nodup : places.Nodup) :
    (places.filterMap a.holder).Nodup :=
  List.Nodup.filterMap (fun x x' n holds holds' => ok.once x x' n holds holds') nodup

theorem swept (ok : a.InOrder) (marked : MarkSet) : (a.swept marked).InOrder := by
  have holds_iff : ∀ x n, (if marked.contains x then a.holder x else none) = some n ↔
      marked.contains x = true ∧ a.holder x = some n := by
    intro x n
    split <;> simp_all
  constructor <;> dsimp only [Annals.swept]
  case wellFormed => exact ok.wellFormed.sweep marked
  case descending => exact ok.descending
  case handedOut => exact ok.handedOut
  case numbered => exact ok.numbered
  case entitled => exact fun x n holds => ok.entitled x n ((holds_iff x n).mp holds).2
  case stands =>
    intro x
    rw [getElem?_objects_sweep]
    split
    · exact ok.stands x
    · rfl
  case once =>
    intro x x' n holds holds'
    exact ok.once x x' n ((holds_iff x n).mp holds).2 ((holds_iff x' n).mp holds').2
  case homeless =>
    intro n
    rw [List.mem_append, ok.homeless, ok.mem_swept]
    constructor
    · rintro (⟨born, away⟩ | ⟨x, unmarked, holds⟩)
      · exact ⟨born, fun x holds => away x ((holds_iff x n).mp holds).2⟩
      · refine ⟨ok.lt_of_holder holds, fun x' holds' => ?_⟩
        obtain ⟨marked', holds'⟩ := (holds_iff x' n).mp holds'
        rw [ok.once x' x n holds' holds, unmarked] at marked'
        cases marked'
    · rintro ⟨born, away⟩
      by_cases held : ∃ x, a.holder x = some n
      · obtain ⟨x, holds⟩ := held
        refine .inr ⟨x, ?_, holds⟩
        rw [← Bool.not_eq_true]
        exact fun there => away x ((holds_iff x n).mpr ⟨there, holds⟩)
      · exact .inl ⟨born, fun x holds => held ⟨x, holds⟩⟩
  case freed_nodup =>
    refine List.nodup_append.mpr ⟨ok.freed_nodup, ?_, ?_⟩
    · exact ok.nodup_filterMap_holder (Std.HashMap.nodup_keys.filter _)
    · rintro n old _ new rfl
      obtain ⟨x, -, holds⟩ := (ok.mem_swept marked).mp new
      exact ((ok.homeless n).mp old).2 x holds
  case counted =>
    have counted := ok.counted
    have fewer : (a.heap.objects.filter fun r _ => marked.contains r).size ≤ a.heap.objects.size :=
      Std.HashMap.size_filter_le_size
    simp only [Heap.sweep]
    omega

end InOrder

/-! ### Writing a run down -/

theorem born_moved (a : Annals) (r : Ref) : (a.moved r).born = a.born := by
  unfold moved
  split <;> rfl

theorem granted_moved (a : Annals) (r : Ref) : a.granted <:+ (a.moved r).granted := by
  unfold moved
  split
  · exact List.suffix_cons _ _
  · exact List.suffix_cons _ _
  · exact List.suffix_refl _

theorem born_foldl_moved (order : List Ref) (a : Annals) :
    (order.foldl moved a).born = a.born ∧ a.granted <:+ (order.foldl moved a).granted := by
  induction order generalizing a with
  | nil => exact ⟨rfl, List.suffix_refl _⟩
  | cons r rest ih =>
    obtain ⟨born, granted⟩ := ih (a.moved r)
    exact ⟨born.trans (a.born_moved r), (a.granted_moved r).trans granted⟩

/-- Grants are not taken back. -/
theorem granted_write (a : Annals) (deed : Deed) : a.granted <:+ (a.write deed).granted := by
  cases deed with
  | within step =>
    cases step with
    | allocate object =>
      show _ <:+ (a.allocated object).granted
      unfold allocated
      split
      · exact List.suffix_cons _ _
      · exact List.suffix_refl _
    | move r => exact a.granted_moved r
    | moveAll s => exact (born_foldl_moved _ a).2
  | sweep marked => exact List.suffix_refl _
  | endEpoch => exact List.suffix_refl _

theorem granted_foldl_write (deeds : List Deed) (a : Annals) :
    a.granted <:+ (deeds.foldl write a).granted := by
  induction deeds generalizing a with
  | nil => exact List.suffix_refl _
  | cons deed rest ih => exact (a.granted_write deed).trans (ih _)

namespace InOrder

variable {a : Annals} {h' : Heap}

/-- **The annals follow the heap** and stay in order, and they know every object that was brought
in. -/
theorem write {deed : Deed} (ok : a.InOrder) (ran : deed.run a.heap = .ok () h') :
    (a.write deed).heap = h' ∧ (a.write deed).InOrder ∧
      (a.write deed).born = a.born ++ deed.newObject?.toList := by
  cases deed with
  | within step =>
    cases step with
    | allocate object =>
      obtain ⟨place, _, allocated, ended⟩ := of_bind_ok ran
      cases ended
      obtain ⟨same, kept⟩ := ok.allocated allocated
      refine ⟨same, kept, ?_⟩
      show (a.allocated object).born = a.born ++ [object]
      simp only [Annals.allocated, allocated]
    | move r =>
      obtain ⟨_, _, moved, ended⟩ := of_bind_ok ran
      cases ended
      rw [move_eq] at moved
      split at moved
      · cases moved
        obtain ⟨same, kept⟩ := ok.moved ‹_› r
        exact ⟨same, kept, (a.born_moved r).trans (List.append_nil _).symm⟩
      · cases moved
    | moveAll s =>
      obtain ⟨_, _, moved, ended⟩ := of_bind_ok ran
      cases ended
      obtain ⟨_, _, moved, ended⟩ := of_bind_ok moved
      cases moved
      obtain ⟨_, _, moved, answered⟩ := of_bind_ok ended
      cases answered
      obtain ⟨same, kept⟩ := ok.foldl_moved moved
      exact ⟨same, kept, (born_foldl_moved _ a).1.trans (List.append_nil _).symm⟩
  | sweep marked =>
    cases ran
    exact ⟨rfl, ok.swept marked, (List.append_nil _).symm⟩
  | endEpoch =>
    cases ran
    exact ⟨rfl, { ok with wellFormed := ok.wellFormed.endEpoch }, (List.append_nil _).symm⟩

/-- The annals of a whole run. -/
theorem foldl_write {deeds : List Deed} (ok : a.InOrder)
    (ran : deeds.forM Deed.run a.heap = .ok () h') :
    (deeds.foldl Annals.write a).heap = h' ∧ (deeds.foldl Annals.write a).InOrder ∧
      (deeds.foldl Annals.write a).born = a.born ++ deeds.filterMap Deed.newObject? := by
  induction deeds generalizing a with
  | nil =>
    cases ran
    exact ⟨rfl, ok, (List.append_nil _).symm⟩
  | cons deed rest ih =>
    obtain ⟨mid, first, later⟩ := of_forM_cons ran
    obtain ⟨same, kept, born⟩ := ok.write first
    rw [← same] at later
    obtain ⟨arrived, inOrder, all_born⟩ := ih kept later
    refine ⟨arrived, inOrder, ?_⟩
    rw [List.foldl_cons, all_born, born, List.filterMap_cons, List.append_assoc]
    cases deed.newObject? <;> rfl

/-! ### What the numbers say -/

/-- A place is granted once. -/
theorem grant_inj (ok : a.InOrder) {g g' : Grant} (mem : g ∈ a.granted) (mem' : g' ∈ a.granted)
    (same : g.place = g'.place) : g = g' := by
  have places : (a.granted.map Grant.place).Nodup :=
    List.pairwise_map.mpr <| ok.descending.imp fun {late early} above equal => by
      rw [equal] at above
      exact Nat.lt_irrefl _ above
  exact List.inj_on_of_nodup_map places mem mem' same

theorem resolve_eq (ok : a.InOrder) (r : Ref) (shape : Shape) :
    a.heap.resolve r shape = ((a.holder r).bind (a.born[·]?)).filter (·.shape = shape) := by
  rw [resolve, ok.stands]

/-- **A reference that was handed out** leads to the object that it was handed out for, or nowhere.
-/
theorem leads (ok : a.InOrder) {g : Grant} (mem : g ∈ a.granted) :
    (a.holder g.place = none ∧ ∀ shape, a.heap.resolve g.place shape = none) ∨
      ∃ n object, g.number = some n ∧ a.born[n]? = some object ∧ a.holder g.place = some n ∧
        ∀ shape, a.heap.resolve g.place shape =
          if object.shape = shape then some object else none := by
  cases holds : a.holder g.place with
  | none =>
    refine .inl ⟨rfl, fun shape => ?_⟩
    rw [ok.resolve_eq, holds]
    rfl
  | some n =>
    have born := List.getElem?_eq_getElem (ok.lt_of_holder holds)
    refine .inr ⟨n, _, ?_, born, rfl, fun shape => ?_⟩
    · have granted := ok.grant_inj (ok.entitled _ n holds) mem rfl
      rw [← granted]
    · rw [ok.resolve_eq, holds, Option.bind_some, born, Option.filter_some]
      simp only [decide_eq_true_eq]

/-- **Everybody is freed or stands at one place.** -/
theorem freed_or_stands (ok : a.InOrder) {n : Nat} (born : n < a.born.length) :
    (n ∈ a.freed ∧ ∀ r, a.holder r ≠ some n) ∨ (n ∉ a.freed ∧ ∃! r, a.holder r = some n) := by
  by_cases somewhere : ∃ r, a.holder r = some n
  · obtain ⟨r, holds⟩ := somewhere
    refine .inr ⟨fun freed => ((ok.homeless n).mp freed).2 r holds, r, holds, ?_⟩
    exact fun r' holds' => ok.once r' r n holds' holds
  · have nowhere : ∀ r, a.holder r ≠ some n := fun r holds => somewhere ⟨r, holds⟩
    exact .inl ⟨(ok.homeless n).mpr ⟨born, nowhere⟩, nowhere⟩

/-- The freed are as many as the sweeps said. -/
theorem length_freed (ok : a.InOrder) : a.freed.length = a.told := by
  have held : ∀ n, n ∈ a.heap.objects.keys.filterMap a.holder ↔ ∃ r, a.holder r = some n := by
    intro n
    rw [List.mem_filterMap]
    constructor
    · rintro ⟨r, -, holds⟩
      exact ⟨r, holds⟩
    · rintro ⟨r, holds⟩
      have live : r ∈ a.heap.objects := ok.holder_isSome_iff.mp (by rw [holds]; rfl)
      exact ⟨r, Std.HashMap.mem_keys.mpr live, holds⟩
  -- the freed and the holders of places are all the objects there ever were, each of them once
  have everybody : (a.freed ++ a.heap.objects.keys.filterMap a.holder).Perm
      (List.range a.born.length) := by
    refine (List.perm_ext_iff_of_nodup ?_ List.nodup_range).mpr fun n => ?_
    · refine List.nodup_append.mpr ⟨ok.freed_nodup, ?_, ?_⟩
      · exact ok.nodup_filterMap_holder Std.HashMap.nodup_keys
      · rintro n freed _ there rfl
        obtain ⟨r, holds⟩ := (held n).mp there
        exact ((ok.homeless n).mp freed).2 r holds
    · rw [List.mem_append, List.mem_range, ok.homeless, held]
      constructor
      · rintro (⟨born, -⟩ | ⟨r, holds⟩)
        · exact born
        · exact ok.lt_of_holder holds
      · intro born
        by_cases somewhere : ∃ r, a.holder r = some n
        · exact .inr somewhere
        · exact .inl ⟨born, fun r holds => somewhere ⟨r, holds⟩⟩
  have standing : (a.heap.objects.keys.filterMap a.holder).length = a.heap.objects.size := by
    rw [← Std.HashMap.length_keys, List.length_filterMap_eq_countP, List.countP_eq_length]
    intro r mem
    exact ok.holder_isSome_iff.mpr (Std.HashMap.mem_keys.mp mem)
  have lengths := everybody.length_eq
  rw [List.length_append, List.length_range, standing] at lengths
  have counted := ok.counted
  omega

end InOrder

/-- The annals of a run that did not run out of places. -/
theorem ofDeeds_inOrder {deeds : List Deed} {h : Heap} (ran : deeds.forM Deed.run {} = .ok () h) :
    (ofDeeds deeds).heap = h ∧ (ofDeeds deeds).InOrder ∧
      (ofDeeds deeds).born = deeds.filterMap Deed.newObject? :=
  inOrder_empty.foldl_write ran

end Annals

/-! ### How far a heap reaches -/

/-- A deed uses one place, or one for each object. -/
theorem WellFormed.run_deed {h : Heap} (wf : h.WellFormed) (deed : Deed)
    (enough : max 1 h.objects.size ≤ h.room) :
    ∃ h', deed.run h = .ok () h' ∧ h'.WellFormed ∧ h'.objects.size ≤ h.objects.size + 1 ∧
      h.room ≤ h'.room + max 1 h.objects.size := by
  have room : 0 < h.room := by omega
  have everybody : h.objects.size ≤ h.room := by omega
  cases deed with
  | within step =>
    cases step with
    | allocate object =>
      have after := wf.withNew room object
      have used := wf.room_advance room
      refine ⟨h.withNew object, ?_, after, Nat.le_of_eq (wf.size_withNew object), ?_⟩
      · show (Heap.allocate object >>= fun _ => pure ()) h = _
        rw [bind_ok (wf.allocate_ok room object)]
        rfl
      · show h.room ≤ h.advance.room + _
        omega
    | move r =>
      have used := wf.room_moveNext (r := r) room
      refine ⟨h.moveNext r, run_move (wf.usable_iff.mpr room) r, wf.moveNext room r, ?_, ?_⟩
      · by_cases live : r ∈ h.objects
        · rw [size_objects_moveNext wf.place_not_mem live]
          exact Nat.le_succ _
        · rw [moveNext_of_dead (Std.HashMap.getElem?_eq_none live)]
          exact Nat.le_succ _
      · omega
    | moveAll s =>
      obtain ⟨h', ran, moved⟩ := wf.moveAllBy_ok s everybody
      have next := moved.next
      rw [(s.perm _).length_eq, Std.HashMap.length_keys] at next
      refine ⟨h', ?_, moved.wellFormed, by rw [moved.size]; exact Nat.le_succ _, ?_⟩
      · show (moveAllBy s >>= fun _ => pure ()) h = _
        rw [bind_ok ran]
        rfl
      · simp only [Heap.room, limit] at *
        omega
  | sweep marked =>
    refine ⟨_, rfl, wf.sweep marked, ?_, Nat.le_add_right _ _⟩
    exact Nat.le_succ_of_le Std.HashMap.size_filter_le_size
  | endEpoch => exact ⟨_, rfl, wf.endEpoch, Nat.le_succ _, Nat.le_add_right _ _⟩

/-- **A short run does not run out of places.** -/
theorem WellFormed.run_deeds {deeds : List Deed} : ∀ {h : Heap}, h.WellFormed →
    (h.objects.size + deeds.length) * deeds.length ≤ h.room →
    ∃ h', deeds.forM Deed.run h = .ok () h' := by
  induction deeds with
  | nil => exact fun _ _ => ⟨_, rfl⟩
  | cons deed rest ih =>
    intro h wf enough
    rw [List.length_cons, Nat.mul_succ] at enough
    obtain ⟨mid, ran, wf', larger, used⟩ := wf.run_deed deed (by omega)
    have still : (mid.objects.size + rest.length) * rest.length ≤ mid.room := by
      have fewer : (mid.objects.size + rest.length) * rest.length ≤
          (h.objects.size + (rest.length + 1)) * rest.length :=
        Nat.mul_le_mul_right _ (by omega)
      omega
    obtain ⟨h', later⟩ := ih wf' still
    refine ⟨h', ?_⟩
    show (deed.run >>= fun _ => rest.forM Deed.run) h = _
    rw [bind_ok ran, later]

/-! ### Never reused -/

/-- **Places are never reused.** Take a run that did not run out of places, and look at it twice,
after its first deeds and at its end. Each place handed out is a multiple of eight above all those
before it. A reference handed out by the time of the first look leads, at the second, to the object
that it was handed out for or nowhere, and never to another object; a shape that is not the object's
own is refused. An object that has not been freed stands at one place, and so the objects on the
heap are those allocated less those freed. Forwarding entries lead from empty places upward, no two
of them to one place. -/
theorem places_never_reused {before after : List Deed} {h' : Heap}
    (ran : (before ++ after).forM Deed.run {} = .ok () h') :
    let early := Annals.ofDeeds before
    let late := Annals.ofDeeds (before ++ after)
    before.forM Deed.run {} = .ok () early.heap ∧ late.heap = h' ∧
    (late.granted.Pairwise (fun late early => early.place.toNat < late.place.toNat) ∧
      (∀ g ∈ late.granted, 8 ∣ g.place.toNat ∧ g.place ≠ .null) ∧
      early.granted <:+ late.granted) ∧
    (∀ g ∈ early.granted,
      (late.holder g.place = none ∧ ∀ shape, h'.resolve g.place shape = none) ∨
      ∃ n object, g.number = some n ∧ early.born[n]? = some object ∧
        late.holder g.place = some n ∧
        ∀ shape, h'.resolve g.place shape = if object.shape = shape then some object else none) ∧
    (∀ r shape object, early.heap.resolve r shape = some object →
      ∀ other, h'.resolve r other = none ∨ (other = shape ∧ h'.resolve r other = some object)) ∧
    (∀ r, h'.objects[r]? = (late.holder r).bind (late.born[·]?)) ∧
    (∀ n < late.born.length,
      (n ∈ late.freed ∧ ∀ r, late.holder r ≠ some n) ∨
      (n ∉ late.freed ∧ ∃! r, late.holder r = some n)) ∧
    (late.born = (before ++ after).filterMap Deed.newObject? ∧
      late.freed.length = late.told ∧ h'.size = late.born.length - late.told) ∧
    (∀ r t, h'.movedTo? r = some t → h'.contains r = false ∧ r.toNat < t.toNat) ∧
    ∀ r r' t, h'.movedTo? r = some t → h'.movedTo? r' = some t → r = r' := by
  intro early late
  obtain ⟨mid, first, -⟩ := of_forM_append ran
  obtain ⟨rfl, early_ok, early_born⟩ := Annals.ofDeeds_inOrder first
  obtain ⟨rfl, late_ok, all_born⟩ := Annals.ofDeeds_inOrder ran
  have wf := late_ok.wellFormed
  have grown : early.granted <:+ late.granted := by
    show (Annals.ofDeeds before).granted <:+ (List.foldl Annals.write {} (before ++ after)).granted
    rw [List.foldl_append]
    exact Annals.granted_foldl_write after _
  -- an object has the same number at both looks
  have same_number : ∀ n < early.born.length, late.born[n]? = early.born[n]? := by
    intro n born
    rw [all_born, List.filterMap_append, ← early_born, List.getElem?_append_left born]
  have leads : ∀ g ∈ early.granted,
      (late.holder g.place = none ∧ ∀ shape, late.heap.resolve g.place shape = none) ∨
      ∃ n object, g.number = some n ∧ early.born[n]? = some object ∧
        late.holder g.place = some n ∧ ∀ shape, late.heap.resolve g.place shape =
          if object.shape = shape then some object else none := by
    intro g mem
    rcases late_ok.leads (grown.subset mem) with nowhere | ⟨n, object, named, born, there⟩
    · exact .inl nowhere
    · rw [same_number n (early_ok.numbered g mem n named)] at born
      exact .inr ⟨n, object, named, born, there⟩
  refine ⟨first, rfl, ⟨late_ok.descending, ?_, grown⟩, leads, ?_, late_ok.stands,
    fun n born => late_ok.freed_or_stands born, ⟨all_born, late_ok.length_freed, ?_⟩, ?_,
    wf.injective⟩
  · intro g mem
    obtain ⟨aligned, positive, -⟩ := late_ok.handedOut g mem
    refine ⟨aligned, ?_⟩
    rw [ne_eq, Address.eq_null_iff_toNat]
    omega
  · intro r shape object resolved other
    obtain ⟨found, shaped⟩ := resolve_eq_some_iff.mp resolved
    rw [early_ok.stands, Option.bind_eq_some_iff] at found
    obtain ⟨n, holds, born⟩ := found
    rcases leads _ (early_ok.entitled r n holds) with
      ⟨-, nowhere⟩ | ⟨n', object', named, born', -, there⟩
    · exact .inl (nowhere other)
    · cases named
      obtain rfl := Option.some.inj (born.symm.trans born')
      rw [there]
      split
      · exact .inr ⟨by rw [← shaped]; exact ‹_ = other›.symm, rfl⟩
      · exact .inl rfl
  · have counted : late.heap.objects.size + late.told = late.born.length := late_ok.counted
    exact Nat.eq_sub_of_add_eq counted
  · intro r t moved
    obtain ⟨gone, up, -⟩ := wf.forwards r t moved
    exact ⟨by simpa [Heap.contains] using gone, up⟩

/-- Two strings that look alike. -/
def twins : List Deed := [.within (.allocate (.string "s")), .within (.allocate (.string "s"))]

/-- The first of them moves, a place is used up in vain, both move, one is freed, and a third string
comes in the next epoch. -/
def oneFreed : List Deed :=
  [.within (.move ⟨8⟩), .within (.move ⟨8⟩), .within (.moveAll .reversed),
    .sweep (MarkSet.insert {} ⟨40⟩), .endEpoch, .within (.allocate (.string "t"))]

theorem places_never_reused_twins :
    ∃ h', (twins ++ oneFreed).forM Deed.run {} = .ok () h' ∧
      ((∀ shape, h'.resolve ⟨8⟩ shape = none) ∨
        ((Annals.ofDeeds (twins ++ oneFreed)).holder ⟨8⟩ = some 0 ∧
          h'.resolve ⟨8⟩ .string = some (.string "s"))) ∧
      h'.size = 3 - (Annals.ofDeeds (twins ++ oneFreed)).told := by
  obtain ⟨h', ran⟩ : ∃ h', (twins ++ oneFreed).forM Deed.run {} = .ok () h' :=
    wellFormed_empty.run_deeds (by decide)
  obtain ⟨-, -, -, leads, -, -, -, ⟨born, -, size⟩, -⟩ := places_never_reused ran
  have granted : ⟨⟨8⟩, some 0⟩ ∈ (Annals.ofDeeds twins).granted :=
    List.mem_cons_of_mem _ List.mem_cons_self
  refine ⟨h', ran, ?_, ?_⟩
  · rcases leads _ granted with ⟨-, nowhere⟩ | ⟨n, object, named, there, holds, resolves⟩
    · exact .inl nowhere
    · cases named
      obtain rfl : Object.string "s" = object := Option.some.inj there
      exact .inr ⟨holds, resolves .string⟩
  · rw [size, born]
    rfl

end ResolutionCache.Heap
