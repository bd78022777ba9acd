import Mathlib.Logic.Relation
import ResolutionCache.Proofs.Resolver.Effects

/-!
# What a cache holds it has from somewhere

Only a write puts something into a cache. After any other action, whatever a slot, a call site or an
entry of the overlay holds was there before, with the same owner, and at most a visitor has put its
answer in its place (`Resolver.Effect.inherits`). Clearing, forgetting and switching the overlay on
or off only make holdings fewer.
-/

namespace ResolutionCache

/-! ### Arrays -/

/-- Whatever the second array holds, at a place where it is not vacant, the first array holds
something related there. -/
def Inherits {α : Type} (Vacant : α → Prop) (R : α → α → Prop) (xs ys : Array α) : Prop :=
  ∀ (i : Nat) b, ys[i]? = some b → ¬ Vacant b → ∃ a, xs[i]? = some a ∧ ¬ Vacant a ∧ R a b

namespace Inherits

variable {α : Type} {Vacant : α → Prop} {R S : α → α → Prop} {xs ys zs : Array α}

theorem refl (reflexive : ∀ a, R a a) (xs : Array α) : Inherits Vacant R xs xs :=
  fun _ b there full => ⟨b, there, full, reflexive b⟩

theorem trans {T : α → α → Prop} (first : Inherits Vacant R xs ys)
    (second : Inherits Vacant S ys zs) (compose : ∀ {a b c}, R a b → S b c → T a c) :
    Inherits Vacant T xs zs := by
  intro i c there full
  obtain ⟨b, there, full, bc⟩ := second i c there full
  obtain ⟨a, there, full, ab⟩ := first i b there full
  exact ⟨a, there, full, compose ab bc⟩

/-- Nothing is new if nothing is held. -/
theorem of_vacant (vacant : ∀ (i : Nat) b, ys[i]? = some b → Vacant b) : Inherits Vacant R xs ys :=
  fun i b there full => absurd (vacant i b there) full

theorem setIfInBounds (reflexive : ∀ a, R a a) (i : Nat) {a : α} (vacant : Vacant a) :
    Inherits Vacant R xs (xs.setIfInBounds i a) := by
  intro j b there full
  rw [Array.getElem?_setIfInBounds] at there
  split at there
  · split at there
    · cases there
      exact absurd vacant full
    · cases there
  · exact ⟨b, there, full, reflexive b⟩

theorem of_pointwise (related : Pointwise S xs ys)
    (back : ∀ a b, S a b → ¬ Vacant b → ¬ Vacant a ∧ R a b) : Inherits Vacant R xs ys := by
  intro i b there full
  obtain ⟨a, there', ab⟩ := related.of_right there
  exact ⟨a, there', back a b ab full⟩

end Inherits

/-! ### Caches -/

/-- Entries with the same owner and related payloads. -/
def Entry.Succeeds {w : Nat} (R : Address w → Address w → Prop) (e e' : Entry w) : Prop :=
  e'.owner = e.owner ∧ R e.payload e'.payload

/-- **The second cache holds nothing new:** whatever a slot, a call site or an entry of the overlay
holds, a related one was there in the first cache, in a slot with the same owner. -/
structure Cache.Inherits (R : Ref → Ref → Prop) (c c' : Cache) : Prop where
  tables : ∀ kind, ResolutionCache.Inherits (fun e => e.payload = .null)
    (Entry.Succeeds (kind.Related R)) (c.table kind).entries (c'.table kind).entries
  callSites : ResolutionCache.Inherits (· = .null) R c.callSites.entries c'.callSites.entries
  overlay : ResolutionCache.Inherits (· = .null) R (c.overlay.entries?.getD #[])
    (c'.overlay.entries?.getD #[])

theorem SlotKind.Related.refl {R : Ref → Ref → Prop} (reflexive : ∀ a, R a a) (kind : SlotKind)
    (a : Address kind.width) : kind.Related R a a := by
  cases kind
  case field | method => exact rfl
  all_goals exact reflexive a

theorem SlotKind.Related.comp {R S : Ref → Ref → Prop} {kind : SlotKind}
    {a b c : Address kind.width} (ab : kind.Related R a b) (bc : kind.Related S b c) :
    kind.Related (Relation.Comp R S) a c := by
  cases kind
  case field | method => exact Eq.trans ab bc
  all_goals exact ⟨b, ab, bc⟩

namespace Cache.Inherits

variable {R S : Ref → Ref → Prop} {c c' c'' : Cache}

/-- What keeps the tables, the call sites and what can be seen of the overlay adds nothing. -/
theorem of_eq (reflexive : ∀ a, R a a) (tables : ∀ kind, c'.table kind = c.table kind)
    (callSites : c'.callSites = c.callSites)
    (overlay : ResolutionCache.Inherits (· = .null) R (c.overlay.entries?.getD #[])
      (c'.overlay.entries?.getD #[])) : c.Inherits R c' where
  tables kind := by
    rw [tables]
    exact .refl (fun e => ⟨rfl, .refl reflexive kind e.payload⟩) _
  callSites := by
    rw [callSites]
    exact .refl reflexive _
  overlay := overlay

theorem refl (reflexive : ∀ a, R a a) (c : Cache) : c.Inherits R c :=
  of_eq reflexive (fun _ => rfl) rfl (.refl reflexive _)

theorem comp (first : c.Inherits R c') (second : c'.Inherits S c'') :
    c.Inherits (Relation.Comp R S) c'' where
  tables kind := (first.tables kind).trans (second.tables kind) fun ab bc =>
    ⟨bc.1.trans ab.1, ab.2.comp bc.2⟩
  callSites := first.callSites.trans second.callSites fun ab bc => ⟨_, ab, bc⟩
  overlay := first.overlay.trans second.overlay fun ab bc => ⟨_, ab, bc⟩

theorem comp_eq (first : c.Inherits R c') (second : c'.Inherits Eq c'') : c.Inherits R c'' := by
  have both := first.comp second
  rwa [Relation.comp_eq] at both

end Cache.Inherits

/-- A visitor is shown what is there, and only that. -/
theorem Cache.Met.inherits {σ : Type} {v : Visitor 32 σ} {c c' : Cache} (met : c.Met v c') :
    c.Inherits v.Answers c' where
  tables kind := by
    have shown (m m' : DirectMap 32) (met : Pointwise (Entry.Met v) m.entries m'.entries) :
        ResolutionCache.Inherits (fun e => e.payload = .null) (Entry.Succeeds v.Answers)
          m.entries m'.entries := by
      refine .of_pointwise met fun e e' entry full => ⟨fun empty => full ?_, entry⟩
      have answer := entry.2
      rw [empty] at answer
      exact answer.null
    cases kind with
    | string => exact shown _ _ met.strings
    | type => exact shown _ _ met.types
    | methodType => exact shown _ _ met.methodTypes
    | field =>
      rw [show c'.table .field = c.table .field from (congrArg Cache.fields met.kept :)]
      exact .refl (fun e => ⟨rfl, rfl⟩) _
    | method =>
      rw [show c'.table .method = c.table .method from (congrArg Cache.methods met.kept :)]
      exact .refl (fun e => ⟨rfl, rfl⟩) _
  callSites := .of_pointwise met.callSites fun _ _ answer full => ⟨answer.full_left full, answer⟩
  overlay := .of_pointwise met.overlay fun _ _ answer full => ⟨answer.full_left full, answer⟩

/-! ### Actions -/

/-- What the action puts in the place of a reference: a pass over all roots what its visitor
answers, any other action the reference itself. -/
def Action.Rewrites : Action → Ref → Ref → Prop
  | .scan true v _ => v.Answers
  | _ => Eq

namespace Resolver

open Attempt

variable {r : Resolver} {a : Action} {c' : Cache}

/-- Emptying a slot adds nothing. -/
theorem inherits_vacated (r : Resolver) (kind : SlotKind) (slot : Nat) :
    r.cache.Inherits Eq (r.withEntry kind slot (.vacant slot)).cache where
  tables other := by
    show ResolutionCache.Inherits _ _ _ ((r.cache.mapTable kind _).table other).entries
    by_cases same : other = kind
    · subst same
      rw [Cache.table_mapTable, DirectMap.entries_replace other.wide]
      exact .setIfInBounds (fun e => ⟨rfl, .refl Eq.refl other e.payload⟩) slot rfl
    · rw [Cache.table_mapTable_of_ne r.cache _ same]
      exact .refl (fun e => ⟨rfl, .refl Eq.refl other e.payload⟩) _
  callSites := by cases kind <;> exact .refl Eq.refl _
  overlay := by cases kind <;> exact .refl Eq.refl _

/-- **Only a write adds something.** -/
theorem Effect.inherits (effect : r.Effect a c') (spares : ¬ r.Writes a) :
    r.cache.Inherits a.Rewrites c' := by
  cases effect with
  | stored => exact absurd trivial spares
  | bound wins => exact absurd wins spares
  | pinned => exact absurd trivial spares
  | @vacated kind index slot => exact r.inherits_vacated kind slot
  | offered =>
    -- the array is emptied before it is offered
    refine .of_eq Eq.refl (fun kind => by cases kind <;> rfl) rfl (.of_vacant fun i b there => ?_)
    obtain ⟨_, -, null⟩ := Option.map_eq_some_iff.mp (Array.getElem?_map.symm.trans there)
    exact null.symm
  | withdrawn =>
    refine .of_eq Eq.refl (fun kind => by cases kind <;> rfl) rfl (.of_vacant fun i b there => ?_)
    cases there
  | @visited withTables σ v state =>
    cases withTables with
    | true => exact (r.cache.scan_met v state).inherits
    | false => exact .of_eq Eq.refl (fun kind => by cases kind <;> rfl) rfl (.refl Eq.refl _)
  | unchanged idle =>
    cases a with
    | scan => exact idle.elim
    | _ => exact .refl Eq.refl _

/-- Forgetting strings adds nothing, also if some of them cannot be forgotten. -/
theorem clearStrings_inherits {c : Cache} (indices : List UInt32) :
    Preserves (fun r => c.Inherits Eq r.cache) (clearStrings indices) := by
  induction indices with
  | nil => exact fun _ before => before
  | cons index rest ih =>
    refine Preserves.bind (fun r before => ?_) fun _ => ih
    exact before.comp_eq ((effect_clear .string index r).inherits not_false)

end Resolver

end ResolutionCache
