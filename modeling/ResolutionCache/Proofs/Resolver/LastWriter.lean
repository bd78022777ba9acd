import ResolutionCache.Proofs.Cache.Roots
import ResolutionCache.Proofs.Resolver.Lookups
import ResolutionCache.Proofs.Resolver.Transaction

/-!
# The last writer of a slot

A direct mapped table has no memory of what its slots held. So after any sets and clears on a new
cache, of whatever kinds, what an index resolved to can be told from the actions alone: it is what
the last set of the index gave it, unless a later action took it away again
(`Resolver.get_last_writer`). Two actions can take it away, a set of an index that is the same modulo
the capacity and a clear of the index itself; all others spare it (`Action.Spares`).
-/

namespace ResolutionCache

namespace Action

/-- The action sets or clears a symbol, or claims a call site. -/
def IsStore : Action → Prop
  | .set .. => True
  | .clear .. => True
  | .setCallSite .. => True
  | _ => False

/-- **The action leaves an index what it resolved to:** it does not set an index of the kind that is
the same modulo the capacity, nor does it clear the index. -/
def Spares (capacity : UInt64) (kind : SlotKind) (index : UInt32) (a : Action) : Prop :=
  (∀ other payload, a = .set kind other payload →
    other.toNat % capacity.toNat ≠ index.toNat % capacity.toNat) ∧
  a ≠ .clear kind index

/-- **The last writer.** One of the actions sets the index to the payload, and all that follow it
spare the index. -/
def LastWriter (capacity : UInt64) (kind : SlotKind) (index : UInt32)
    (payload : Address kind.width) (actions : List Action) : Prop :=
  Attempt.LastOf (.set kind index payload) (Spares capacity kind index) actions

end Action

namespace Resolver

open Attempt

variable {r r' : Resolver} {kind : SlotKind} {index : UInt32} {payload : Address kind.width}
  {a : Action} {actions : List Action}

/-! ### One store -/

/-- Sets and clears leave the layout and the overlay alone. -/
theorem store_layout (store : a.IsStore) (ran : a.run r = .ok () r') :
    r.SameLayout r' ∧ r'.cache.overlay = r.cache.overlay := by
  cases a with
  | set kind index payload =>
    obtain ⟨-, slot, -, cache, host⟩ := of_set_ok ran
    have same := r.sameLayout_withEntry kind slot ⟨payload, index⟩
    refine ⟨⟨?_, ?_, ?_, ?_⟩, ?_⟩
    · rw [cache, same.file]
    · rw [cache, same.settings]
    · rw [cache]
      exact same.sizes
    · rw [host]
      split <;> rfl
    · rw [cache, overlay_withEntry]
  | clear kind index =>
    obtain ⟨-, slot, -, rfl⟩ := of_clear_ok ran
    split
    · exact ⟨r.sameLayout_withEntry kind slot _, r.overlay_withEntry kind slot _⟩
    · exact ⟨.refl r, rfl⟩
  | setCallSite index candidate =>
    obtain ⟨_, _, bound, ran⟩ := of_bind_ok ran
    cases ran
    obtain ⟨callSites, cache, host⟩ := of_setCallSite_ok bound
    refine ⟨⟨?_, ?_, ?_, ?_⟩, ?_⟩
    · rw [cache]
    · rw [cache]
    · intro kind
      rw [cache]
      cases kind <;> rfl
    · rw [host]
    · rw [cache]
  | _ => exact store.elim

/-- A set or clear of one kind does not change what another kind holds. -/
theorem held_of_ne {other : SlotKind} (ne : other ≠ kind)
    (store : (∃ i p, a = .set kind i p) ∨ ∃ i, a = .clear kind i) (ran : a.run r = .ok () r')
    (index : UInt32) : r'.cache.held other index = r.cache.held other index := by
  rcases store with ⟨i, p, rfl⟩ | ⟨i, rfl⟩
  · obtain ⟨-, slot, -, cache, -⟩ := of_set_ok ran
    rw [cache, held_withEntry_of_ne ne]
  · obtain ⟨-, slot, -, rfl⟩ := of_clear_ok ran
    split
    · exact held_withEntry_of_ne ne slot _ index
    · rfl

/-- **One store:** an index has a payload afterwards if it was just given it, or if it had it before
and was spared. -/
theorem held_store (usable : UsableCapacity (r.cache.settings.capacity kind)) (store : a.IsStore)
    (ran : a.run r = .ok () r') :
    r'.cache.held kind index = some payload ↔ a = .set kind index payload ∨
      (a.Spares (r.cache.settings.capacity kind) kind index ∧
        r.cache.held kind index = some payload) := by
  cases a with
  | set other i p =>
    by_cases same : kind = other
    · subst same
      have collide : slotOf index (r.cache.settings.capacity kind) =
          slotOf i (r.cache.settings.capacity kind) ↔
          i.toNat % (r.cache.settings.capacity kind).toNat =
            index.toNat % (r.cache.settings.capacity kind).toNat := by
        rw [slotOf_eq_mod usable, slotOf_eq_mod usable, eq_comm]
      rw [held_set ran]
      split
      · -- the slot was taken, so only the index that took it can have anything
        have taken : ¬ (Action.set kind i p).Spares (r.cache.settings.capacity kind) kind index :=
          fun spares => spares.1 i p rfl (collide.mp ‹_›)
        by_cases own : i = index
        · subst own
          simp [taken]
        · simp [own, taken]
      · have apart : (Action.set kind i p).Spares (r.cache.settings.capacity kind) kind index := by
          refine ⟨?_, nofun⟩
          intro i' p' same
          cases same
          exact fun mod => ‹¬ _› (collide.mpr mod)
        have own : i ≠ index := by
          rintro rfl
          exact ‹¬ _› rfl
        simp [own, apart]
    · have spares : (Action.set other i p).Spares (r.cache.settings.capacity kind) kind index := by
        refine ⟨fun i' p' set => ?_, nofun⟩
        cases set
        exact absurd rfl same
      rw [held_of_ne same (.inl ⟨i, p, rfl⟩) ran]
      have none_set : Action.set other i p ≠ .set kind index payload := by
        intro set
        cases set
        exact same rfl
      simp [spares, none_set]
  | clear other i =>
    have none_set : ∀ i' p', Action.clear other i ≠ .set kind i' p' := nofun
    by_cases same : kind = other
    · subst same
      rw [held_clear ran]
      by_cases own : i = index
      · simp [own, Action.Spares]
      · simp [own, Action.Spares]
    · rw [held_of_ne same (.inr ⟨i, rfl⟩) ran]
      have spares : (Action.clear other i).Spares (r.cache.settings.capacity kind) kind index := by
        refine ⟨nofun, fun clear => ?_⟩
        cases clear
        exact same rfl
      simp [spares]
  | setCallSite i candidate =>
    obtain ⟨_, _, bound, ran⟩ := of_bind_ok ran
    cases ran
    obtain ⟨callSites, cache, -⟩ := of_setCallSite_ok bound
    have spares : (Action.setCallSite i candidate).Spares (r.cache.settings.capacity kind) kind
        index := ⟨nofun, nofun⟩
    have kept : r'.cache.held kind index = r.cache.held kind index := by
      rw [cache]
      cases kind <;> rfl
    simp [kept, spares]
  | _ => exact store.elim

/-! ### Any number of stores -/

theorem stores_layout (stores : ∀ a ∈ actions, a.IsStore)
    (ran : actions.forM Action.run r = .ok () r') :
    r.SameLayout r' ∧ r'.cache.overlay = r.cache.overlay := by
  refine forM_invariant (I := fun s => r.SameLayout s ∧ s.cache.overlay = r.cache.overlay)
    ⟨.refl r, rfl⟩ ?_ ran
  rintro a mem s s' ⟨layout, overlay⟩ stored
  obtain ⟨layout', overlay'⟩ := store_layout (stores a mem) stored
  exact ⟨layout.trans layout', overlay'.trans overlay⟩

/-- **Any number of stores:** an index has what its last writer gave it, or what it had before and
was spared by them all. -/
theorem held_stores (usable : UsableCapacity (r.cache.settings.capacity kind))
    (stores : ∀ a ∈ actions, a.IsStore) (ran : actions.forM Action.run r = .ok () r') :
    r'.cache.held kind index = some payload ↔
      Action.LastWriter (r.cache.settings.capacity kind) kind index payload actions ∨
      ((∀ a ∈ actions, a.Spares (r.cache.settings.capacity kind) kind index) ∧
        r.cache.held kind index = some payload) := by
  refine forM_lastOf (I := fun s => s.cache.settings = r.cache.settings)
    (P := fun s => s.cache.held kind index = some payload) rfl ?_ ran
  intro a mem s s' settings stored
  have store := stores a mem
  have same := (store_layout store stored).1.settings
  rw [← settings] at usable ⊢
  exact ⟨same, held_store usable store stored⟩

/-- A symbol that was set had passed the checks that a lookup makes. -/
theorem slot_of_set (stores : ∀ a ∈ actions, a.IsStore)
    (ran : actions.forM Action.run r = .ok () r') (mem : .set kind index payload ∈ actions) :
    ∃ slot, r.slot kind index = .ok slot := by
  induction actions generalizing r with
  | nil => cases mem
  | cons a rest ih =>
    obtain ⟨mid, first, later⟩ := of_forM_cons ran
    rcases List.mem_cons.mp mem with rfl | mem
    · obtain ⟨-, slot, at_slot, -⟩ := of_set_ok first
      exact ⟨slot, at_slot⟩
    · obtain ⟨slot, at_slot⟩ := ih (fun b mem => stores b (List.mem_cons_of_mem _ mem)) later mem
      rw [(store_layout (stores a List.mem_cons_self) first).1.slot_eq] at at_slot
      exact ⟨slot, at_slot⟩

end Resolver

/-! ### New caches -/

namespace Cache.New

variable {c : Cache} {file : SymbolFile} {location : Ref} {kind : SlotKind} {index : UInt32}

/-- A new cache holds nothing. -/
theorem held_eq_none (new : c.New file location) (kind : SlotKind) (index : UInt32) :
    c.held kind index = none := by
  unfold Cache.held
  rw [new.tables, DirectMap.entries_fresh kind.wide, Array.getElem?_ofFn]
  split
  · exact Entry.lookup_vacant _ index
  · rfl

/-- **In a new cache every index in range has a slot.** -/
theorem slot_eq (new : c.New file location) (usable : UsableCapacity (c.settings.capacity kind))
    (range : index < file.count kind.space) (host : Host) (dirty : Option DirtySet)
    (handles : kind = .methodType → host.flags.methodHandles = true) :
    ({ cache := c, host, dirty } : Resolver).slot kind index =
      .ok (slotOf index (c.settings.capacity kind)) := by
  refine Resolver.slot_eq_ok_iff.mpr ⟨handles, ?_, usable.isPowerOfTwo, rfl, ?_⟩
  · show index < c.file.count kind.space
    rwa [new.serves]
  · show _ < (c.table kind).size
    rw [new.tables, DirectMap.size_fresh]
    exact slotOf_lt_slotCount usable range

end Cache.New

namespace Resolver

/-- **The last writer wins.** After any sets and clears of symbols on a new cache, none of which
stopped with a fault, an index in range has a payload if the index was set to that payload and none
of the actions that followed set an index of the kind that is the same modulo the capacity or
cleared the index. Without such a last writer, and so if it was never set, the index is a miss.
Actions on other kinds, sets of indices with another remainder and clears of other indices do not
change what a lookup answers. -/
theorem get_last_writer {id : CacheId} {file : SymbolFile} {location : Ref} {overrides : Overrides}
    {c : Cache} {host : Host} {dirty : Option DirtySet} {actions : List Action} {r : Resolver}
    {kind : SlotKind} {index : UInt32}
    (created : Cache.create id file location overrides = .ok c)
    (stores : ∀ a ∈ actions, a.IsStore)
    (ran : actions.forM Action.run { cache := c, host, dirty } = .ok () r)
    (range : index < file.count kind.space) :
    (∀ payload, r.get kind index = .ok (some payload) ↔
      Action.LastWriter (c.settings.capacity kind) kind index payload actions) ∧
    ((kind = .methodType → host.flags.methodHandles = true) →
      (∀ payload, ¬ Action.LastWriter (c.settings.capacity kind) kind index payload actions) →
      r.get kind index = .ok none) ∧
    ((kind = .methodType → host.flags.methodHandles = true) →
      (∀ payload, .set kind index payload ∉ actions) → r.get kind index = .ok none) ∧
    (∀ (a : Action) (r' : Resolver), a.IsStore → a.Spares (c.settings.capacity kind) kind index →
      a.run r = .ok () r' → r'.get kind index = r.get kind index) := by
  obtain ⟨accepted, -, new⟩ := Cache.of_create_ok created
  have usable := Settings.usable_of_ofOverrides accepted kind
  obtain ⟨layout, overlay⟩ := stores_layout stores ran
  -- the overlay was never switched on
  have silent : r.cache.overlay.lookup index.toNat = none := by
    rw [overlay, new.overlay]
    rfl
  have written (payload : Address kind.width) : r.cache.held kind index = some payload ↔
      Action.LastWriter (c.settings.capacity kind) kind index payload actions := by
    rw [held_stores usable stores ran, new.held_eq_none]
    simp
  have unwritten (handles : kind = .methodType → host.flags.methodHandles = true)
      (none_last : ∀ payload,
        ¬ Action.LastWriter (c.settings.capacity kind) kind index payload actions) :
      r.slotted kind index = .ok none := by
    have at_slot := (layout.slot_eq kind index).trans (new.slot_eq usable range host dirty handles)
    rw [slotted_of_ok at_slot]
    cases found : r.cache.held kind index with
    | none => rfl
    | some payload => exact absurd ((written payload).mp found) (none_last payload)
  rw [get_eq_slotted silent]
  refine ⟨fun payload => ⟨?_, ?_⟩, unwritten, ?_, ?_⟩
  · intro answered
    exact (written payload).mp (of_slotted_ok answered).2
  · intro last
    -- the set itself passed the checks that the lookup makes
    obtain ⟨slot, at_slot⟩ := slot_of_set stores ran last.mem
    rw [slotted_of_ok ((layout.slot_eq kind index).trans at_slot), (written payload).mpr last]
  · intro handles never
    exact unwritten handles fun payload last => never payload last.mem
  · intro a r' store spares stored
    obtain ⟨layout', overlay'⟩ := store_layout store stored
    rw [get_eq_slotted (by rw [overlay', silent])]
    refine layout'.slotted_eq (Option.ext fun payload => ?_)
    have other : a ≠ .set kind index payload := by
      rintro rfl
      exact spares.1 index payload rfl rfl
    rw [held_store (by rwa [layout.settings]) store stored, layout.settings]
    simp only [other, spares, false_or, true_and]

/-- A file with four strings. -/
def fourStrings : SymbolFile := { location := "core.jar", strings := 4 }

/-- Two strings compete for a slot, and clearing the one that lost changes nothing. -/
def contest : List Action := [.set .string 0 ⟨8⟩, .set .string 2 ⟨16⟩, .clear .string 0]

theorem get_last_writer_contest :
    ∃ c r, Cache.create ⟨1⟩ fourStrings .null { string := some 2 } = .ok c ∧
      contest.forM Action.run { cache := c, host := .ofCompiler } = .ok () r ∧
      (2 : UInt32) < fourStrings.count SlotKind.string.space ∧
      r.get .string 2 = .ok (some ⟨16⟩) ∧ r.get .string 0 = .ok none := by
  obtain ⟨c, created⟩ : ∃ c, Cache.create ⟨1⟩ fourStrings .null { string := some 2 } = .ok c :=
    ⟨_, rfl⟩
  obtain ⟨_, r, ran⟩ : ∃ a r, contest.forM Action.run { cache := c, host := .ofCompiler } =
      .ok a r := by
    cases created
    exact Attempt.of_ends (by decide +kernel)
  have stores : ∀ a ∈ contest, a.IsStore := by
    simp [contest, Action.IsStore]
  have two : c.settings.capacity .string = 2 := by
    cases created
    rfl
  have range : (2 : UInt32) < fourStrings.count SlotKind.string.space := by decide
  have range' : (0 : UInt32) < fourStrings.count SlotKind.string.space := by decide
  obtain ⟨hit, -⟩ := get_last_writer created stores ran range
  obtain ⟨-, miss, -⟩ := get_last_writer created stores ran range'
  rw [two] at hit miss
  refine ⟨c, r, created, ran, range, (hit ⟨16⟩).mpr ?_, miss nofun fun payload => ?_⟩
  · exact ⟨[.set .string 0 ⟨8⟩], [.clear .string 0], rfl, by simp [Action.Spares]⟩
  · -- the string that came second has the same slot
    simp [contest, Action.LastWriter, Attempt.lastOf_cons, Attempt.not_lastOf_nil, Action.Spares]

end Resolver

end ResolutionCache
