import ResolutionCache.Proofs.Machine.Deeds
import ResolutionCache.Proofs.Resolver.Inherited

/-!
# What dirty sets remember

The barrier of a cache is fed along eight ways, one of them only if a claim wins, and all other
deeds have to leave it alone. A deed that ends makes a dirty set remember a cache exactly if it
writes to it, and taking is the only way out of the set (`Machine.Deed.dirtySets_run`); and a deed
that does not write adds nothing to what the cache holds (`Machine.Deed.inherits_run`). Both are
carried over whole runs, in which any number of caches may share a set:
`Machine.remembered_iff_written`.
-/

namespace ResolutionCache

theorem DirtySet.contains_insert (s : DirtySet) (id other : CacheId) :
    (s.insert id).contains other = (id == other || s.contains other) := by
  simp [DirtySet.insert, DirtySet.contains, Std.HashSet.contains_insert]

namespace Machine

open Attempt

variable {m m' mid : Machine} {number place d : Nat} {t : Tenant} {s : DirtySet} {id : CacheId}
  {deed : Deed} {deeds : List Deed} {α β : Type}

/-! ### Dirty sets -/

/-- Only what an action does to the dirty set of its cache is written back. -/
theorem dirtySets_keep_of_eq {r r' : Resolver} (found : m.resolver? number = some r)
    (same : r'.dirty = r.dirty) : (m.keep number r').dirtySets = m.dirtySets := by
  have back : (m.keep number r).dirtySets = m.dirtySets := congrArg dirtySets (keep_self found)
  obtain ⟨t, there, -⟩ := resolver?_eq_some.mp found
  simp only [keep, there] at back ⊢
  rwa [same]

theorem keeps_dirtySets_forgetting (number : Nat) (indices : List UInt32) :
    Keeps dirtySets (onCache number (Resolver.clearStrings indices)).run := by
  intro m
  rw [left_onCache]
  cases found : m.resolver? number with
  | none => rfl
  | some r => exact dirtySets_keep_of_eq found (Resolver.keeps_dirty_clearStrings indices r)

/-- **What an action that ends does to a dirty set:** it inserts its cache if the cache has this set
and the action writes, and leaves it alone otherwise. -/
theorem dirtySets_perform {action : Action}
    (ran : (perform place action).run m = .ok (some ()) m') (held : m.dirtySets[d]? = some s) :
    ∃ t r, m.tenants[place]? = some t ∧ m.resolver? place = some r ∧
      ((t.dirty = some d ∧ r.Writes action ∧ m'.dirtySets[d]? = some (s.insert t.cache.id)) ∨
        ((t.dirty = some d → ¬ r.Writes action) ∧ m'.dirtySets[d]? = some s)) := by
  obtain ⟨r, r', journal, found, done, rfl⟩ := of_perform ran
  obtain ⟨t, there, cache, -, dirty⟩ := resolver?_eq_some.mp found
  refine ⟨t, r, there, found, ?_⟩
  show (_ ∧ _ ∧ (m.keep place r').dirtySets[d]? = _) ∨ (_ ∧ (m.keep place r').dirtySets[d]? = _)
  rcases Resolver.dirty_run done with ⟨writes, after⟩ | ⟨spares, after⟩
  · cases remembering : t.dirty with
    | none =>
      rw [remembering] at dirty
      have same : r'.dirty = r.dirty := by
        rw [after, Resolver.remembered, dirty]
        rfl
      rw [dirtySets_keep_of_eq found same]
      exact .inr ⟨fun other => absurd other.symm (Option.some_ne_none d), held⟩
    | some p =>
      rw [remembering] at dirty
      obtain ⟨s', held', dirty⟩ := dirty
      have inserted : r'.dirty = some (s'.insert t.cache.id) := by
        rw [after, Resolver.remembered, dirty, cache]
        rfl
      have kept : (m.keep place r').dirtySets =
          m.dirtySets.setIfInBounds p (s'.insert t.cache.id) := by
        simp only [keep, there, remembering, inserted]
      rw [kept, Array.getElem?_setIfInBounds]
      by_cases same : p = d
      · subst same
        obtain rfl := Option.some.inj (held.symm.trans held')
        obtain ⟨below, -⟩ := Array.getElem?_eq_some_iff.mp held
        rw [if_pos rfl, if_pos below]
        exact .inl ⟨rfl, writes, rfl⟩
      · rw [if_neg same]
        exact .inr ⟨fun other => absurd (Option.some.inj other) same, held⟩
  · rw [dirtySets_keep_of_eq found after]
    exact .inr ⟨fun _ => spares, held⟩

/-! ### Single deeds -/

namespace Deed

theorem leave_of_run (ran : deed.run.run m = .ok (some ()) m') : deed.leave m = m' := by
  unfold leave
  rw [ran]
  rfl

/-- A deed that is neither an action nor a taking leaves all dirty sets alone. -/
theorem dirtySets_leave (no_action : ∀ place action, deed ≠ .step (.act place action))
    (no_taking : ∀ dirty, deed ≠ .takeDirty dirty) (m : Machine) :
    (deed.leave m).dirtySets = m.dirtySets := by
  cases deed with
  | step step =>
    cases step with
    | act place action => exact absurd rfl (no_action place action)
    | rollback host place =>
      exact keeps_rollback (fun _ _ => rfl) (fun _ _ => rfl) (keeps_dirtySets_forgetting place) host
        m
    | begin host => exact keeps_onHost (fun _ _ => rfl) host Host.begin m
    | commit host => exact keeps_onHost (fun _ _ => rfl) host (fun h => .ok h.commit) m
  | copyTable | copyCallSites | copyOverlay =>
    exact dirtySets_of_still (still_leave (by nofun) (by nofun) m)
  | takeDirty dirty => exact absurd rfl (no_taking dirty)

/-- Taking what a dirty set remembers empties it. -/
theorem dirtySets_takeDirty (ran : (takeDirty d).run.run m = .ok (some ()) m') :
    m'.dirtySets = m.dirtySets.setIfInBounds d {} := by
  obtain ⟨_, _, taken, ended⟩ := of_bind_some ran
  cases ended
  obtain ⟨s, _, picked, taken⟩ := of_bind_some taken
  obtain rfl := of_pick picked
  cases taken
  rfl

/-- **The deed writes to a cache,** if it ends: it sets a symbol or a pre-resolved string there, or
it claims a call site and wins. -/
def Writes (number : Nat) (m : Machine) (deed : Deed) : Prop :=
  ∃ action r, deed = .step (.act number action) ∧ m.resolver? number = some r ∧ r.Writes action

/-- Only an action writes, and only to its own cache. -/
theorem not_writes (no_action : ∀ action, deed ≠ .step (.act number action)) (m : Machine) :
    ¬ deed.Writes number m := by
  rintro ⟨action, -, same, -⟩
  exact no_action action same

theorem writes_act {action : Action} {r : Resolver} (found : m.resolver? number = some r) :
    (Deed.step (.act number action)).Writes number m ↔ r.Writes action := by
  constructor
  · rintro ⟨action', r', same, found', writes⟩
    cases same
    obtain rfl := Option.some.inj (found.symm.trans found')
    exact writes
  · exact fun writes => ⟨action, r, rfl, found, writes⟩

/-- An action that ends puts the caches that it writes to into the set, and nothing else. -/
theorem dirtySets_act {action : Action}
    (own : ∀ other, m.identity? other = some t.cache.id → other = number)
    (there : m.tenants[number]? = some t) (dirty : t.dirty = some d)
    (held : m.dirtySets[d]? = some s)
    (ran : (Deed.step (.act place action)).run.run m = .ok (some ()) m') :
    ∃ s', m'.dirtySets[d]? = some s' ∧
      (s'.contains t.cache.id = true ↔
        (Deed.step (.act place action)).Writes number m ∨ s.contains t.cache.id = true) := by
  obtain ⟨t', r, there', found, outcome⟩ := dirtySets_perform ran held
  by_cases same : place = number
  · subst same
    obtain rfl := Option.some.inj (there.symm.trans there')
    rw [writes_act found]
    rcases outcome with ⟨-, writes, after⟩ | ⟨spares, after⟩
    · exact ⟨_, after, by simp [DirtySet.contains_insert, writes]⟩
    · exact ⟨s, after, by simp [spares dirty]⟩
  · have elsewhere : ¬ (Deed.step (.act place action)).Writes number m :=
      not_writes (fun action' is_act => same (by cases is_act; rfl)) m
    have apart : t'.cache.id ≠ t.cache.id := by
      intro same_id
      refine same (own place ?_)
      rw [identity?, there', ← same_id]
      rfl
    rcases outcome with ⟨-, -, after⟩ | ⟨-, after⟩
    · exact ⟨_, after, by simp [DirtySet.contains_insert, elsewhere, apart]⟩
    · exact ⟨s, after, by simp [elsewhere]⟩

/-- **What a deed that ends makes of what a dirty set remembers:** a cache is in the set if the deed
wrote to it, or if it was there and has not been taken out. -/
theorem dirtySets_run (own : ∀ other, m.identity? other = some t.cache.id → other = number)
    (there : m.tenants[number]? = some t) (dirty : t.dirty = some d)
    (held : m.dirtySets[d]? = some s) (ran : deed.run.run m = .ok (some ()) m') :
    ∃ s', m'.dirtySets[d]? = some s' ∧
      (s'.contains t.cache.id = true ↔
        deed.Writes number m ∨ (deed ≠ .takeDirty d ∧ s.contains t.cache.id = true)) := by
  by_cases action : ∃ place action, deed = .step (.act place action)
  · obtain ⟨place, action, rfl⟩ := action
    obtain ⟨s', after, remembered⟩ := dirtySets_act own there dirty held ran
    have other : Deed.step (.act place action) ≠ takeDirty d := fun same => by cases same
    exact ⟨s', after, by simp [remembered, other]⟩
  have no_action (place : Nat) (a : Action) (same : deed = .step (.act place a)) : False :=
    action ⟨place, a, same⟩
  have spares : ¬ deed.Writes number m := not_writes (no_action number) m
  by_cases taking : deed = takeDirty d
  · subst taking
    obtain ⟨below, -⟩ := Array.getElem?_eq_some_iff.mp held
    rw [dirtySets_takeDirty ran]
    exact ⟨{}, Array.getElem?_setIfInBounds_self_of_lt below, by simp [DirtySet.contains, spares]⟩
  · refine ⟨s, ?_, by simp [spares, taking]⟩
    by_cases elsewhere : ∃ d', deed = .takeDirty d'
    · obtain ⟨d', rfl⟩ := elsewhere
      have ne : d' ≠ d := fun same => taking (congrArg takeDirty same)
      rw [dirtySets_takeDirty ran, Array.getElem?_setIfInBounds_ne ne, held]
    · have kept := dirtySets_leave no_action (fun d' same => elsewhere ⟨d', same⟩) m
      rw [leave_of_run ran] at kept
      rw [kept, held]

/-- What the deed puts in the place of a reference that a cache holds. -/
def Rewrites (number : Nat) : Deed → Ref → Ref → Prop
  | .step (.act place action) => if place = number then action.Rewrites else Eq
  | _ => Eq

/-- **A deed that ends and does not write** adds nothing to a cache. -/
theorem inherits_run (there : m.tenants[number]? = some t)
    (ran : deed.run.run m = .ok (some ()) m') (spares : ¬ deed.Writes number m) :
    ∃ c', m'.tenants[number]? = some { t with cache := c' } ∧
      t.cache.Inherits (deed.Rewrites number) c' := by
  obtain ⟨c', after, change⟩ := deed.change there
  rw [leave_of_run ran] at after
  refine ⟨c', after, ?_⟩
  cases change with
  | @acted action r found same =>
    rw [← same]
    have inherits := (Resolver.effect_run action r).inherits (mt (writes_act found).mpr spares)
    rwa [Rewrites, if_pos rfl]
  | forgot same =>
    rw [← same]
    exact Resolver.clearStrings_inherits _ _ (.refl Eq.refl _)
  | none missing =>
    -- an action on the cache would have found it
    have idle : deed.Rewrites number = Eq := by
      unfold Rewrites
      split
      · refine if_neg ?_
        rintro rfl
        obtain ⟨r, _, _, found, -⟩ := of_perform ran
        cases found.symm.trans (missing _ rfl)
      · rfl
    rw [idle]
    exact .refl Eq.refl _

end Deed

/-! ### Runs -/

/-- Deeds, one after another. -/
def runDeeds (deeds : List Deed) : Operation Unit := deeds.forM Deed.run

theorem of_runDeeds_cons {rest : List Deed}
    (ran : (runDeeds (deed :: rest)).run m = .ok (some ()) m') :
    ∃ mid, deed.run.run m = .ok (some ()) mid ∧ (runDeeds rest).run mid = .ok (some ()) m' := by
  obtain ⟨_, mid, first, later⟩ := of_bind_some ran
  exact ⟨mid, first, later⟩

theorem runDeeds_cons {rest : List Deed} (first : deed.run.run m = .ok (some ()) mid) :
    (runDeeds (deed :: rest)).run m = (runDeeds rest).run mid :=
  bind_some first

theorem runDeeds_append {before : List Deed} (after : List Deed)
    (reached : (runDeeds before).run m = .ok (some ()) mid) :
    (runDeeds (before ++ after)).run m = (runDeeds after).run mid := by
  induction before generalizing m with
  | nil =>
    cases reached
    rfl
  | cons deed rest ih =>
    obtain ⟨m₁, first, reached⟩ := of_runDeeds_cons reached
    exact (runDeeds_cons first).trans (ih reached)

theorem runDeeds_identity? (ran : (runDeeds deeds).run m = .ok (some ()) m') :
    m'.identity? = m.identity? := by
  induction deeds generalizing m with
  | nil =>
    cases ran
    rfl
  | cons deed rest ih =>
    obtain ⟨mid, first, later⟩ := of_runDeeds_cons ran
    rw [ih later, ← deed.leave_identity? m, Deed.leave_of_run first]

/-- **A cache has been written to since the last taking:** some deed wrote to it, and after that
nobody took what the dirty set remembered. -/
def WrittenSince (number d : Nat) (deeds : List Deed) (m : Machine) : Prop :=
  ∃ before deed after mid, deeds = before ++ deed :: after ∧
    (runDeeds before).run m = .ok (some ()) mid ∧ deed.Writes number mid ∧
    ∀ later ∈ after, later ≠ .takeDirty d

theorem not_writtenSince_nil : ¬ WrittenSince number d [] m := by
  rintro ⟨before, deed, after, -, split, -⟩
  exact List.append_ne_nil_of_right_ne_nil before (List.cons_ne_nil deed after) split.symm

theorem writtenSince_cons {rest : List Deed} (ran : deed.run.run m = .ok (some ()) mid) :
    WrittenSince number d (deed :: rest) m ↔
      WrittenSince number d rest mid ∨
        (deed.Writes number m ∧ ∀ later ∈ rest, later ≠ .takeDirty d) := by
  constructor
  · rintro ⟨before, written, after, at_deed, split, reached, writes, untaken⟩
    rcases List.cons_eq_append_iff.mp split with ⟨rfl, same⟩ | ⟨before', rfl, same⟩
    · obtain ⟨rfl, rfl⟩ := List.cons.inj same
      cases reached
      exact .inr ⟨writes, untaken⟩
    · rw [runDeeds_cons ran] at reached
      exact .inl ⟨before', written, after, at_deed, same, reached, writes, untaken⟩
  · rintro (⟨before, written, after, at_deed, rfl, reached, writes, untaken⟩ | ⟨writes, untaken⟩)
    · exact ⟨deed :: before, written, after, at_deed, rfl, (runDeeds_cons ran).trans reached,
        writes, untaken⟩
    · exact ⟨[], deed, rest, m, rfl, rfl, writes, untaken⟩

theorem WrittenSince.append {before after : List Deed} (written : WrittenSince number d after mid)
    (reached : (runDeeds before).run m = .ok (some ()) mid) :
    WrittenSince number d (before ++ after) m := by
  obtain ⟨early, deed, late, at_deed, rfl, reached', writes, untaken⟩ := written
  exact ⟨before ++ early, deed, late, at_deed, (List.append_assoc _ _ _).symm,
    (runDeeds_append early reached).trans reached', writes, untaken⟩

/-- What deeds put in the place of a reference that a cache holds, one after another. -/
def rewritten (number : Nat) : List Deed → Ref → Ref → Prop
  | [] => Eq
  | deed :: rest => Relation.Comp (deed.Rewrites number) (rewritten number rest)

/-- **What a dirty set remembers after a run:** the caches written to since the last taking, and
those that were there and have not been taken out. -/
theorem dirtySets_runDeeds (own : ∀ other, m.identity? other = some t.cache.id → other = number)
    (there : m.tenants[number]? = some t) (dirty : t.dirty = some d)
    (held : m.dirtySets[d]? = some s) (ran : (runDeeds deeds).run m = .ok (some ()) m') :
    ∃ c' s', m'.tenants[number]? = some { t with cache := c' } ∧ c'.id = t.cache.id ∧
      m'.dirtySets[d]? = some s' ∧
      (s'.contains t.cache.id = true ↔ WrittenSince number d deeds m ∨
        ((∀ deed ∈ deeds, deed ≠ .takeDirty d) ∧ s.contains t.cache.id = true)) := by
  induction deeds generalizing m t s with
  | nil =>
    cases ran
    exact ⟨t.cache, s, there, rfl, held, by simp [not_writtenSince_nil]⟩
  | cons deed rest ih =>
    obtain ⟨mid, first, later⟩ := of_runDeeds_cons ran
    obtain ⟨s₁, held₁, remembered⟩ := deed.dirtySets_run own there dirty held first
    obtain ⟨c₁, there₁, -⟩ := deed.change there
    -- the identities stay, so the induction hypothesis is about the same cache
    have ids := deed.leave_identity? m
    rw [Deed.leave_of_run first] at there₁ ids
    have id : c₁.id = t.cache.id := by
      have same := congrFun ids number
      unfold identity? at same
      rw [there, there₁] at same
      exact Option.some.inj same
    obtain ⟨c', s', after, id', held', remembered'⟩ := ih (t := { t with cache := c₁ })
      (by rw [ids, id]; exact own) there₁ dirty held₁ later
    rw [id] at id' remembered'
    refine ⟨c', s', after, id', held', ?_⟩
    rw [remembered', remembered, writtenSince_cons first, List.forall_mem_cons]
    tauto

/-- **A cache that is not written to** holds nothing new. -/
theorem inherits_runDeeds (there : m.tenants[number]? = some t)
    (ran : (runDeeds deeds).run m = .ok (some ()) m')
    (untaken : ∀ deed ∈ deeds, deed ≠ .takeDirty d)
    (unwritten : ¬ WrittenSince number d deeds m) :
    ∃ c', m'.tenants[number]? = some { t with cache := c' } ∧
      t.cache.Inherits (rewritten number deeds) c' := by
  induction deeds generalizing m t with
  | nil =>
    cases ran
    exact ⟨t.cache, there, .refl Eq.refl _⟩
  | cons deed rest ih =>
    obtain ⟨mid, first, later⟩ := of_runDeeds_cons ran
    -- nobody takes the set later on, so a write now would still be remembered
    obtain ⟨-, untaken⟩ := List.forall_mem_cons.mp untaken
    rw [writtenSince_cons first, not_or] at unwritten
    obtain ⟨unwritten, spares⟩ := unwritten
    obtain ⟨c₁, there₁, inherits₁⟩ := deed.inherits_run there first fun writes =>
      spares ⟨writes, untaken⟩
    obtain ⟨c', after, inherits⟩ := ih there₁ later untaken unwritten
    exact ⟨c', after, inherits₁.comp inherits⟩

/-- **A dirty set misses no store.** Take a machine whose caches have identities of their own, a
cache on it that feeds a dirty set, and any run of deeds, none of which stopped with a fault. Then
the cache is in the set if it has been written to since the set was last taken, or if it was in the
set at first and the set has not been taken at all. So if it is not in the set, then since any point
of the run after which the set has not been taken, nothing has been added to the cache: whatever its
slots, its call sites and its overlay hold, they held at that point, native records as they are and
references up to what visitors answered in their places since then. A further deed that does not
write to the cache never puts it into the set. -/
theorem remembered_iff_written (numbered : m.Numbered) (there : m.tenants[number]? = some t)
    (dirty : t.dirty = some d) (held : m.dirtySets[d]? = some s)
    (ran : (runDeeds deeds).run m = .ok (some ()) m') :
    ∃ c' s', m'.tenants[number]? = some { t with cache := c' } ∧ c'.id = t.cache.id ∧
      m'.dirtySets[d]? = some s' ∧
      (s'.contains t.cache.id = true ↔ WrittenSince number d deeds m ∨
        ((∀ deed ∈ deeds, deed ≠ .takeDirty d) ∧ s.contains t.cache.id = true)) ∧
      (s'.contains t.cache.id = false → ∀ before after mid t₁, deeds = before ++ after →
        (∀ deed ∈ after, deed ≠ .takeDirty d) → (runDeeds before).run m = .ok (some ()) mid →
        mid.tenants[number]? = some t₁ → t₁.cache.Inherits (rewritten number after) c') ∧
      ∀ (deed : Deed) m'', deed.run.run m' = .ok (some ()) m'' → ¬ deed.Writes number m' →
        s'.contains t.cache.id = false →
        ∃ s'', m''.dirtySets[d]? = some s'' ∧ s''.contains t.cache.id = false := by
  have own : ∀ other, m.identity? other = some t.cache.id → other = number := by
    intro other same
    obtain ⟨u, there', id⟩ := Option.map_eq_some_iff.mp same
    exact numbered.distinct there' there id
  obtain ⟨c', s', after, id, held', remembered⟩ := dirtySets_runDeeds own there dirty held ran
  refine ⟨c', s', after, id, held', remembered, ?_, ?_⟩
  · rintro absent before rest mid t₁ rfl untaken reached there₁
    have later := (runDeeds_append rest reached).symm.trans ran
    have unwritten : ¬ WrittenSince number d rest mid := fun written => by
      rw [remembered.mpr (.inl (written.append reached))] at absent
      cases absent
    obtain ⟨c'', after', inherits⟩ := inherits_runDeeds there₁ later untaken unwritten
    obtain rfl : c'' = c' := congrArg Tenant.cache (Option.some.inj (after'.symm.trans after))
    exact inherits
  · intro deed m'' further spares absent
    obtain ⟨s'', held'', remembered''⟩ := deed.dirtySets_run
      (by rw [runDeeds_identity? ran, id]; exact own) after dirty held' further
    refine ⟨s'', held'', ?_⟩
    rw [← Bool.not_eq_true, ← id, remembered'', id, absent]
    simp [spares]

/-- Two caches that feed one dirty set. -/
def sharing : Machine where
  hosts := #[.ofCompiler]
  dirtySets := #[{}]
  tenants := #[⟨fourStrings 1, 0, some 0⟩, ⟨fourStrings 2, 0, some 0⟩]
  nextId := 3

/-- The first cache resolves a string, and it is taken out of the set. -/
def taken : List Deed := [.step (.act 0 (.set .string 0 ⟨8⟩)), .takeDirty 0]

/-- A visitor moves the string, the cache fails to forget it, and the second cache resolves another.
-/
def untaken : List Deed :=
  [.step (.act 0 (.scan true (fun _ s => (⟨64⟩, s)) ())), .step (.act 0 (.clear .string 2)),
    .step (.act 1 (.set .string 1 ⟨16⟩))]

theorem remembered_iff_written_taken :
    ∃ m' mid t₁ c' s', (runDeeds (taken ++ untaken)).run sharing = .ok (some ()) m' ∧
      m'.tenants[0]? = some ⟨c', 0, some 0⟩ ∧ m'.dirtySets[0]? = some s' ∧
      s'.contains ⟨1⟩ = false ∧ s'.contains ⟨2⟩ = true ∧
      (runDeeds taken).run sharing = .ok (some ()) mid ∧ mid.tenants[0]? = some t₁ ∧
      t₁.cache.Inherits (rewritten 0 untaken) c' := by
  have numbered : sharing.Numbered := by
    have first := Numbered.push (m := { hosts := #[.ofCompiler], dirtySets := #[{}] })
      ⟨by simp, by simp⟩ (c := fourStrings 1) rfl 0 (some 0) #[]
    exact first.push (c := fourStrings 2) rfl 0 (some 0) #[]
  have first : sharing.tenants[0]? = some ⟨fourStrings 1, 0, some 0⟩ := rfl
  have second : sharing.tenants[1]? = some ⟨fourStrings 2, 0, some 0⟩ := rfl
  have empty : sharing.dirtySets[0]? = some { ids := {} } := rfl
  obtain ⟨m', ran⟩ : ∃ m', (runDeeds (taken ++ untaken)).run sharing = .ok (some ()) m' :=
    of_succeeds (by decide +kernel)
  obtain ⟨mid, reached⟩ : ∃ mid, (runDeeds taken).run sharing = .ok (some ()) mid :=
    of_succeeds (by decide +kernel)
  obtain ⟨c₀, -, there₀, -⟩ := remembered_iff_written numbered first rfl empty reached
  obtain ⟨c', s', after, -, held, remembered, inherited, -⟩ :=
    remembered_iff_written numbered first rfl empty ran
  obtain ⟨-, s'', -, -, held', remembered', -⟩ :=
    remembered_iff_written numbered second rfl empty ran
  obtain rfl := Option.some.inj (held.symm.trans held')
  -- one deed after the other
  obtain ⟨m₁, e₁, rest⟩ := of_runDeeds_cons ran
  obtain ⟨m₂, e₂, rest⟩ := of_runDeeds_cons rest
  obtain ⟨m₃, e₃, rest⟩ := of_runDeeds_cons rest
  obtain ⟨m₄, e₄, rest⟩ := of_runDeeds_cons rest
  obtain ⟨m₅, e₅, -⟩ := of_runDeeds_cons rest
  have absent : s'.contains ⟨1⟩ = false := by
    rw [← Bool.not_eq_true]
    refine mt remembered.mp ?_
    rintro (written | ⟨clean, -⟩)
    · rw [taken, untaken, List.cons_append, writtenSince_cons e₁, List.cons_append,
        writtenSince_cons e₂, List.nil_append, writtenSince_cons e₃, writtenSince_cons e₄,
        writtenSince_cons e₅] at written
      rcases written with
        ((((none | ⟨other, -⟩) | ⟨clear, -⟩) | ⟨scan, -⟩) | ⟨take, -⟩) | ⟨-, clean⟩
      · exact not_writtenSince_nil none
      · obtain ⟨_, _, same, -⟩ := other
        cases same
      · obtain ⟨_, _, same, -, writes⟩ := clear
        cases same
        exact writes
      · obtain ⟨_, _, same, -, writes⟩ := scan
        cases same
        exact writes
      · obtain ⟨_, _, same, -⟩ := take
        cases same
      · exact clean (.takeDirty 0) List.mem_cons_self rfl
    · exact clean (.takeDirty 0) (by simp [taken]) rfl
  have present : s'.contains ⟨2⟩ = true := by
    have performed : (perform 1 (.set .string 1 ⟨16⟩)).run m₄ = .ok (some ()) m₅ := e₅
    obtain ⟨r, _, _, found, -⟩ := of_perform performed
    refine remembered'.mpr (.inl ⟨taken ++ untaken.take 2, _, [], m₄, rfl, ?_, ?_, by simp⟩)
    · exact (runDeeds_cons e₁).trans ((runDeeds_cons e₂).trans ((runDeeds_cons e₃).trans
        (runDeeds_cons e₄)))
    · exact ⟨_, r, rfl, found, trivial⟩
  have clean : ∀ deed ∈ untaken, deed ≠ .takeDirty 0 := by simp [untaken]
  exact ⟨m', mid, _, c', s', ran, after, held, absent, present, reached, there₀,
    inherited absent taken untaken mid _ rfl clean reached there₀⟩

end Machine

end ResolutionCache
