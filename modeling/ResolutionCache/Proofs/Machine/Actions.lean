import ResolutionCache.Machine
import ResolutionCache.Proofs.Resolver.Transaction

/-!
# Actions on the caches of a machine

An action on one cache of a machine is the action of its resolver, put together from its parts and
taken apart again. Seen from another cache the parts are its own, except that the two may share a
host (`Machine.resolver?_keep`). No action changes the identity of a cache, and a machine gives
every new cache one that no other has (`Machine.Numbered`).
-/

namespace ResolutionCache.Machine

open Attempt

variable {m m' : Machine} {α β : Type}

/-! ### Operations -/

/-- An operation that ended with an answer had its first piece end with one. -/
theorem of_bind_some {action : Operation α} {next : α → Operation β} {b : β}
    (ran : (action >>= next).run m = .ok (some b) m') :
    ∃ a mid, action.run m = .ok (some a) mid ∧ (next a).run mid = .ok (some b) m' := by
  rw [OptionT.run_bind] at ran
  obtain ⟨found, mid, first, rest⟩ := of_bind_ok ran
  cases found with
  | none => cases rest
  | some a => exact ⟨a, mid, first, rest⟩

theorem run_onCache (number : Nat) (action : Attempt Resolver α) (m : Machine) :
    (onCache number action).run m =
      match m.resolver? number with
      | none => .ok none m
      | some r =>
        match action r with
        | .ok a r => .ok (some a) (m.keep number r)
        | .error e r => .error e (m.keep number r) := rfl

theorem of_onCache {number : Nat} {action : Attempt Resolver α} {a : α}
    (ran : (onCache number action).run m = .ok (some a) m') :
    ∃ r r', m.resolver? number = some r ∧ action r = .ok a r' ∧ m' = m.keep number r' := by
  rw [run_onCache] at ran
  cases found : m.resolver? number with
  | none => rw [found] at ran; cases ran
  | some r =>
    rw [found] at ran
    cases done : action r with
    | error e r' => simp only [done] at ran; cases ran
    | ok a' r' =>
      simp only [done] at ran
      cases ran
      exact ⟨r, r', rfl, done, rfl⟩

theorem run_pick (part : Machine → Array α) (number : Nat) (m : Machine) :
    (pick part number).run m = .ok (part m)[number]? m := rfl

theorem of_pick {part : Machine → Array α} {number : Nat} {a : α}
    (found : (pick part number).run m = .ok (some a) m') : m = m' := by
  rw [run_pick] at found
  exact (EStateM.Result.ok.inj found).2

theorem run_cache (number : Nat) (m : Machine) :
    (cache number).run m =
      match m.tenants[number]? with
      | none => .ok none m
      | some t => .ok (some t.cache) m := by
  have asked := run_pick Machine.tenants number m
  unfold cache
  rw [OptionT.run_bind, Option.elimM, bind_ok asked]
  cases m.tenants[number]? <;> rfl

/-- Looking a cache up changes nothing. -/
theorem of_cache {number : Nat} {c : Cache} (found : (cache number).run m = .ok (some c) m') :
    m = m' := by
  rw [run_cache] at found
  cases there : m.tenants[number]? with
  | none => rw [there] at found; cases found
  | some t => rw [there] at found; cases found; rfl

/-- Carries out an action on a cache. -/
def perform (number : Nat) : Action → Operation Unit
  | .scan withTables v state => do let _ ← scan number withTables v state
  | .offerOverlay => offerOverlay number
  | .withdrawOverlay => withdrawOverlay number
  | action => onCache number action.run

/-- Carries out actions on caches, one after another. -/
def performAll : List (Nat × Action) → Operation Unit
  | [] => pure ()
  | (number, action) :: rest => do
    perform number action
    performAll rest

/-- **An action on a cache is the action of its resolver.** Otherwise only the journal changes. -/
theorem of_perform {number : Nat} {action : Action}
    (ran : (perform number action).run m = .ok (some ()) m') :
    ∃ r r' journal, m.resolver? number = some r ∧ action.run r = .ok () r' ∧
      m' = { m.keep number r' with journal } := by
  have plain {action : Action} (ran : (onCache number action.run).run m = .ok (some ()) m') :
      ∃ r r' journal, m.resolver? number = some r ∧ action.run r = .ok () r' ∧
        m' = { m.keep number r' with journal } := by
    obtain ⟨r, r', found, done, rfl⟩ := of_onCache ran
    exact ⟨r, r', (m.keep number r').journal, found, done, rfl⟩
  cases action with
  | scan withTables v state =>
    obtain ⟨_, _, scanned, ended⟩ := of_bind_some ran
    cases ended
    obtain ⟨⟨location, changed, last⟩, _, passed, told⟩ := of_bind_some scanned
    obtain ⟨r, r', found, done, rfl⟩ := of_onCache passed
    cases done
    cases told
    exact ⟨r, _, _, found, rfl, rfl⟩
  | offerOverlay =>
    obtain ⟨_, _, offered, told⟩ := of_bind_some ran
    obtain ⟨r, r', found, done, rfl⟩ := of_onCache offered
    obtain ⟨c, _, named, told⟩ := of_bind_some told
    obtain rfl := of_cache named
    cases told
    exact ⟨r, r', _, found, done, rfl⟩
  | withdrawOverlay =>
    obtain ⟨_, _, withdrawn, told⟩ := of_bind_some ran
    obtain ⟨r, r', found, done, rfl⟩ := of_onCache withdrawn
    obtain ⟨c, _, named, told⟩ := of_bind_some told
    obtain rfl := of_cache named
    cases told
    exact ⟨r, r', _, found, done, rfl⟩
  | _ => exact plain ran

/-! ### Parts -/

/-- **The parts of a resolver:** its cache and its host, and its dirty set if it has one. -/
theorem resolver?_eq_some {number : Nat} {r : Resolver} :
    m.resolver? number = some r ↔
      ∃ t, m.tenants[number]? = some t ∧ t.cache = r.cache ∧ m.hosts[t.host]? = some r.host ∧
        match t.dirty with
        | none => r.dirty = none
        | some dirty => ∃ s, m.dirtySets[dirty]? = some s ∧ r.dirty = some s := by
  obtain ⟨cache, host, dirty⟩ := r
  unfold resolver?
  cases m.tenants[number]? with
  | none => simp
  | some t =>
    obtain ⟨cache', host', dirty'⟩ := t
    cases found : m.hosts[host']? with
    | none => simp [found]
    | some h =>
      cases dirty' with
      | none => simp [found, eq_comm]
      | some d =>
        cases there : m.dirtySets[d]? with
        | none => simp [found, there]
        | some s => simp [found, there, eq_comm]

section Keep

variable {number other : Nat} {t u : Tenant} {r r' : Resolver}

theorem tenants_keep (there : m.tenants[number]? = some t) (other : Nat) :
    (m.keep number r').tenants[other]? =
      if number = other then some { t with cache := r'.cache } else m.tenants[other]? := by
  obtain ⟨held, -⟩ := Array.getElem?_eq_some_iff.mp there
  simp only [keep, there, Array.getElem?_setIfInBounds]
  split
  · rfl
  · rfl

theorem hosts_keep (there : m.tenants[number]? = some t) (place : Nat) :
    (m.keep number r').hosts[place]? =
      if t.host = place then m.hosts[place]?.map fun _ => r'.host else m.hosts[place]? := by
  simp only [keep, there, Array.getElem?_setIfInBounds]
  split
  · obtain rfl := ‹t.host = place›
    split
    · rw [Array.getElem?_eq_getElem ‹_›]
      rfl
    · rw [Array.getElem?_eq_none (Nat.le_of_not_lt ‹_›)]
      rfl
  · rfl

/-- A dirty set is still there, whatever is in it. -/
theorem dirtySets_keep (r' : Resolver) (there : m.tenants[number]? = some t) {place : Nat}
    {s : DirtySet} (held : m.dirtySets[place]? = some s) :
    ∃ s', (m.keep number r').dirtySets[place]? = some s' := by
  obtain ⟨below, -⟩ := Array.getElem?_eq_some_iff.mp held
  have below' : place < (m.keep number r').dirtySets.size := by
    simp only [keep, there]
    split
    · rwa [Array.size_setIfInBounds]
    · exact below
  exact ⟨_, Array.getElem?_eq_getElem below'⟩

/-- **What one cache sees of another's action.** Its own parts are there as before, but a shared
host is as the action has left it. -/
theorem resolver?_keep (r' : Resolver) (there : m.tenants[number]? = some t)
    {q : Resolver} (seen : m.resolver? other = some q) (there' : m.tenants[other]? = some u) :
    ∃ dirty, (m.keep number r').resolver? other =
      some { cache := if number = other then r'.cache else q.cache
             host := if t.host = u.host then r'.host else q.host
             dirty } := by
  obtain ⟨u', tenant, cache, host, dirty⟩ := resolver?_eq_some.mp seen
  obtain rfl := Option.some.inj (tenant.symm.trans there')
  -- the host is written back to its place, where the other cache may look it up too
  have host_after : (m.keep number r').hosts[u'.host]? =
      some (if t.host = u'.host then r'.host else q.host) := by
    rw [hosts_keep there, host]
    split <;> rfl
  obtain ⟨dirty', dirty_after⟩ : ∃ dirty', match u'.dirty with
      | none => dirty' = none
      | some place => ∃ s, (m.keep number r').dirtySets[place]? = some s ∧ dirty' = some s := by
    cases remembering : u'.dirty with
    | none => exact ⟨none, rfl⟩
    | some place =>
      rw [remembering] at dirty
      obtain ⟨s, held, -⟩ := dirty
      obtain ⟨s', held'⟩ := dirtySets_keep r' there held
      exact ⟨some s', s', held', rfl⟩
  refine ⟨dirty', resolver?_eq_some.mpr ?_⟩
  by_cases same : number = other
  · subst same
    obtain rfl := Option.some.inj (there.symm.trans there')
    refine ⟨{ t with cache := r'.cache }, by rw [tenants_keep there, if_pos rfl], ?_, host_after,
      dirty_after⟩
    rw [if_pos rfl]
  · refine ⟨u', by rw [tenants_keep there, if_neg same, there'], ?_, host_after, dirty_after⟩
    rw [if_neg same, cache]

end Keep

/-! ### Identities -/

/-- **The caches of a machine are told apart by their identities,** and the next identity is new. -/
structure Numbered (m : Machine) : Prop where
  below : ∀ {i : Nat} {t : Tenant}, m.tenants[i]? = some t → t.cache.id.number < m.nextId
  distinct : ∀ {i j : Nat} {t u : Tenant}, m.tenants[i]? = some t → m.tenants[j]? = some u →
    t.cache.id = u.cache.id → i = j

/-- A machine without caches. -/
theorem numbered_empty : Numbered {} where
  below there := by simp at there
  distinct there := by simp at there

theorem Numbered.push (numbered : m.Numbered) {c : Cache} (id : c.id = ⟨m.nextId⟩) (host : Nat)
    (dirty : Option Nat) (journal : Array Event) :
    Numbered { m with
      tenants := m.tenants.push { cache := c, host, dirty }, nextId := m.nextId + 1, journal } := by
  have cases_push {i : Nat} {t : Tenant}
      (there : (m.tenants.push { cache := c, host, dirty })[i]? = some t) :
      (i = m.tenants.size ∧ t.cache.id = ⟨m.nextId⟩) ∨ m.tenants[i]? = some t := by
    rw [Array.getElem?_push] at there
    split at there
    · cases there
      exact .inl ⟨‹_›, id⟩
    · exact .inr there
  have old {i : Nat} {t : Tenant} (there : m.tenants[i]? = some t) : t.cache.id ≠ ⟨m.nextId⟩ := by
    intro same
    have below := numbered.below there
    rw [same] at below
    exact absurd below (Nat.lt_irrefl _)
  constructor
  · intro i t there
    rcases cases_push there with ⟨-, new⟩ | there
    · rw [new]
      exact Nat.lt_succ_self _
    · exact Nat.lt_succ_of_lt (numbered.below there)
  · intro i j t u t_there u_there same
    -- two new ones are the same one; a new one and an old one have different numbers
    rcases cases_push t_there with ⟨here, new⟩ | t_there <;>
      rcases cases_push u_there with ⟨here', new'⟩ | u_there
    · rw [here, here']
    · exact absurd (same.symm.trans new) (old u_there)
    · exact absurd (same.trans new') (old t_there)
    · exact numbered.distinct t_there u_there same

/-- **Adding a cache** puts a new one behind the others, unless its capacities cannot be used. -/
theorem of_addCache {file : SymbolFile} {location : Ref} {overrides : Overrides} {host : Nat}
    {dirty : Option Nat} {added : Except BadCapacity (Nat × CacheId)}
    (ran : (addCache file location overrides host dirty).run m = .ok (some added) m') :
    m' = m ∨ ∃ c journal, Cache.create ⟨m.nextId⟩ file location overrides = .ok c ∧
      m' = { m with
        tenants := m.tenants.push { cache := c, host, dirty }
        nextId := m.nextId + 1
        journal } := by
  unfold Machine.addCache at ran
  obtain ⟨_, _, picked, ran⟩ := of_bind_some ran
  obtain rfl := of_pick picked
  cases dirty
  case' some place =>
    obtain ⟨_, _, picked', ran⟩ := of_bind_some ran
    obtain rfl := of_pick picked'
  -- from here on a dirty set makes no difference
  all_goals
    obtain ⟨_, _, asked, ran⟩ := of_bind_some ran
    cases asked
    cases created : Cache.create ⟨m.nextId⟩ file location overrides with
    | error bad =>
      simp only [created] at ran
      cases ran
      exact .inl rfl
    | ok c =>
      simp only [created] at ran
      cases ran
      exact .inr ⟨c, _, rfl, rfl⟩

/-- Adding a cache gives it an identity of its own. -/
theorem Numbered.addCache (numbered : m.Numbered) {file : SymbolFile} {location : Ref}
    {overrides : Overrides} {host : Nat} {dirty : Option Nat}
    {added : Except BadCapacity (Nat × CacheId)}
    (ran : (addCache file location overrides host dirty).run m = .ok (some added) m') :
    m'.Numbered := by
  rcases of_addCache ran with rfl | ⟨c, journal, created, rfl⟩
  · exact numbered
  · exact numbered.push (Cache.of_create_ok created).2.1 host dirty journal

/-- An action on a cache leaves all identities as they are. -/
theorem Numbered.perform (numbered : m.Numbered) {number : Nat} {action : Action}
    (ran : (perform number action).run m = .ok (some ()) m') : m'.Numbered := by
  obtain ⟨r, r', journal, found, done, rfl⟩ := of_perform ran
  obtain ⟨t, there, cache, -⟩ := resolver?_eq_some.mp found
  have id := Resolver.run_id done
  have before {i : Nat} {u : Tenant} (u_there : (m.keep number r').tenants[i]? = some u) :
      ∃ u', m.tenants[i]? = some u' ∧ u'.cache.id = u.cache.id := by
    rw [tenants_keep there] at u_there
    split at u_there
    · cases u_there
      obtain rfl := ‹number = i›
      exact ⟨t, there, by rw [cache, id]⟩
    · exact ⟨u, u_there, rfl⟩
  constructor
  · intro i u u_there
    obtain ⟨u', there', same⟩ := before u_there
    rw [← same]
    show _ < (m.keep number r').nextId
    have next : (m.keep number r').nextId = m.nextId := by simp only [keep, there]
    rw [next]
    exact numbered.below there'
  · intro i j u v u_there v_there same
    obtain ⟨u', there_u, same_u⟩ := before u_there
    obtain ⟨v', there_v, same_v⟩ := before v_there
    exact numbered.distinct there_u there_v (by rw [same_u, same_v, same])

end ResolutionCache.Machine
