import ResolutionCache.Proofs.Machine.Actions

/-!
# Rolling a transaction back

The transaction of a host is rolled back for one cache at a time. `Machine.rollback_undoes` says
what that does after any actions on the caches of a machine, as long as none of them stopped with a
fault: the strings that the cache resolved since the transaction began are forgotten, down to the
last slot that one of them was ever written to, and nothing else changes.

The proof carries `Resolver.InTransaction` of the cache through the actions. Those of the cache
itself keep it; those of others see to it that the entries they log are their own.
-/

namespace ResolutionCache

theorem Host.recorded_of_log {h h' : Host} {id other : CacheId} {strings : List UInt32}
    (log : h'.log = strings.map (fun index => (other, index)) ++ h.log) (ne : other ≠ id) :
    h'.recorded id = h.recorded id := by
  unfold recorded
  rw [log, List.filter_append]
  -- the new entries are all of the other cache
  have none_of_mine : (strings.map fun index => (other, index)).filter (·.1 = id) = [] := by
    rw [List.filter_eq_nil_iff]
    intro entry mem
    obtain ⟨index, -, rfl⟩ := List.mem_map.mp mem
    simpa using ne
  rw [none_of_mine, List.nil_append]

namespace Machine

open Attempt

variable {m m' : Machine} {number host : Nat} {written : List UInt32} {α β : Type}

/-! ### Inside a transaction -/

/-- A cache of a machine inside a transaction of a host, with the strings resolved in it. -/
def InTransaction (m : Machine) (number host : Nat) (written : List UInt32) : Prop :=
  ∃ t r, m.tenants[number]? = some t ∧ t.host = host ∧ m.resolver? number = some r ∧
    r.InTransaction written

/-- The strings that actions resolve in one cache, the last one first. -/
def resolvedIn (number : Nat) : List (Nat × Action) → List UInt32
  | [] => []
  | (other, action) :: rest =>
    resolvedIn number rest ++ if other = number then action.resolved else []

theorem mem_resolved {action : Action} {index : UInt32} :
    index ∈ action.resolved ↔ ∃ payload, action = .set .string index payload := by
  cases action with
  | set kind other payload =>
    cases kind with
    | string =>
      simp only [Action.resolved, List.mem_singleton, Action.set.injEq, heq_eq_eq, true_and]
      constructor
      · rintro rfl
        exact ⟨payload, rfl, rfl⟩
      · rintro ⟨_, rfl, _⟩
        rfl
    | type | methodType | field | method => simp [Action.resolved]
  | _ => simp [Action.resolved]

theorem mem_resolvedIn {actions : List (Nat × Action)} {index : UInt32} :
    index ∈ resolvedIn number actions ↔
      ∃ payload, (number, Action.set .string index payload) ∈ actions := by
  induction actions with
  | nil => simp [resolvedIn]
  | cons first rest ih =>
    obtain ⟨other, action⟩ := first
    rw [resolvedIn, List.mem_append, ih]
    simp only [List.mem_cons, Prod.mk.injEq]
    constructor
    · rintro (⟨payload, mem⟩ | here)
      · exact ⟨payload, .inr mem⟩
      · split at here
        · obtain ⟨payload, rfl⟩ := mem_resolved.mp here
          exact ⟨payload, .inl ⟨by rw [‹other = number›], rfl⟩⟩
        · cases here
    · rintro ⟨payload, ⟨rfl, rfl⟩ | mem⟩
      · rw [if_pos rfl]
        exact .inr (mem_resolved.mpr ⟨payload, rfl⟩)
      · exact .inl ⟨payload, mem⟩

/-- **One action on any cache** keeps a cache inside its transaction. -/
theorem InTransaction.perform (inside : m.InTransaction number host written)
    (numbered : m.Numbered) {other : Nat} {action : Action}
    (ran : (perform other action).run m = .ok (some ()) m') :
    m'.InTransaction number host
      ((if other = number then action.resolved else []) ++ written) := by
  obtain ⟨t, r, there, rfl, seen, inside⟩ := inside
  obtain ⟨q, q', journal, found, done, rfl⟩ := of_perform ran
  obtain ⟨u, there', cache', host', -⟩ := resolver?_eq_some.mp found
  obtain ⟨t', there'', cache, host, -⟩ := resolver?_eq_some.mp seen
  obtain rfl := Option.some.inj (there.symm.trans there'')
  obtain ⟨dirty, after⟩ := resolver?_keep q' there' seen there
  by_cases same : other = number
  · subst same
    obtain rfl := Option.some.inj (there.symm.trans there')
    obtain rfl := Option.some.inj (seen.symm.trans found)
    rw [if_pos rfl]
    rw [if_pos rfl, if_pos rfl] at after
    refine ⟨{ t with cache := q'.cache }, _, ?_, rfl, after, ?_⟩
    · show (m.keep other q').tenants[other]? = _
      rw [tenants_keep there, if_pos rfl]
    · exact (inside.run done).visited (.of_strings rfl rfl rfl rfl) rfl rfl
  · rw [if_neg same, List.nil_append]
    rw [if_neg same] at after
    refine ⟨t, _, ?_, rfl, after, ?_⟩
    · show (m.keep other q').tenants[number]? = _
      rw [tenants_keep there', if_neg same, there]
    · obtain ⟨flags, log⟩ := Resolver.run_host done
      -- a shared host is one host, and what the other cache logged is not this one's
      have shared (one : u.host = t.host) : q.host = r.host := by
        rw [one] at host'
        exact Option.some.inj (host'.symm.trans host)
      have apart : q.cache.id ≠ r.cache.id := by
        rw [← cache', ← cache]
        exact fun one => same (numbered.distinct there' there one)
      refine inside.visited (.of_strings rfl rfl rfl rfl) ?_ ?_
      · show (if _ then _ else _ : Host).flags = _
        split
        · rw [flags, shared ‹_›]
        · rfl
      · show (if _ then _ else _ : Host).recorded _ = _
        split
        · have one := shared ‹_›
          rw [Host.recorded_of_log (log (by rw [one, inside.transaction])) apart, one]
        · rfl

/-- **Any actions on any caches** keep a cache inside its transaction. -/
theorem InTransaction.performAll {actions : List (Nat × Action)}
    (inside : m.InTransaction number host written) (numbered : m.Numbered)
    (ran : (performAll actions).run m = .ok (some ()) m') :
    m'.InTransaction number host (resolvedIn number actions ++ written) := by
  induction actions generalizing m written with
  | nil =>
    cases ran
    exact inside
  | cons first rest ih =>
    obtain ⟨other, action⟩ := first
    obtain ⟨_, mid, performed, ran⟩ := of_bind_some ran
    -- identities stay apart, so the next action finds the same invariant
    have step := ih (inside.perform numbered performed) (numbered.perform performed) ran
    rwa [resolvedIn, List.append_assoc]

theorem run_onHost (place : Nat) (action : Host → Except Fault Host) (m : Machine) :
    (onHost place action).run m =
      match m.hosts[place]? with
      | none => .ok none m
      | some host =>
        match action host with
        | .ok host => .ok (some ()) { m with hosts := m.hosts.setIfInBounds place host }
        | .error e => .error e m := rfl

/-- What is done to a host leaves the caches as they are. -/
theorem Numbered.onHost (numbered : m.Numbered) {action : Host → Except Fault Host}
    (ran : (onHost host action).run m = .ok (some ()) m') : m'.Numbered := by
  rw [run_onHost] at ran
  cases there : m.hosts[host]? with
  | none => rw [there] at ran; cases ran
  | some h =>
    rw [there] at ran
    cases done : action h with
    | error f => simp only [done] at ran; cases ran
    | ok h' =>
      simp only [done] at ran
      cases ran
      exact ⟨numbered.below, numbered.distinct⟩

/-- A resolver whose host is replaced. -/
theorem resolver?_setHost {t : Tenant} {r : Resolver} (there : m.tenants[number]? = some t)
    (seen : m.resolver? number = some r) (h : Host) (journal : Array Event) :
    ({ m with hosts := m.hosts.setIfInBounds t.host h, journal } : Machine).resolver? number =
      some { r with host := h } := by
  obtain ⟨t', there', cache, host, dirty⟩ := resolver?_eq_some.mp seen
  obtain rfl := Option.some.inj (there.symm.trans there')
  obtain ⟨held, -⟩ := Array.getElem?_eq_some_iff.mp host
  refine resolver?_eq_some.mpr ⟨t, there, cache, ?_, dirty⟩
  show (m.hosts.setIfInBounds t.host h)[t.host]? = some h
  rw [Array.getElem?_setIfInBounds, if_pos rfl, if_pos held]

/-- A cache without entries in the log is inside a transaction that has just begun. -/
theorem InTransaction.begin {t : Tenant} {r : Resolver} (there : m.tenants[number]? = some t)
    (seen : m.resolver? number = some r) (unlogged : r.host.recorded r.cache.id = [])
    (opened : (onHost t.host Host.begin).run m = .ok (some ()) m') :
    m'.InTransaction number t.host [] := by
  obtain ⟨t', there', -, host, -⟩ := resolver?_eq_some.mp seen
  obtain rfl := Option.some.inj (there.symm.trans there')
  rw [run_onHost, host] at opened
  cases begun : r.host.begin with
  | error f => simp only [begun] at opened; cases opened
  | ok h =>
    simp only [begun] at opened
    cases opened
    unfold Host.begin at begun
    split at begun
    · cases begun
    · split at begun
      · cases begun
      · cases begun
        have compiler : r.host.flags.compiler = true := by simpa using ‹¬ (!_) = true›
        refine ⟨t, _, there, rfl, resolver?_setHost there seen _ m.journal, ?_⟩
        exact ⟨compiler, rfl, unlogged, by simp, by simp⟩

/-! ### The rollback -/

theorem bind_some {action : Operation α} {next : α → Operation β} {a : α} {mid : Machine}
    (ran : action.run m = .ok (some a) mid) : (action >>= next).run m = (next a).run mid := by
  rw [OptionT.run_bind, Option.elimM, bind_ok ran]
  rfl

/-- A rollback takes the entries of the cache out of the log and closes the transaction before it
makes the cache forget what the entries said. -/
theorem rollback_eq {place : Nat} {h : Host} {t : Tenant} (at_place : m.hosts[place]? = some h)
    (there : m.tenants[number]? = some t) :
    ∃ journal, (rollback place number).run m =
      (onCache number (Resolver.clearStrings (h.recorded t.cache.id))).run
        { m with hosts := m.hosts.setIfInBounds place (h.withdraw t.cache.id), journal } := by
  have picked : (pick Machine.hosts place).run m = .ok (some h) m := by
    rw [run_pick, at_place]
  have named : (Machine.cache number).run m = .ok (some t.cache) m := by
    rw [run_cache, there]
  have withdrawn : (onHost place fun h => .ok (h.withdraw t.cache.id)).run m =
      .ok (some ()) { m with hosts := m.hosts.setIfInBounds place (h.withdraw t.cache.id) } := by
    rw [run_onHost, at_place]
  let journal := m.journal.push
    (.rollingBack (h.recorded t.cache.id).length t.cache.file.location)
  have told : (report (.rollingBack (h.recorded t.cache.id).length t.cache.file.location)).run
      { m with hosts := m.hosts.setIfInBounds place (h.withdraw t.cache.id) } =
      .ok (some ()) { m with
        hosts := m.hosts.setIfInBounds place (h.withdraw t.cache.id), journal } := rfl
  refine ⟨journal, ?_⟩
  unfold rollback
  rw [bind_some picked, bind_some named, bind_some withdrawn, bind_some told]

/-- **A rollback** takes the entries of the cache out of the log, closes the transaction and makes
the cache forget what the entries said. -/
theorem run_rollback {t : Tenant} {r r' : Resolver} (there : m.tenants[number]? = some t)
    (seen : m.resolver? number = some r)
    (cleared : Resolver.clearStrings (r.host.recorded r.cache.id)
      { r with host := r.host.withdraw r.cache.id } = .ok () r') :
    ∃ journal, (rollback t.host number).run m =
      .ok (some ()) (({ m with hosts := m.hosts.setIfInBounds t.host (r.host.withdraw r.cache.id)
                               journal } : Machine).keep number r') := by
  obtain ⟨t', there', cache, host, -⟩ := resolver?_eq_some.mp seen
  obtain rfl := Option.some.inj (there.symm.trans there')
  obtain ⟨journal, forgetting⟩ := rollback_eq host there
  refine ⟨journal, ?_⟩
  rw [forgetting, cache, run_onCache, resolver?_setHost there seen]
  simp only [cleared]

/-- **A rollback undoes exactly what the cache resolved in the transaction.** Take a machine, a
cache on it and the cache's host, which has no entry of the cache in its log, and begin a
transaction of the host. After any actions on any caches of the machine, none of which stopped with
a fault, rolling back succeeds. It takes the transaction's flag from the host and leaves the others,
and it leaves in the log exactly the entries of other caches, in their order. Each slot that a
string of the cache was stored in since the beginning is as in a new cache; the other slots of
strings and all the rest of the cache are as they were just before the rollback, and so are all
other caches and hosts. -/
theorem rollback_undoes {m₀ m₁ m₂ : Machine} {t : Tenant} {r₀ : Resolver}
    {actions : List (Nat × Action)} (numbered : m₀.Numbered)
    (there : m₀.tenants[number]? = some t) (seen : m₀.resolver? number = some r₀)
    (unlogged : r₀.host.recorded r₀.cache.id = [])
    (opened : (onHost t.host Host.begin).run m₀ = .ok (some ()) m₁)
    (ran : (performAll actions).run m₁ = .ok (some ()) m₂) :
    ∃ r m₃ r', m₂.resolver? number = some r ∧ m₃.resolver? number = some r' ∧
      (rollback t.host number).run m₂ = .ok (some ()) m₃ ∧
      r.host.flags.transaction = true ∧
      r'.host.flags = { r.host.flags with transaction := false } ∧
      r'.host.log = r.host.log.filter (·.1 ≠ r.cache.id) ∧
      (∀ index payload, (number, Action.set .string index payload) ∈ actions →
        ∃ slot, r.slot .string index = .ok slot ∧
          r'.cache.strings.entries[slot]? = some (.vacant slot)) ∧
      (∀ slot : Nat, (∀ index payload, (number, Action.set .string index payload) ∈ actions →
          r.slot .string index ≠ .ok slot) →
        r'.cache.strings.entries[slot]? = r.cache.strings.entries[slot]?) ∧
      r'.cache = { r.cache with strings := r'.cache.strings } ∧
      (∀ other, other ≠ number → m₃.tenants[other]? = m₂.tenants[other]?) ∧
      (∀ other, other ≠ t.host → m₃.hosts[other]? = m₂.hosts[other]?) := by
  have begun := InTransaction.begin there seen unlogged opened
  obtain ⟨t₂, r, there₂, same_host, seen₂, inside⟩ := begun.performAll (numbered.onHost opened) ran
  rw [List.append_nil] at inside
  have recorded := inside.recorded
  -- the log has what was resolved, and each of these strings has a slot
  obtain ⟨strings, cleared, entries⟩ := Resolver.clearStrings_ok
    (r := { r with host := r.host.withdraw r.cache.id }) (r.host.recorded r.cache.id)
    inside.compiler (by rw [recorded]; exact inside.slotted)
  rw [← same_host]
  obtain ⟨journal, rolled⟩ := run_rollback there₂ seen₂ cleared
  let mid : Machine :=
    { m₂ with hosts := m₂.hosts.setIfInBounds t₂.host (r.host.withdraw r.cache.id), journal }
  have tenant : mid.tenants[number]? = some t₂ := there₂
  obtain ⟨dirty, seen₃⟩ := resolver?_keep
    (({ r with host := r.host.withdraw r.cache.id } : Resolver).withStrings strings) tenant
    (resolver?_setHost there₂ seen₂ (r.host.withdraw r.cache.id) journal) tenant
  rw [if_pos rfl, if_pos rfl] at seen₃
  refine ⟨r, _, _, seen₂, seen₃, rolled, inside.transaction, rfl, rfl, ?_, ?_, rfl, ?_, ?_⟩
  · intro index payload mem
    have mem := mem_resolvedIn.mpr ⟨payload, mem⟩
    obtain ⟨slot, at_slot⟩ := inside.slotted index mem
    refine ⟨slot, at_slot, (entries slot).trans ?_⟩
    rw [recorded]
    exact inside.forgotten_written mem at_slot
  · intro slot untouched
    refine (entries slot).trans ?_
    rw [recorded]
    refine inside.forgotten_other fun index mem => ?_
    obtain ⟨payload, mem⟩ := mem_resolvedIn.mp mem
    exact untouched index payload mem
  · intro other ne
    rw [tenants_keep tenant, if_neg ne.symm]
  · intro other ne
    rw [hosts_keep tenant, if_neg ne.symm]
    show (m₂.hosts.setIfInBounds t₂.host _)[other]? = _
    rw [Array.getElem?_setIfInBounds, if_neg ne.symm]

/-- A new cache of four strings and two slots for them. -/
def fourStrings (number : Nat) : Cache where
  id := ⟨number⟩
  file := { location := "core.jar", strings := 4 }
  settings := { string := 2 }
  location := .null
  strings := .fresh 2
  types := .fresh 0
  methodTypes := .fresh 0
  fields := .fresh 0
  methods := .fresh 0
  callSites := .fresh 0
  overlay := .ofSize 4

/-- Two such caches that share the compiler as their host. -/
def twoCaches : Machine where
  hosts := #[.ofCompiler]
  tenants := #[⟨fourStrings 1, 0, none⟩, ⟨fourStrings 2, 0, none⟩]
  nextId := 3

/-- The first cache resolves a string and then another that evicts it; in between the second cache
resolves one. -/
def evicting : List (Nat × Action) :=
  [(0, .set .string 0 ⟨8⟩), (1, .set .string 1 ⟨8⟩), (0, .set .string 2 ⟨16⟩)]

/-- Whether an operation ended with an answer. -/
def succeeds (operation : Operation Unit) (m : Machine) : Bool :=
  match operation.run m with
  | .ok (some _) _ => true
  | _ => false

theorem of_succeeds {operation : Operation Unit} (done : succeeds operation m = true) :
    ∃ m', operation.run m = .ok (some ()) m' := by
  unfold succeeds at done
  split at done
  · exact ⟨_, ‹_›⟩
  · cases done

theorem rollback_undoes_evicting :
    ∃ m₁ m₂ r m₃ r', (onHost 0 Host.begin).run twoCaches = .ok (some ()) m₁ ∧
      (performAll evicting).run m₁ = .ok (some ()) m₂ ∧
      m₂.resolver? 0 = some r ∧ (rollback 0 0).run m₂ = .ok (some ()) m₃ ∧
      m₃.resolver? 0 = some r' ∧ r'.host.log = r.host.log.filter (·.1 ≠ r.cache.id) ∧
      ∃ slot, r.slot .string 0 = .ok slot ∧
        r'.cache.strings.entries[slot]? = some (.vacant slot) := by
  have numbered : twoCaches.Numbered := by
    have first := Numbered.push (m := { hosts := #[.ofCompiler] }) ⟨by simp, by simp⟩
      (c := fourStrings 1) rfl 0 none #[]
    exact first.push (c := fourStrings 2) rfl 0 none #[]
  obtain ⟨m₁, opened⟩ : ∃ m₁, (onHost 0 Host.begin).run twoCaches = .ok (some ()) m₁ := ⟨_, rfl⟩
  obtain ⟨m₂, ran⟩ : ∃ m₂, (performAll evicting).run m₁ = .ok (some ()) m₂ := by
    cases opened
    exact of_succeeds (by decide +kernel)
  have there : twoCaches.tenants[0]? = some ⟨fourStrings 1, 0, none⟩ := rfl
  have seen : twoCaches.resolver? 0 = some { cache := fourStrings 1, host := .ofCompiler } := rfl
  obtain ⟨r, m₃, r', seen₂, seen₃, rolled, -, -, log, emptied, -⟩ :=
    rollback_undoes numbered there seen rfl opened ran
  exact ⟨m₁, m₂, r, m₃, r', opened, ran, seen₂, rolled, seen₃, log,
    emptied 0 ⟨8⟩ List.mem_cons_self⟩

end Machine

end ResolutionCache
