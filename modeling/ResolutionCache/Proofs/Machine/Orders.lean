import ResolutionCache.Proofs.Machine.Faults
import ResolutionCache.Proofs.Resolver.Forgetting

/-!
# The order of a log

A rollback is told by a log what a cache is to forget. Each entry empties a slot only while the slot
belongs to the entry's index, so an index that comes later, or again, finds its own slot as it would
have found it first (`Cache.cleared_congr`). And the entries of one cache say nothing about another,
nor about what a rollback leaves of the log. So it makes no difference in which order the entries of
a cache are logged, nor in which order two caches are rolled back
(`Machine.rollback_ignores_order`).

Everything that a rollback leaves is in one equation (`Machine.leave_rollback`), also if it stopped.
-/

namespace ResolutionCache

namespace Host

variable {h : Host} {id other : CacheId} {index : UInt32}

theorem mem_recorded : index ∈ h.recorded id ↔ (id, index) ∈ h.log := by
  simp only [recorded, List.mem_map, List.mem_filter, decide_eq_true_eq, Prod.exists]
  constructor
  · rintro ⟨id', index', ⟨mem, rfl⟩, rfl⟩
    exact mem
  · exact fun mem => ⟨id, index, ⟨mem, rfl⟩, rfl⟩

/-- Two caches are withdrawn together, whichever is the first. -/
theorem withdraw_withdraw (h : Host) (id other : CacheId) :
    (h.withdraw id).withdraw other =
      { flags := { h.flags with transaction := false }
        log := h.log.filter fun entry => entry.1 ≠ id ∧ entry.1 ≠ other } := by
  simp [withdraw, close, List.filter_filter, Bool.and_comm]

theorem withdraw_comm (h : Host) (id other : CacheId) :
    (h.withdraw id).withdraw other = (h.withdraw other).withdraw id := by
  simp only [withdraw_withdraw, and_comm]

theorem withdraw_self (h : Host) (id : CacheId) : (h.withdraw id).withdraw id = h.withdraw id := by
  simp [withdraw, close, List.filter_filter]

end Host

namespace Machine

open Attempt

variable {m m' : Machine} {number other host : Nat} {t u : Tenant} {r q : Resolver}

/-! ### Reachable machines -/

theorem nextId_of_still (same : m.still = m'.still) : m.nextId = m'.nextId :=
  (congrArg Machine.nextId same :)

/-- No deed creates a cache. -/
theorem Deed.leave_nextId (deed : Deed) (m : Machine) : (deed.leave m).nextId = m.nextId := by
  have cached {α : Type} (number : Nat) (action : Attempt Resolver α) :
      Keeps Machine.nextId (onCache number action).run := by
    intro m
    rw [left_onCache]
    cases m.resolver? number with
    | none => rfl
    | some r =>
      simp only [keep]
      cases m.tenants[number]? <;> rfl
  cases deed with
  | step step =>
    cases step with
    | act number action =>
      obtain ⟨journal, performed⟩ := left_perform number action m
      exact (congrArg Machine.nextId performed).trans (cached number action.run m)
    | begin place => exact keeps_onHost (fun _ _ => rfl) place Host.begin m
    | commit place => exact keeps_onHost (fun _ _ => rfl) place (fun h => .ok h.commit) m
    | rollback place number =>
      exact keeps_rollback (fun _ _ => rfl) (fun _ _ => rfl) (fun _ => cached number _) place m
  | takeDirty dirty =>
    have picked : Keeps Machine.nextId (pick Machine.dirtySets dirty).run := fun _ => rfl
    have taken : Keeps Machine.nextId (Machine.takeDirty dirty).run :=
      keeps_then picked fun s => keeps_then (fun _ => rfl) fun _ => keeps_pure _
    exact keeps_then taken (fun _ => keeps_pure _) m
  | copyTable | copyCallSites | copyOverlay =>
    refine nextId_of_still (still_leave (fun _ same => ?_) (fun _ same => ?_) m) <;> cases same

/-- Identities stay apart while no cache is given another. -/
theorem Numbered.congr (numbered : m.Numbered) (same : m'.identity? = m.identity?)
    (next : m'.nextId = m.nextId) : m'.Numbered := by
  have before {i : Nat} {t : Tenant} (there : m'.tenants[i]? = some t) :
      ∃ t', m.tenants[i]? = some t' ∧ t'.cache.id = t.cache.id := by
    have id := congrFun same i
    rw [identity?, there] at id
    exact Option.map_eq_some_iff.mp id.symm
  constructor
  · intro i t there
    obtain ⟨t', there', same⟩ := before there
    rw [next, ← same]
    exact numbered.below there'
  · intro i j t u t_there u_there one
    obtain ⟨t', there, same⟩ := before t_there
    obtain ⟨u', there', same'⟩ := before u_there
    exact numbered.distinct there there' (by rw [same, same', one])

/-- **The machines there can be,** as far as caches go. Caches are created one after another, and in
between there are deeds, each of which may end or stop. Nothing is said of what becomes of hosts,
the heap, the sets and the journal. -/
inductive Reachable : Machine → Prop where
  | empty : Reachable {}
  | added {m m' : Machine} {file : SymbolFile} {location : Ref} {overrides : Overrides} {host : Nat}
    {dirty : Option Nat} {outcome : Except BadCapacity (Nat × CacheId)} : Reachable m →
    (addCache file location overrides host dirty).run m = .ok (some outcome) m' → Reachable m'
  | left {m : Machine} (deed : Deed) : Reachable m → Reachable (deed.leave m)
  | elsewhere {m m' : Machine} : Reachable m → m'.tenants = m.tenants → m'.nextId = m.nextId →
    Reachable m'

theorem Reachable.leaveDeeds (reachable : m.Reachable) (deeds : List Deed) :
    (leaveDeeds deeds m).Reachable := by
  induction deeds generalizing m with
  | nil => exact reachable
  | cons deed rest ih => exact ih (reachable.left deed)

/-- A new cache on a host that is there. -/
theorem Reachable.push (reachable : m.Reachable) {file : SymbolFile} {location : Ref}
    {overrides : Overrides} {c : Cache} {host : Nat} {h : Host}
    (created : Cache.create ⟨m.nextId⟩ file location overrides = .ok c)
    (at_host : m.hosts[host]? = some h) :
    Reachable { m with
      tenants := m.tenants.push { cache := c, host, dirty := none }, nextId := m.nextId + 1 } := by
  have picked : (pick Machine.hosts host).run m = .ok (some h) m := by rw [run_pick, at_host]
  have ran : (addCache file location overrides host none).run m =
      .ok (some (.ok (m.tenants.size, ⟨m.nextId⟩))) { m with
        tenants := m.tenants.push { cache := c, host, dirty := none }, nextId := m.nextId + 1
        journal := m.journal.push (.ofCreated c) } := by
    unfold addCache
    rw [bind_some picked]
    have asked : (MonadState.get : Operation Machine).run m = .ok (some m) m := rfl
    show ((MonadState.get : Operation Machine) >>= _).run m = _
    rw [bind_some asked]
    simp only [created]
    rfl
  exact (reachable.added ran).elsewhere rfl rfl

theorem Reachable.numbered (reachable : m.Reachable) : m.Numbered := by
  induction reachable with
  | empty => exact numbered_empty
  | added _ ran ih => exact ih.addCache ran
  | left deed _ ih => exact ih.congr (deed.leave_identity? _) (deed.leave_nextId _)
  | elsewhere _ tenants next ih => exact ih.congr (by unfold identity?; rw [tenants]) next

theorem Reachable.laidOut (reachable : m.Reachable) (there : m.tenants[number]? = some t) :
    t.cache.LaidOut := by
  induction reachable generalizing t with
  | empty => simp at there
  | @added m _ _ _ _ host dirty _ _ ran ih =>
    rcases of_addCache ran with rfl | ⟨c, journal, created, rfl⟩
    · exact ih there
    · change (m.tenants.push { cache := c, host, dirty })[number]? = _ at there
      rw [Array.getElem?_push] at there
      split at there
      · cases there
        exact Cache.laidOut_of_create_ok created
      · exact ih there
  | @left m deed _ ih =>
    -- no deed puts a cache where there was none
    have named := congrFun (deed.leave_identity? m) number
    rw [identity?, there] at named
    obtain ⟨t', before, -⟩ := Option.map_eq_some_iff.mp named.symm
    obtain ⟨c', after, laidOut, -⟩ := leaveDeeds_laidOut [deed] before (ih before)
    obtain rfl := Option.some.inj (after.symm.trans there)
    exact laidOut
  | elsewhere _ tenants _ ih => exact ih (tenants ▸ there)

/-- Two caches on one host find it the same. -/
theorem host_eq_of_shared (there : m.tenants[number]? = some t)
    (seen : m.resolver? number = some r) (there' : m.tenants[other]? = some u)
    (seen' : m.resolver? other = some q) (shared : u.host = t.host) : q.host = r.host := by
  obtain ⟨t', there_t, -, at_host, -⟩ := resolver?_eq_some.mp seen
  obtain ⟨u', there_u, -, at_host', -⟩ := resolver?_eq_some.mp seen'
  obtain rfl := Option.some.inj (there.symm.trans there_t)
  obtain rfl := Option.some.inj (there'.symm.trans there_u)
  rw [shared, at_host] at at_host'
  exact (Option.some.inj at_host').symm

/-! ### What a rollback leaves -/

/-- The machine once a cache is rolled back on its host. -/
def unwound (m : Machine) (number : Nat) (t : Tenant) (r : Resolver) (journal : Array Event) :
    Machine :=
  { m with
    tenants := m.tenants.setIfInBounds number
      { t with cache := r.cache.cleared (r.host.recorded r.cache.id) }
    hosts := m.hosts.setIfInBounds t.host (r.host.withdraw r.cache.id)
    journal }

/-- **What a rollback leaves,** whether the strings could be forgotten or not. -/
theorem leave_rollback (there : m.tenants[number]? = some t) (home : t.host = host)
    (seen : m.resolver? number = some r) (compiler : r.host.flags.compiler = true) :
    ∃ journal, (Step.rollback host number).leave m = m.unwound number t r journal := by
  subst home
  obtain ⟨t', there', cache, at_host, -⟩ := resolver?_eq_some.mp seen
  obtain rfl := Option.some.inj (there.symm.trans there')
  obtain ⟨journal, rolled⟩ := rollback_eq at_host there
  have withdrawn := resolver?_setHost there seen (r.host.withdraw r.cache.id) journal
  have forgetting := Resolver.left_clearStrings
    (r := { r with host := r.host.withdraw r.cache.id }) compiler (r.host.recorded r.cache.id)
  refine ⟨journal, ?_⟩
  show left ((rollback t.host number).run m) = _
  rw [rolled, cache, left_onCache, withdrawn]
  simp only [forgetting]
  exact keep_cache (m := { m with
    hosts := m.hosts.setIfInBounds t.host (r.host.withdraw r.cache.id), journal }) there withdrawn _

/-- **A rollback ends** if what is logged has slots. -/
theorem run_rollback_of_slotted (there : m.tenants[number]? = some t) (home : t.host = host)
    (seen : m.resolver? number = some r) (compiler : r.host.flags.compiler = true)
    (slotted : ∀ index ∈ r.host.recorded r.cache.id, ∃ slot, r.slot .string index = .ok slot) :
    (rollback host number).run m = .ok (some ()) ((Step.rollback host number).leave m) := by
  subst home
  obtain ⟨table, cleared, -⟩ := Resolver.clearStrings_ok
    (r := { r with host := r.host.withdraw r.cache.id }) _ compiler slotted
  obtain ⟨journal, ran⟩ := run_rollback there seen cleared
  show _ = EStateM.Result.ok (some ()) (left ((rollback t.host number).run m))
  rw [ran]
  rfl

/-- What is logged has slots if it is strings of the file. -/
theorem slotted_of_range (laidOut : r.cache.LaidOut)
    (range : ∀ index, (r.cache.id, index) ∈ r.host.log → index < r.cache.file.strings) :
    ∀ index ∈ r.host.recorded r.cache.id, ∃ slot, r.slot .string index = .ok slot :=
  fun index mem => ⟨_, r.slot_of_laidOut laidOut nofun (range index (Host.mem_recorded.mp mem))⟩

theorem tenants_unwound (there : m.tenants[number]? = some t) (journal : Array Event)
    (place : Nat) :
    (m.unwound number t r journal).tenants[place]? =
      if number = place then
        some { t with cache := r.cache.cleared (r.host.recorded r.cache.id) }
      else m.tenants[place]? := by
  obtain ⟨held, -⟩ := Array.getElem?_eq_some_iff.mp there
  show (m.tenants.setIfInBounds number _)[place]? = _
  rw [Array.getElem?_setIfInBounds, if_pos held]

/-- Seen from a cache on the same host, the cache that was rolled back or another, a rollback
withdraws what the host had logged. -/
theorem resolver?_unwound (there : m.tenants[number]? = some t)
    (there' : m.tenants[other]? = some u) (seen : m.resolver? other = some q)
    (shared : u.host = t.host) (journal : Array Event) :
    (m.unwound number t r journal).resolver? other =
      some { q with
        cache := if number = other then r.cache.cleared (r.host.recorded r.cache.id) else q.cache
        host := r.host.withdraw r.cache.id } := by
  obtain ⟨u', there'', cache, at_host, dirty⟩ := resolver?_eq_some.mp seen
  obtain rfl := Option.some.inj (there'.symm.trans there'')
  have host : (m.unwound number t r journal).hosts[u.host]? =
      some (r.host.withdraw r.cache.id) := by
    obtain ⟨held, -⟩ := Array.getElem?_eq_some_iff.mp at_host
    rw [shared] at held ⊢
    exact Array.getElem?_setIfInBounds_self_of_lt held
  by_cases same : number = other
  · subst same
    obtain rfl := Option.some.inj (there.symm.trans there')
    refine resolver?_eq_some.mpr ⟨_, (tenants_unwound there journal _).trans (if_pos rfl), ?_, host,
      dirty⟩
    rw [if_pos rfl]
  · refine resolver?_eq_some.mpr ⟨u, ?_, ?_, host, dirty⟩
    · rw [tenants_unwound there, if_neg same, there']
    · rw [if_neg same]
      exact cache

/-! ### One rollback after another -/

/-- **A second rollback of the cache** finds nothing to forget, and ends. -/
theorem rollback_again (there : m.tenants[number]? = some t) (home : t.host = host)
    (seen : m.resolver? number = some r) (compiler : r.host.flags.compiler = true) :
    ∃ m'', (rollback host number).run ((Step.rollback host number).leave m) = .ok (some ()) m'' ∧
      m''.still = ((Step.rollback host number).leave m).still := by
  obtain ⟨journal, first⟩ := leave_rollback there home seen compiler
  have there' := (tenants_unwound (r := r) there journal number).trans (if_pos rfl)
  have seen' := resolver?_unwound (r := r) there there seen rfl journal
  rw [if_pos rfl] at seen'
  have nothing : (r.host.withdraw r.cache.id).recorded
      (r.cache.cleared (r.host.recorded r.cache.id)).id = [] := by
    rw [Cache.id_cleared, Host.recorded_withdraw_self]
  obtain ⟨journal', second⟩ := leave_rollback there' home seen' compiler
  rw [first]
  refine ⟨_, run_rollback_of_slotted there' home seen' compiler (by simp [nothing]), ?_⟩
  rw [second]
  simp only [unwound, still, Cache.id_cleared, Host.recorded_withdraw_self, Host.withdraw_self,
    Array.setIfInBounds_setIfInBounds]
  rfl

/-- The machine once two caches are rolled back on their host, but for its journal. -/
def unwoundBoth (m : Machine) (number other : Nat) (t u : Tenant) (r q : Resolver) : Machine :=
  { m with
    tenants := (m.tenants.setIfInBounds number
      { t with cache := r.cache.cleared (r.host.recorded r.cache.id) }).setIfInBounds other
      { u with cache := q.cache.cleared (q.host.recorded q.cache.id) }
    hosts := m.hosts.setIfInBounds t.host ((r.host.withdraw r.cache.id).withdraw q.cache.id)
    journal := #[] }

theorem unwoundBoth_comm (ne : number ≠ other) (shared : u.host = t.host) (same : q.host = r.host) :
    m.unwoundBoth number other t u r q = m.unwoundBoth other number u t q r := by
  unfold unwoundBoth
  rw [Array.setIfInBounds_comm _ _ ne, shared, same, Host.withdraw_comm]

theorem hosts_unwoundBoth (at_host : m.hosts[t.host]? = some r.host) :
    (m.unwoundBoth number other t u r q).hosts[t.host]? = some
      { flags := { r.host.flags with transaction := false }
        log := r.host.log.filter fun entry => entry.1 ≠ r.cache.id ∧ entry.1 ≠ q.cache.id } := by
  obtain ⟨held, -⟩ := Array.getElem?_eq_some_iff.mp at_host
  show (m.hosts.setIfInBounds t.host _)[t.host]? = _
  rw [Array.getElem?_setIfInBounds_self_of_lt held, Host.withdraw_withdraw]

/-- **Two rollbacks,** the second of which finds in the log what it would have found without the
first. If what is logged for the two has slots, both end. -/
theorem rollback_rollback (ne : number ≠ other) (there : m.tenants[number]? = some t)
    (seen : m.resolver? number = some r) (there' : m.tenants[other]? = some u)
    (seen' : m.resolver? other = some q) (home : t.host = host) (home' : u.host = host)
    (same : q.host = r.host) (apart : q.cache.id ≠ r.cache.id)
    (compiler : r.host.flags.compiler = true) :
    ((Step.rollback host other).leave ((Step.rollback host number).leave m)).still =
        m.unwoundBoth number other t u r q ∧
      ((∀ index ∈ r.host.recorded r.cache.id, ∃ slot, r.slot .string index = .ok slot) →
        (∀ index ∈ q.host.recorded q.cache.id, ∃ slot, q.slot .string index = .ok slot) →
        (do rollback host number; rollback host other : Operation Unit).run m =
          .ok (some ())
            ((Step.rollback host other).leave ((Step.rollback host number).leave m))) := by
  have recorded : (r.host.withdraw r.cache.id).recorded q.cache.id =
      q.host.recorded q.cache.id := by
    rw [Host.recorded_withdraw_of_ne _ apart, same]
  obtain ⟨journal, first⟩ := leave_rollback there home seen compiler
  have there₂ : (m.unwound number t r journal).tenants[other]? = some u := by
    rw [tenants_unwound there, if_neg ne, there']
  have seen₂ := resolver?_unwound (r := r) there there' seen' (home'.trans home.symm) journal
  rw [if_neg ne] at seen₂
  constructor
  · obtain ⟨journal', second⟩ := leave_rollback there₂ home' seen₂ compiler
    rw [first, second]
    simp only [unwound, still, unwoundBoth, home, home', recorded,
      Array.setIfInBounds_setIfInBounds]
  · intro slotted slotted'
    rw [bind_some (run_rollback_of_slotted there home seen compiler slotted), first]
    refine run_rollback_of_slotted there₂ home' seen₂ compiler ?_
    show ∀ index ∈ (r.host.withdraw r.cache.id).recorded q.cache.id, _
    rw [recorded]
    exact slotted'

/-! ### Other logs -/

/-- The machine with another log on one of its hosts. -/
def withLog (m : Machine) (host : Nat) (log : List (CacheId × UInt32)) : Machine :=
  { m with hosts := m.hosts.modify host fun h => { h with log } }

theorem resolver?_withLog (there : m.tenants[number]? = some t)
    (seen : m.resolver? number = some r) (log : List (CacheId × UInt32)) :
    (m.withLog t.host log).resolver? number = some { r with host := { r.host with log } } := by
  obtain ⟨t', there', cache, at_host, dirty⟩ := resolver?_eq_some.mp seen
  obtain rfl := Option.some.inj (there.symm.trans there')
  refine resolver?_eq_some.mpr ⟨t, there, cache, ?_, dirty⟩
  show (m.hosts.modify t.host _)[t.host]? = _
  rw [Array.getElem?_modify, if_pos rfl, at_host]
  rfl

/-- What a log of strings of the file makes a cache forget. -/
theorem run_rollback_withLog (there : m.tenants[number]? = some t)
    (seen : m.resolver? number = some r) (compiler : r.host.flags.compiler = true)
    (laidOut : r.cache.LaidOut) {log : List (CacheId × UInt32)}
    (range : ∀ index, (r.cache.id, index) ∈ log → index < r.cache.file.strings) :
    ∃ m', (rollback t.host number).run (m.withLog t.host log) = .ok (some ()) m' ∧
      m'.tenants[number]? = some { t with
        cache := r.cache.cleared (({ r.host with log } : Host).recorded r.cache.id) } := by
  have there' : (m.withLog t.host log).tenants[number]? = some t := there
  have seen' := resolver?_withLog there seen log
  obtain ⟨journal, left⟩ := leave_rollback there' rfl seen' compiler
  refine ⟨_, run_rollback_of_slotted there' rfl seen' compiler (slotted_of_range laidOut range), ?_⟩
  rw [left, tenants_unwound there', if_pos rfl]

/-- **A rollback ignores the order of the log,** and rollbacks may come in any order. Take a cache
of a reachable machine whose host is the compiler.
- With any two logs of the host that have the same strings of the cache, all of them the file's, a
  rollback ends and leaves the cache in the same state. The logs may have these strings in any
  order, repeatedly, and among any entries of other caches. The slots that belong to one of the
  strings are as in a new cache, and all the rest of the cache is as it was.
- Rolling the cache back again right away ends, and changes nothing but the journal.
- With any other cache on the host it makes no difference which of the two is rolled back first: the
  machines that are left differ in their journals at most, also if a rollback stopped. The
  transaction is closed, and the log keeps the entries of neither cache, in their order. If all that
  is logged for the two are strings of their files, then both rollbacks end. -/
theorem rollback_ignores_order (reachable : m.Reachable) (there : m.tenants[number]? = some t)
    (seen : m.resolver? number = some r) (compiler : r.host.flags.compiler = true) :
    (∀ log₁ log₂ : List (CacheId × UInt32),
      (∀ index, (r.cache.id, index) ∈ log₁ → index < r.cache.file.strings) →
      (∀ index, (r.cache.id, index) ∈ log₁ ↔ (r.cache.id, index) ∈ log₂) →
      ∃ m₁ m₂ table, (rollback t.host number).run (m.withLog t.host log₁) = .ok (some ()) m₁ ∧
        (rollback t.host number).run (m.withLog t.host log₂) = .ok (some ()) m₂ ∧
        m₁.tenants[number]? = some { t with cache := { r.cache with strings := table } } ∧
        m₂.tenants[number]? = some { t with cache := { r.cache with strings := table } } ∧
        ∀ slot : Nat, table.entries[slot]? = r.cache.strings.entries[slot]?.map fun e =>
          if (r.cache.id, e.owner) ∈ log₁ ∧ slotOf e.owner r.cache.settings.string = slot then
            .vacant slot
          else e) ∧
    (∃ m'', (rollback t.host number).run ((Step.rollback t.host number).leave m) =
        .ok (some ()) m'' ∧
      m''.still = ((Step.rollback t.host number).leave m).still) ∧
    ∀ other u q, other ≠ number → m.tenants[other]? = some u → u.host = t.host →
      m.resolver? other = some q →
      let one := (Step.rollback t.host other).leave ((Step.rollback t.host number).leave m)
      let two := (Step.rollback t.host number).leave ((Step.rollback t.host other).leave m)
      one.still = two.still ∧
      one.hosts[t.host]? = some
        { flags := { r.host.flags with transaction := false }
          log := r.host.log.filter fun entry => entry.1 ≠ r.cache.id ∧ entry.1 ≠ q.cache.id } ∧
      ((∀ index, (r.cache.id, index) ∈ r.host.log → index < r.cache.file.strings) →
        (∀ index, (q.cache.id, index) ∈ r.host.log → index < q.cache.file.strings) →
        (do rollback t.host number; rollback t.host other : Operation Unit).run m =
            .ok (some ()) one ∧
          (do rollback t.host other; rollback t.host number : Operation Unit).run m =
            .ok (some ()) two) := by
  obtain ⟨t', there_t, cache, at_host, -⟩ := resolver?_eq_some.mp seen
  obtain rfl := Option.some.inj (there.symm.trans there_t)
  have laidOut : r.cache.LaidOut := cache ▸ reachable.laidOut there
  refine ⟨fun log₁ log₂ range same => ?_, rollback_again there rfl seen compiler, ?_⟩
  · obtain ⟨m₁, ran₁, left₁⟩ := run_rollback_withLog there seen compiler laidOut range
    obtain ⟨m₂, ran₂, left₂⟩ := run_rollback_withLog there seen compiler laidOut
      fun index mem => range index ((same index).mpr mem)
    have recorded (index : UInt32) (log : List (CacheId × UInt32)) :
        index ∈ ({ r.host with log } : Host).recorded r.cache.id ↔ (r.cache.id, index) ∈ log :=
      Host.mem_recorded
    have all (index : UInt32) (mem : index ∈ ({ r.host with log := log₁ } : Host).recorded
        r.cache.id) : index < r.cache.file.strings := range index ((recorded index log₁).mp mem)
    obtain ⟨table, cleared, entries⟩ := Cache.exists_cleared_eq laidOut all
    rw [← Cache.cleared_congr laidOut all fun index => by rw [recorded, recorded, same]] at left₂
    rw [cleared] at left₁ left₂
    refine ⟨m₁, m₂, table, ran₁, ran₂, left₁, left₂, fun slot => ?_⟩
    simpa only [recorded] using entries slot
  · intro other u q ne there' home seen' one two
    obtain ⟨u', there_u, cache', -⟩ := resolver?_eq_some.mp seen'
    obtain rfl := Option.some.inj (there'.symm.trans there_u)
    have shared := host_eq_of_shared there seen there' seen' home
    have apart : q.cache.id ≠ r.cache.id := by
      rw [← cache, ← cache']
      exact fun same => ne (reachable.numbered.distinct there' there same)
    obtain ⟨first, run_first⟩ := rollback_rollback ne.symm there seen there' seen' rfl home shared
      apart compiler
    obtain ⟨second, run_second⟩ := rollback_rollback ne there' seen' there seen home rfl shared.symm
      apart.symm (shared ▸ compiler)
    refine ⟨?_, ?_, fun range range' => ?_⟩
    · rw [first, second, unwoundBoth_comm ne.symm home shared]
    · show one.still.hosts[t.host]? = _
      rw [first, hosts_unwoundBoth at_host]
    · have slotted := slotted_of_range laidOut range
      have slotted' := slotted_of_range (r := q) (cache' ▸ reachable.laidOut there')
        (shared ▸ range')
      exact ⟨run_first slotted slotted', run_second slotted' slotted⟩

/-- The two caches are new ones. -/
theorem reachable_twoCaches : twoCaches.Reachable := by
  have created (number : Nat) : Cache.create ⟨number⟩ { location := "core.jar", strings := 4 } .null
      { string := some 2 } = .ok (fourStrings number) := by rfl
  have hosted : Reachable { hosts := #[.ofCompiler] } := .elsewhere .empty rfl rfl
  exact ((hosted.push (created 1) rfl).push (created 2) rfl).elsewhere rfl rfl

/-- In one transaction both caches resolve a string; the first resolves another that evicts its own,
and then the evicted one again. -/
def twiceLogged : List Deed :=
  [.step (.begin 0), .step (.act 0 (.set .string 0 ⟨8⟩)), .step (.act 1 (.set .string 1 ⟨16⟩)),
    .step (.act 0 (.set .string 2 ⟨24⟩)), .step (.act 0 (.set .string 0 ⟨8⟩))]

/-- The log of the transaction, and another with the same strings of the first cache: the first slot
is emptied by either. And both caches are rolled back in both orders. -/
theorem rollback_ignores_order_twiceLogged :
    let m := leaveDeeds twiceLogged twoCaches
    m.Reachable ∧ ∃ t u r q, m.tenants[0]? = some t ∧ m.resolver? 0 = some r ∧
      m.tenants[1]? = some u ∧ m.resolver? 1 = some q ∧
      r.host.log = [(⟨1⟩, 0), (⟨1⟩, 2), (⟨2⟩, 1), (⟨1⟩, 0)] ∧
      (∃ m₁ m₂ table,
        (rollback 0 0).run (m.withLog 0 [(⟨1⟩, 0), (⟨1⟩, 2), (⟨2⟩, 1), (⟨1⟩, 0)]) =
          .ok (some ()) m₁ ∧
        (rollback 0 0).run (m.withLog 0 [(⟨2⟩, 3), (⟨1⟩, 2), (⟨1⟩, 0)]) = .ok (some ()) m₂ ∧
        m₁.tenants[0]? = some { t with cache := { r.cache with strings := table } } ∧
        m₂.tenants[0]? = some { t with cache := { r.cache with strings := table } } ∧
        table.entries[0]? = some (.vacant 0)) ∧
      ∃ one two, (do rollback 0 0; rollback 0 1 : Operation Unit).run m = .ok (some ()) one ∧
        (do rollback 0 1; rollback 0 0 : Operation Unit).run m = .ok (some ()) two ∧
        one.still = two.still := by
  intro m
  have reachable : m.Reachable := reachable_twoCaches.leaveDeeds twiceLogged
  obtain ⟨r, seen⟩ : ∃ r, m.resolver? 0 = some r := Option.isSome_iff_exists.mp (by decide +kernel)
  obtain ⟨q, seen'⟩ : ∃ q, m.resolver? 1 = some q := Option.isSome_iff_exists.mp (by decide +kernel)
  obtain ⟨⟨c, host, dirty⟩, there, -⟩ := resolver?_eq_some.mp seen
  obtain ⟨u, there', -⟩ := resolver?_eq_some.mp seen'
  have facts : (m.tenants[0]?.map Tenant.host, m.tenants[1]?.map Tenant.host) =
      (some 0, some 0) ∧
      (m.resolver? 0).map (fun r => (r.host.flags.compiler, r.host.log, r.cache.id)) =
        some (true, [(⟨1⟩, 0), (⟨1⟩, 2), (⟨2⟩, 1), (⟨1⟩, 0)], ⟨1⟩) ∧
      (m.resolver? 0).map (fun r => (r.cache.file.strings, r.cache.settings.string,
        r.cache.strings.entries[0]?)) = some (4, 2, some ⟨⟨8⟩, 0⟩) ∧
      (m.resolver? 1).map (fun q => (q.cache.id, q.cache.file.strings)) = some (⟨2⟩, 4) := by
    decide +kernel
  simp only [there, there', seen, seen', Option.map_some, Option.some.injEq, Prod.mk.injEq] at facts
  obtain ⟨⟨rfl, home⟩, ⟨compiler, log, id⟩, ⟨strings, capacity, entry⟩, id', strings'⟩ := facts
  obtain ⟨logs, -, others⟩ := rollback_ignores_order reachable there seen compiler
  rw [id, strings, capacity] at logs
  obtain ⟨m₁, m₂, table, ran₁, ran₂, left₁, left₂, slots⟩ :=
    logs [(⟨1⟩, 0), (⟨1⟩, 2), (⟨2⟩, 1), (⟨1⟩, 0)] [(⟨2⟩, 3), (⟨1⟩, 2), (⟨1⟩, 0)] (by simp) (by simp)
  obtain ⟨same, -, ends⟩ := others 1 u q (by decide) there' home seen'
  rw [id, id', log, strings, strings'] at ends
  obtain ⟨one, two⟩ := ends (by simp) (by simp)
  refine ⟨reachable, _, u, r, q, there, seen, there', seen', log,
    ⟨m₁, m₂, table, ran₁, ran₂, left₁, left₂, ?_⟩, _, _, one, two, same⟩
  rw [slots, entry]
  rfl

end Machine

end ResolutionCache
