import Mathlib.Data.List.Induction
import ResolutionCache.Proofs.Machine.Rollback
import ResolutionCache.Proofs.Resolver.Recorded

/-!
# What rollbacks leave in a log

The transaction and the log of a host are shared by all caches on it, but a rollback is for one
cache: it closes the transaction and takes the entries of that cache out of the log, and it leaves
the entries of the others. They are still there when the next transaction begins, and what ends that
one treats them as its own.

`Machine.log_leftovers` says what is in the log after any steps, whether or not some of them stopped
with a fault, and when the log is empty outside transactions.
-/

namespace ResolutionCache

/-- The log is empty while no transaction is open. -/
def Host.Tidy (h : Host) : Prop := h.flags.transaction = false → h.log = []

namespace Machine

open Attempt

variable {m m' : Machine} {number host place : Nat} {h h' : Host} {id : CacheId} {index : UInt32}
  {α β : Type}

/-! ### Identities -/

/-- The identity of the cache of a number. -/
def identity? (m : Machine) (number : Nat) : Option CacheId :=
  m.tenants[number]?.map fun t => t.cache.id

theorem identity?_keep {r r' : Resolver} (found : m.resolver? number = some r)
    (same : r'.cache.id = r.cache.id) : (m.keep number r').identity? = m.identity? := by
  obtain ⟨t, there, cache, -⟩ := resolver?_eq_some.mp found
  funext other
  unfold identity?
  rw [tenants_keep there]
  split
  · subst ‹number = other›
    rw [there]
    simp [same, cache]
  · rfl

theorem left_onCache (number : Nat) (action : Attempt Resolver α) (m : Machine) :
    left ((onCache number action).run m) =
      match m.resolver? number with
      | none => m
      | some r => m.keep number (left (action r)) := by
  rw [run_onCache]
  cases m.resolver? number with
  | none => rfl
  | some r =>
    simp only
    cases action r <;> rfl

/-- What keeps the identity of a cache keeps those of all. -/
theorem keeps_onCache {action : Attempt Resolver α}
    (keeps : ∀ r, (left (action r)).cache.id = r.cache.id) (number : Nat) :
    Keeps identity? (onCache number action).run := by
  intro m
  rw [left_onCache]
  cases found : m.resolver? number with
  | none => rfl
  | some r => exact identity?_keep found (keeps r)

section

variable {γ : Type} {part : Machine → γ}

/-- What is done to a host keeps every part that has nothing to do with hosts. -/
theorem keeps_onHost (blind : ∀ m hosts, part { m with hosts } = part m) (place : Nat)
    (action : Host → Except Fault Host) : Keeps part (onHost place action).run := by
  intro m
  rw [run_onHost]
  cases m.hosts[place]? with
  | none => rfl
  | some h =>
    simp only
    cases action h with
    | ok h' => exact blind m _
    | error f => rfl

/-- Looking a cache up changes nothing. -/
theorem keeps_cache (number : Nat) : Keeps part (cache number).run := by
  intro m
  rw [run_cache]
  cases m.tenants[number]? <;> rfl

theorem keeps_then {action : Operation α} {next : α → Operation β}
    (first : Keeps part action.run) (rest : ∀ a, Keeps part (next a).run) :
    Keeps part (action >>= next).run := by
  rw [OptionT.run_bind]
  refine first.bind fun found => ?_
  cases found with
  | none => exact keeps_pure _
  | some a => exact rest a

/-- A rollback keeps every part that has nothing to do with hosts and that forgetting strings keeps.
-/
theorem keeps_rollback (blind : ∀ m hosts, part { m with hosts } = part m)
    (deaf : ∀ m journal, part { m with journal } = part m) {number : Nat}
    (forgets : ∀ indices, Keeps part (onCache number (Resolver.clearStrings indices)).run)
    (place : Nat) : Keeps part (rollback place number).run := by
  have picking : Keeps part (pick Machine.hosts place).run := fun _ => rfl
  refine keeps_then picking fun h => ?_
  refine keeps_then (keeps_cache number) fun c => ?_
  refine keeps_then (keeps_onHost blind place _) fun _ => ?_
  exact keeps_then (fun m => deaf m _) fun _ => forgets _

end

/-! ### Hosts -/

/-- The host of a cache is as its resolver left it; the other hosts are as they were. -/
theorem hosts_keep_eq {r r' : Resolver} {t : Tenant} (there : m.tenants[number]? = some t)
    (found : m.resolver? number = some r) (place : Nat) :
    (m.keep number r').hosts[place]? =
      if t.host = place then some r'.host else m.hosts[place]? := by
  obtain ⟨t', there', -, host, -⟩ := resolver?_eq_some.mp found
  obtain rfl := Option.some.inj (there.symm.trans there')
  rw [hosts_keep there]
  split
  · subst ‹t.host = place›
    rw [host]
    rfl
  · rfl

/-- What follows an operation and changes the journal alone leaves what the operation left. -/
theorem left_then {action : Operation α} {next : α → Operation β}
    (quiet : ∀ a mid, ∃ journal, left ((next a).run mid) = { mid with journal }) (m : Machine) :
    ∃ journal, left ((action >>= next).run m) = { left (action.run m) with journal } := by
  rw [OptionT.run_bind, Option.elimM]
  cases ran : action.run m with
  | error e mid =>
    rw [bind_error ran]
    exact ⟨mid.journal, rfl⟩
  | ok found mid =>
    rw [bind_ok ran]
    cases found with
    | none => exact ⟨mid.journal, rfl⟩
    | some a => exact quiet a mid

/-- Looking a cache up changes nothing, and telling of it changes the journal alone. -/
theorem left_tell (number : Nat) (event : Cache → Event) (m : Machine) :
    ∃ journal, left ((cache number >>= fun c => report (event c)).run m) = { m with journal } := by
  have told : ∃ journal, left ((cache number >>= fun c => report (event c)).run m) =
      { left ((cache number).run m) with journal } :=
    left_then (fun c mid => ⟨mid.journal.push (event c), rfl⟩) m
  rw [run_cache] at told
  cases found : m.tenants[number]? with
  | none => rwa [found] at told
  | some t => rwa [found] at told

/-- **What carrying out an action leaves,** whether it ended or stopped: what the resolver's
operation leaves, and a longer journal at most. -/
theorem left_perform (number : Nat) (action : Action) (m : Machine) :
    ∃ journal, left ((perform number action).run m) =
      { left ((onCache number action.run).run m) with journal } := by
  cases action with
  | scan withTables v state =>
    -- the scan tells how many roots it changed, after the pass itself
    have ended : ∃ journal, left ((perform number (.scan withTables v state)).run m) =
        { left ((scan number withTables v state).run m) with journal } :=
      left_then (fun _ mid => ⟨mid.journal, rfl⟩) m
    have told : ∃ journal, left ((scan number withTables v state).run m) =
        { left ((onCache number _).run m) with journal } :=
      left_then (fun passed mid => ⟨mid.journal.push (.scanned passed.1 passed.2.1), rfl⟩) m
    obtain ⟨journal, ended⟩ := ended
    obtain ⟨_, told⟩ := told
    refine ⟨journal, ?_⟩
    rw [ended, told, left_onCache, left_onCache]
    rfl
  | offerOverlay => exact left_then (fun _ mid => left_tell number _ mid) m
  | withdrawOverlay => exact left_then (fun _ mid => left_tell number _ mid) m
  | _ => exact ⟨_, rfl⟩

/-- An operation of a cache that keeps its host keeps all hosts. -/
theorem hosts_onCache {action : Attempt Resolver α} (keeps : Keeps Resolver.host action)
    (number : Nat) (m : Machine) (place : Nat) :
    (left ((onCache number action).run m)).hosts[place]? = m.hosts[place]? := by
  rw [left_onCache]
  cases found : m.resolver? number with
  | none => rfl
  | some r =>
    obtain ⟨t, there, -, host, -⟩ := resolver?_eq_some.mp found
    simp only
    rw [hosts_keep_eq there found]
    split
    · subst ‹t.host = place›
      rw [host, keeps r]
    · rfl

/-- **What a change of one host leaves:** that host as the check on it answered, or as it was if the
check failed. -/
theorem hosts_onHost (place : Nat) (action : Host → Except Fault Host) (m : Machine) (other : Nat) :
    (left ((onHost place action).run m)).hosts[other]? =
      if place = other then m.hosts[other]?.map fun h => (action h).toOption.getD h
      else m.hosts[other]? := by
  rw [run_onHost]
  by_cases same : place = other
  · subst same
    rw [if_pos rfl]
    cases at_place : m.hosts[place]? with
    | none => exact at_place
    | some h =>
      obtain ⟨held, -⟩ := Array.getElem?_eq_some_iff.mp at_place
      cases done : action h with
      | error f =>
        rw [Option.map_some, done]
        simp only [done]
        exact at_place
      | ok h' =>
        rw [Option.map_some, done]
        simp only [done]
        exact Array.getElem?_setIfInBounds_self_of_lt held
  · rw [if_neg same]
    cases m.hosts[place]? with
    | none => rfl
    | some h =>
      simp only
      cases action h with
      | error f => rfl
      | ok h' => exact Array.getElem?_setIfInBounds_ne same

/-- A rollback on a host or of a cache that is not there changes nothing. -/
theorem left_rollback_missing (missing : m.hosts[place]? = none ∨ m.tenants[number]? = none) :
    left ((rollback place number).run m) = m := by
  have picked := run_pick Machine.hosts place m
  have named := run_cache number m
  unfold rollback
  rw [OptionT.run_bind, Option.elimM, bind_ok picked]
  cases at_place : m.hosts[place]? with
  | none => rfl
  | some h =>
    rcases missing with gone | gone
    · rw [at_place] at gone
      cases gone
    · rw [gone] at named
      simp only [Option.elim]
      rw [OptionT.run_bind, Option.elimM, bind_ok named]
      rfl

/-- **What a rollback leaves,** whether the strings could be forgotten or not: the host without the
entries of the cache and with its transaction closed, and all other hosts as they were. -/
theorem hosts_rollback (place number : Nat) (m : Machine) (other : Nat) :
    (left ((rollback place number).run m)).hosts[other]? =
      if place = other then
        m.hosts[other]?.map fun h => (m.identity? number).elim h h.withdraw
      else m.hosts[other]? := by
  cases there : m.tenants[number]? with
  | none =>
    rw [left_rollback_missing (.inr there), identity?, there]
    simp
  | some t =>
    cases at_place : m.hosts[place]? with
    | none =>
      rw [left_rollback_missing (.inl at_place)]
      split
      · subst ‹place = other›
        rw [at_place]
        rfl
      · rfl
    | some h =>
      -- forgetting the strings afterwards touches no host
      have forgetting : Keeps Resolver.host (Resolver.clearStrings (h.recorded t.cache.id)) :=
        fun r => congrArg Prod.fst (Resolver.keeps_clearStrings (h.recorded t.cache.id) r)
      obtain ⟨journal, rolled⟩ := rollback_eq at_place there
      rw [rolled, hosts_onCache forgetting]
      obtain ⟨held, -⟩ := Array.getElem?_eq_some_iff.mp at_place
      show (m.hosts.setIfInBounds place _)[other]? = _
      rw [Array.getElem?_setIfInBounds, if_pos held, identity?, there]
      split
      · subst ‹place = other›
        rw [at_place]
        rfl
      · rfl

/-! ### Steps -/

/-- What can happen to a machine: an action on a cache, or the beginning or end of a transaction. -/
inductive Step : Type 1 where
  | act (number : Nat) (action : Action)
  | begin (host : Nat)
  | commit (host : Nat)
  | rollback (host number : Nat)

namespace Step

/-- The step as an operation of the machine. -/
def run : Step → Operation Unit
  | act number action => perform number action
  | begin host => onHost host Host.begin
  | commit host => onHost host fun h => .ok h.commit
  | rollback host number => Machine.rollback host number

/-- The machine that the step leaves, whether it ended or stopped with a fault. -/
def leave (step : Step) (m : Machine) : Machine := left (step.run.run m)

/-- **The step records a string:** it sets a string of a cache of the identity while the host of the
cache has a transaction open, and ends without a fault. -/
def Records (host : Nat) (id : CacheId) (index : UInt32) (m : Machine) (step : Step) : Prop :=
  ∃ number payload t h m', step = act number (.set .string index payload) ∧
    m.tenants[number]? = some t ∧ t.host = host ∧ t.cache.id = id ∧
    m.hosts[host]? = some h ∧ h.flags.transaction = true ∧ step.run.run m = .ok (some ()) m'

/-- The step takes no entry of the identity out of the host's log: it is not a commit, nor a
rollback of a cache of the identity. -/
def Spares (host : Nat) (id : CacheId) (m : Machine) (step : Step) : Prop :=
  step ≠ commit host ∧ ∀ number, step = rollback host number → m.identity? number ≠ some id

variable {step : Step}

/-- No step gives a cache another identity. -/
theorem leave_identity? (step : Step) (m : Machine) :
    (step.leave m).identity? = m.identity? := by
  cases step with
  | act number action =>
    have same (r : Resolver) : (left (action.run r)).cache.id = r.cache.id := by
      rcases Resolver.account_run action r with ⟨index, -, account⟩ | ⟨-, account⟩
      · exact congrArg Prod.snd account
      · exact congrArg Prod.snd account
    obtain ⟨journal, performed⟩ := left_perform number action m
    exact (congrArg identity? performed).trans (keeps_onCache same number m)
  | begin place => exact keeps_onHost (fun _ _ => rfl) place Host.begin m
  | commit place => exact keeps_onHost (fun _ _ => rfl) place (fun h => .ok h.commit) m
  | rollback place number =>
    refine keeps_rollback (fun _ _ => rfl) (fun _ _ => rfl) (fun indices => ?_) place m
    exact keeps_onCache (fun r => congrArg Prod.snd (Resolver.keeps_clearStrings indices r)) number

/-- Actions alone record strings. -/
theorem not_records (other : ∀ number action, step ≠ act number action) (id : CacheId)
    (index : UInt32) : ¬ step.Records host id index m := by
  rintro ⟨number, payload, _, _, _, same, -⟩
  exact other number (.set .string index payload) same

/-- A step records one string at most. -/
theorem Records.unique {id' : CacheId} {index' : UInt32} (recorded : step.Records host id index m)
    (also : step.Records host id' index' m) : id = id' ∧ index = index' := by
  obtain ⟨number, payload, t, _, _, rfl, there, -, rfl, -⟩ := recorded
  obtain ⟨_, _, t', _, _, same, there', -, rfl, -⟩ := also
  cases same
  obtain rfl := Option.some.inj (there.symm.trans there')
  exact ⟨rfl, rfl⟩

/-- A step that records a string takes no entry out. -/
theorem Records.spares (recorded : step.Records host id index m) (other : CacheId) :
    step.Spares host other m := by
  obtain ⟨number, payload, _, _, _, rfl, -⟩ := recorded
  exact ⟨nofun, nofun⟩

/-- An action records a string on the host of its cache, under the identity of its cache. -/
theorem records_act {action : Action} :
    (act number action).Records host id index m ↔
      ∃ t r, m.tenants[number]? = some t ∧ m.resolver? number = some r ∧ t.host = host ∧
        r.cache.id = id ∧ r.Records index action := by
  constructor
  · rintro ⟨_, payload, t, h, m', same, there, rfl, rfl, at_place, inside, ran⟩
    cases same
    have performed : (perform number (.set .string index payload)).run m = .ok (some ()) m' := ran
    obtain ⟨r, r', -, found, done, -⟩ := of_perform performed
    obtain ⟨t', there', cache, at_host, -⟩ := resolver?_eq_some.mp found
    obtain rfl := Option.some.inj (there.symm.trans there')
    obtain rfl := Option.some.inj (at_host.symm.trans at_place)
    exact ⟨t, r, there, found, rfl, by rw [cache], payload, r', rfl, done, inside⟩
  · rintro ⟨t, r, there, found, rfl, rfl, payload, r', rfl, done, inside⟩
    obtain ⟨t', there', cache, at_host, -⟩ := resolver?_eq_some.mp found
    obtain rfl := Option.some.inj (there.symm.trans there')
    refine ⟨number, payload, t, r.host, m.keep number r', rfl, there, rfl, by rw [cache], at_host,
      inside, ?_⟩
    show (onCache number _).run m = _
    rw [run_onCache, found]
    simp only [done]

theorem hosts_leave_act (number : Nat) (action : Action) (m : Machine) (place : Nat) :
    ((act number action).leave m).hosts[place]? =
      match m.resolver? number with
      | none => m.hosts[place]?
      | some r => (m.keep number (left (action.run r))).hosts[place]? := by
  obtain ⟨journal, performed⟩ := left_perform number action m
  show (left ((perform number action).run m)).hosts[place]? = _
  rw [performed, left_onCache]
  cases m.resolver? number <;> rfl

/-- What a step does to a host. -/
inductive Effect (host : Nat) (m : Machine) (step : Step) (h : Host) : Host → Prop where
  | recorded {id : CacheId} {index : UInt32} :
    step.Records host id index m → Effect host m step h (h.record id index)
  | begun {h' : Host} : step = begin host → h.begin = .ok h' → Effect host m step h h'
  | committed : step = commit host → Effect host m step h h.commit
  | rolledBack {number : Nat} {id : CacheId} : step = rollback host number →
    m.identity? number = some id → Effect host m step h (h.withdraw id)
  | none : (∀ id index, ¬ step.Records host id index m) → (∀ id, step.Spares host id m) →
    Effect host m step h h

theorem effect_act {action : Action} (there : m.hosts[host]? = some h) :
    ∃ h', ((act number action).leave m).hosts[host]? = some h' ∧
      (act number action).Effect host m h h' := by
  have spares (id : CacheId) : (act number action).Spares host id m := ⟨nofun, nofun⟩
  rw [hosts_leave_act]
  cases found : m.resolver? number with
  | none =>
    refine ⟨h, there, .none (fun id index recorded => ?_) spares⟩
    obtain ⟨-, r, -, r_found, -⟩ := records_act.mp recorded
    rw [found] at r_found
    cases r_found
  | some r =>
    obtain ⟨t, t_there, -, at_host, -⟩ := resolver?_eq_some.mp found
    simp only
    rw [hosts_keep_eq t_there found]
    by_cases same : t.host = host
    · subst same
      obtain rfl := Option.some.inj (there.symm.trans at_host)
      rw [if_pos rfl]
      refine ⟨_, rfl, ?_⟩
      rcases Resolver.account_run action r with ⟨index, recorded, account⟩ | ⟨quiet, account⟩
      · rw [show (left (action.run r)).host = r.host.record r.cache.id index from
          congrArg Prod.fst account]
        exact .recorded (records_act.mpr ⟨t, r, t_there, found, rfl, rfl, recorded⟩)
      · rw [show (left (action.run r)).host = r.host from congrArg Prod.fst account]
        refine .none (fun id index recorded => ?_) spares
        obtain ⟨-, r', -, r'_found, -, -, recorded⟩ := records_act.mp recorded
        obtain rfl := Option.some.inj (found.symm.trans r'_found)
        exact quiet index recorded
    · rw [if_neg same]
      refine ⟨h, there, .none (fun id index recorded => ?_) spares⟩
      obtain ⟨t', -, t'_there, -, at_place, -⟩ := records_act.mp recorded
      obtain rfl := Option.some.inj (t_there.symm.trans t'_there)
      exact same at_place

/-- **Every step has its effect on a host.** -/
theorem effect (step : Step) (there : m.hosts[host]? = some h) :
    ∃ h', (step.leave m).hosts[host]? = some h' ∧ step.Effect host m h h' := by
  cases step with
  | act number action => exact effect_act there
  | begin place =>
    have after := hosts_onHost place Host.begin m host
    by_cases same : place = host
    · subst same
      rw [if_pos rfl, there, Option.map_some] at after
      refine ⟨_, after, ?_⟩
      cases begun : h.begin with
      | ok h' => exact .begun rfl begun
      | error f => exact .none (not_records nofun) fun _ => ⟨nofun, nofun⟩
    · rw [if_neg same] at after
      exact ⟨h, after.trans there, .none (not_records nofun) fun _ => ⟨nofun, nofun⟩⟩
  | commit place =>
    have after := hosts_onHost place (fun h => .ok h.commit) m host
    by_cases same : place = host
    · subst same
      rw [if_pos rfl, there, Option.map_some] at after
      exact ⟨_, after, .committed rfl⟩
    · rw [if_neg same] at after
      refine ⟨h, after.trans there, .none (not_records nofun) fun _ => ⟨fun here => ?_, nofun⟩⟩
      exact same (Step.commit.inj here)
  | rollback place number =>
    have after := hosts_rollback place number m host
    by_cases same : place = host
    · subst same
      rw [if_pos rfl, there, Option.map_some] at after
      refine ⟨_, after, ?_⟩
      cases named : m.identity? number with
      | none =>
        refine .none (not_records nofun) fun id => ⟨nofun, fun number' here found => ?_⟩
        obtain ⟨-, rfl⟩ := Step.rollback.inj here
        rw [named] at found
        cases found
      | some id => exact .rolledBack rfl named
    · rw [if_neg same] at after
      refine ⟨h, after.trans there, .none (not_records nofun) fun _ => ⟨nofun, fun _ here => ?_⟩⟩
      exact absurd (Step.rollback.inj here).1 same

/-! ### The log after a step -/

/-- Which entries a step spares is a matter of identities. -/
theorem spares_iff (same : m'.identity? = m.identity?) :
    step.Spares host id m' ↔ step.Spares host id m := by
  unfold Spares
  rw [same]

/-- **The entries after a step** are the one that it recorded and those that it spared. -/
theorem Effect.mem_log (effect : step.Effect host m h h') :
    (id, index) ∈ h'.log ↔
      step.Records host id index m ∨ (step.Spares host id m ∧ (id, index) ∈ h.log) := by
  cases effect with
  | @recorded id' index' recorded =>
    have one : step.Records host id index m ↔ id = id' ∧ index = index' := by
      refine ⟨fun also => also.unique recorded, ?_⟩
      rintro ⟨rfl, rfl⟩
      exact recorded
    simp [one, recorded.spares id, Host.record]
  | begun here begun =>
    subst here
    obtain ⟨-, -, rfl⟩ := Host.of_begin_ok begun
    have quiet : ¬ (begin host).Records host id index m := not_records (by simp) id index
    have spares : (begin host).Spares host id m := by simp [Spares]
    simp [quiet, spares]
  | committed here =>
    subst here
    have quiet : ¬ (commit host).Records host id index m := not_records (by simp) id index
    have takes : ¬ (commit host).Spares host id m := fun spares => spares.1 rfl
    simp [quiet, takes, Host.commit, Host.close]
  | @rolledBack number own here named =>
    subst here
    have quiet : ¬ (rollback host number).Records host id index m :=
      not_records (by simp) id index
    have spares : (rollback host number).Spares host id m ↔ ¬ id = own := by
      simp [Spares, named, eq_comm]
    simp [quiet, spares, Host.withdraw, Host.close, and_comm]
  | none quiet spares =>
    simp [quiet, spares]

/-- A rollback on the host finds entries of its own cache alone. -/
def TakesAll (host : Nat) (m : Machine) (h : Host) (step : Step) : Prop :=
  ∀ number id, step = rollback host number → m.identity? number = some id →
    ∀ entry ∈ h.log, entry.1 = id

/-- **When a step leaves the log empty outside transactions,** if it was so before: always, but for
a rollback that leaves the entries of other caches behind. -/
theorem Effect.tidy (effect : step.Effect host m h h') (there : m.hosts[host]? = some h)
    (tidy : h.Tidy) : h'.Tidy ↔ step.TakesAll host m h := by
  cases effect with
  | recorded recorded =>
    obtain ⟨number, payload, t, g, _, rfl, -, -, -, at_host, inside, -⟩ := recorded
    obtain rfl := Option.some.inj (there.symm.trans at_host)
    refine iff_of_true (fun closed => ?_) nofun
    exact absurd (inside.symm.trans closed) nofun
  | begun here begun =>
    subst here
    obtain ⟨-, -, rfl⟩ := Host.of_begin_ok begun
    exact iff_of_true nofun nofun
  | committed here =>
    subst here
    exact iff_of_true (fun _ => rfl) nofun
  | @rolledBack number own here named =>
    subst here
    have emptied : (h.withdraw own).Tidy ↔ ∀ entry ∈ h.log, entry.1 = own := by
      simp [Host.Tidy, Host.withdraw, Host.close]
    rw [emptied]
    constructor
    · intro alone number' id here named'
      obtain ⟨-, rfl⟩ := Step.rollback.inj here
      obtain rfl := Option.some.inj (named.symm.trans named')
      exact alone
    · exact fun takes => takes number own rfl named
  | none quiet spares =>
    refine iff_of_true tidy fun number id here named => ?_
    exact absurd named ((spares id).2 number here)

end Step

/-! ### Runs -/

/-- The machine that steps leave, one after another. -/
def leaveAll (steps : List Step) (m : Machine) : Machine :=
  steps.foldl (fun m step => step.leave m) m

theorem leaveAll_identity? (steps : List Step) (m : Machine) :
    (leaveAll steps m).identity? = m.identity? := by
  induction steps generalizing m with
  | nil => rfl
  | cons step rest ih => exact (ih (step.leave m)).trans (step.leave_identity? m)

/-- A host stays where it is. -/
theorem leaveAll_host (steps : List Step) (there : m.hosts[host]? = some h) :
    ∃ h', (leaveAll steps m).hosts[host]? = some h' := by
  induction steps generalizing m h with
  | nil => exact ⟨h, there⟩
  | cons step rest ih =>
    obtain ⟨h', after, -⟩ := step.effect there
    exact ih after

/-- **A record stands:** one of the steps made it, and no step since then took it out. -/
def Stands (host : Nat) (id : CacheId) (index : UInt32) (steps : List Step) (m : Machine) : Prop :=
  ∃ before step after, steps = before ++ step :: after ∧
    step.Records host id index (leaveAll before m) ∧ ∀ later ∈ after, later.Spares host id m

theorem not_stands_nil : ¬ m.Stands host id index [] := by
  rintro ⟨before, step, after, split, -⟩
  exact List.append_ne_nil_of_right_ne_nil before (List.cons_ne_nil _ after) split.symm

theorem stands_cons {step : Step} {rest : List Step} :
    Stands host id index (step :: rest) m ↔
      Stands host id index rest (step.leave m) ∨
        (step.Records host id index m ∧ ∀ later ∈ rest, later.Spares host id m) := by
  have same (later : Step) :
      later.Spares host id (step.leave m) ↔ later.Spares host id m :=
    Step.spares_iff (step.leave_identity? m)
  constructor
  · rintro ⟨before, made, after, split, records, spared⟩
    rcases List.cons_eq_append_iff.mp split with ⟨rfl, one⟩ | ⟨before', rfl, one⟩
    · obtain ⟨rfl, rfl⟩ := List.cons.inj one
      exact .inr ⟨records, spared⟩
    · exact .inl ⟨before', made, after, one, records, fun later mem =>
        (same later).mpr (spared later mem)⟩
  · rintro (⟨before, made, after, rfl, records, spared⟩ | ⟨records, spared⟩)
    · exact ⟨step :: before, made, after, rfl, records, fun later mem =>
        (same later).mp (spared later mem)⟩
    · exact ⟨[], step, rest, rfl, records, spared⟩

/-- **The entries after any steps** are the records that stand, and those from before that no step
took out. -/
theorem mem_log_leaveAll {steps : List Step} (there : m.hosts[host]? = some h)
    (after : (leaveAll steps m).hosts[host]? = some h') :
    (id, index) ∈ h'.log ↔ Stands host id index steps m ∨
      ((∀ step ∈ steps, step.Spares host id m) ∧ (id, index) ∈ h.log) := by
  induction steps generalizing m h with
  | nil =>
    obtain rfl := Option.some.inj (there.symm.trans after)
    simp [not_stands_nil]
  | cons step rest ih =>
    obtain ⟨mid, between, effect⟩ := step.effect there
    have same (later : Step) : later.Spares host id (step.leave m) ↔ later.Spares host id m :=
      Step.spares_iff (step.leave_identity? m)
    rw [ih between after, effect.mem_log, stands_cons, List.forall_mem_cons]
    simp only [same]
    constructor
    · rintro (stands | ⟨spared, records | ⟨spares, had⟩⟩)
      · exact .inl (.inl stands)
      · exact .inl (.inr ⟨records, spared⟩)
      · exact .inr ⟨⟨spares, spared⟩, had⟩
    · rintro ((stands | ⟨records, spared⟩) | ⟨⟨spares, spared⟩, had⟩)
      · exact .inl stands
      · exact .inr ⟨spared, .inl records⟩
      · exact .inr ⟨spared, .inr ⟨spares, had⟩⟩

/-- **When the log is empty outside transactions,** after each of the steps: exactly if every
rollback found the entries of its own cache alone. -/
theorem tidy_leaveAll {steps : List Step} (there : m.hosts[host]? = some h) (tidy : h.Tidy) :
    (∀ before after h', steps = before ++ after →
        (leaveAll before m).hosts[host]? = some h' → h'.Tidy) ↔
      ∀ before step after h', steps = before ++ step :: after →
        (leaveAll before m).hosts[host]? = some h' → step.TakesAll host (leaveAll before m) h' := by
  have next (before : List Step) (step : Step) :
      leaveAll (before ++ [step]) m = step.leave (leaveAll before m) := by
    simp [leaveAll]
  constructor
  · intro all before step after h' split at_host
    obtain ⟨h'', later, effect⟩ := step.effect at_host
    refine (effect.tidy at_host (all before (step :: after) h' split at_host)).mp ?_
    rw [← next] at later
    exact all (before ++ [step]) after h'' (by rw [split, List.append_assoc]; rfl) later
  · -- from the right: what the last step before left was empty because it was so before that one
    intro takes before
    induction before using List.reverseRecOn with
    | nil =>
      intro after h' split at_host
      obtain rfl := Option.some.inj (there.symm.trans at_host)
      exact tidy
    | append_singleton before step ih =>
      intro after h'' split later
      obtain ⟨h', at_host⟩ := leaveAll_host before there
      have split : steps = before ++ step :: after := by
        rw [split, List.append_assoc]
        rfl
      obtain ⟨found, here, effect⟩ := step.effect at_host
      rw [next] at later
      obtain rfl := Option.some.inj (here.symm.trans later)
      exact (effect.tidy at_host (ih (step :: after) h' split at_host)).mpr
        (takes before step after h' split at_host)

/-- **What rollbacks leave in a log.** Take a machine and a host on it with an empty log, and let
any steps happen, on any of the caches and hosts, each of which may end or stop with a fault. Then

* the log holds exactly the strings that were set, without a fault, while a transaction was open, and
  for which neither a commit nor a rollback of a cache of that identity came since;
* the log was empty whenever no transaction was open if, and only if, every rollback found entries
  of its own cache alone. -/
theorem log_leftovers {m₀ : Machine} {h₀ : Host} (there : m₀.hosts[host]? = some h₀)
    (empty : h₀.log = []) (steps : List Step) :
    (∃ h, (leaveAll steps m₀).hosts[host]? = some h ∧
      ∀ id index, (id, index) ∈ h.log ↔ Stands host id index steps m₀) ∧
    ((∀ before after h, steps = before ++ after → (leaveAll before m₀).hosts[host]? = some h →
        h.flags.transaction = false → h.log = []) ↔
      ∀ before number after id h, steps = before ++ .rollback host number :: after →
        m₀.identity? number = some id → (leaveAll before m₀).hosts[host]? = some h →
        ∀ entry ∈ h.log, entry.1 = id) := by
  constructor
  · obtain ⟨h, after⟩ := leaveAll_host steps there
    refine ⟨h, after, fun id index => ?_⟩
    rw [mem_log_leaveAll there after, empty]
    simp
  · refine (tidy_leaveAll there fun _ => empty).trans ?_
    constructor
    · intro takes before number after id h split named at_host
      refine takes before _ after h split at_host number id rfl ?_
      rw [leaveAll_identity? before m₀, named]
    · intro takes before step after h split at_host number id here named
      rw [leaveAll_identity? before m₀] at named
      exact takes before number after id h (here ▸ split) named at_host

/-- In a transaction the second cache resolves a string, and then it is rolled back for the first.
-/
def leaving : List Step := [.begin 0, .act 1 (.set .string 1 ⟨8⟩), .rollback 0 0]

/-- The transaction is closed then, and the second cache's entry is still in the log. -/
theorem hosts_leaving : ∃ h, (leaveAll leaving twoCaches).hosts[0]? = some h ∧
    (h.flags.transaction, h.log) = (false, [(⟨2⟩, 1)]) := by
  refine Option.map_eq_some_iff.mp ?_
  decide +kernel

theorem log_leftovers_leaving :
    (∃ h, (leaveAll leaving twoCaches).hosts[0]? = some h ∧
      (∀ id index, (id, index) ∈ h.log ↔ twoCaches.Stands 0 id index leaving)) ∧
    twoCaches.Stands 0 ⟨2⟩ 1 leaving ∧
    ¬ ∀ before number after id h, leaving = before ++ .rollback 0 number :: after →
      twoCaches.identity? number = some id → (leaveAll before twoCaches).hosts[0]? = some h →
      ∀ entry ∈ h.log, entry.1 = id := by
  obtain ⟨h, after, closed⟩ := hosts_leaving
  obtain ⟨transaction, log⟩ := Prod.mk.inj closed
  have there : twoCaches.hosts[0]? = some .ofCompiler := rfl
  obtain ⟨left, tidy⟩ := log_leftovers there rfl leaving
  obtain ⟨h', after', entries⟩ := id left
  obtain rfl := Option.some.inj (after.symm.trans after')
  refine ⟨left, (entries ⟨2⟩ 1).mp (by simp [log]), fun takes => ?_⟩
  have empty := tidy.mpr takes leaving [] h (List.append_nil _).symm after transaction
  rw [log] at empty
  cases empty

/-- **A log may outlive its transaction:** the rollback for the first cache leaves the second one's
entry behind, and the rollback of the next transaction makes the second cache forget a string that
was not resolved in it. -/
theorem log_outlives_transaction :
    (∃ h, (leaveAll leaving twoCaches).hosts[0]? = some h ∧
      h.flags.transaction = false ∧ h.log ≠ []) ∧
    ((leaveAll leaving twoCaches).tenants[1]?.bind (·.cache.held .string 1)) = some ⟨8⟩ ∧
    ((leaveAll (leaving ++ [.begin 0, .rollback 0 1]) twoCaches).tenants[1]?.bind
      (·.cache.held .string 1)) = none := by
  refine ⟨?_, by decide +kernel, by decide +kernel⟩
  obtain ⟨h, after, closed⟩ := hosts_leaving
  obtain ⟨transaction, log⟩ := Prod.mk.inj closed
  exact ⟨h, after, transaction, by simp [log]⟩

end Machine

end ResolutionCache
