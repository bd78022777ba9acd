import ResolutionCache.Proofs.Machine.Copies
import ResolutionCache.Proofs.Machine.Tables
import ResolutionCache.Proofs.Resolver.Preconditions

/-!
# Faults on a machine

Whatever has been done to a cache since it was created, to the other caches and to the hosts, and
whether it ended or stopped, an action on the cache stops exactly if one of its preconditions fails
(`Machine.faults_are_unmet_preconditions`). And when a deed stops, the machine is as it was before,
with one exception: a string that the host has no log for is in its slot already
(`Machine.stopped_changes_nothing`). A host that was once outside transactions never gets there,
whatever becomes of the machine (`Machine.Leads.orderly`).
-/

namespace ResolutionCache

/-- If the host has a transaction, it is the compiler. -/
def Host.Orderly (h : Host) : Prop := h.flags.transaction = true → h.flags.compiler = true

namespace Machine

open Attempt

variable {m m' : Machine} {number place host : Nat} {t u : Tenant} {c c' : Cache} {h h' : Host}
  {deed : Deed} {deeds : List Deed} {fault : Fault} {α σ : Type}

/-! ### What all deeds keep of a cache -/

section

variable (Kept : Cache → Prop)

/-- What every action keeps of a cache is kept by whatever a deed does to it. -/
theorem Deed.Change.keeps (change : deed.Change m number c c')
    (acted : ∀ (a : Action) (r : Resolver), Kept r.cache → Kept (left (a.run r)).cache)
    (kept : Kept c) : Kept c' := by
  have forgotten (indices : List UInt32) :
      Preserves (fun r : Resolver => Kept r.cache) (Resolver.clearStrings indices) := by
    induction indices with
    | nil => exact fun _ before => before
    | cons index rest ih =>
      exact Preserves.bind (fun r before => acted (.clear .string index) r before) fun _ => ih
  cases change with
  | @acted action r found same =>
    subst same
    exact acted action r kept
  | forgot same =>
    subst same
    exact forgotten _ _ kept
  | none _ => exact kept

/-- **What every action keeps of a cache** is kept by any deeds on the machine. -/
theorem leaveDeeds_keeps (deeds : List Deed) (there : m.tenants[number]? = some t)
    (acted : ∀ (a : Action) (r : Resolver), Kept r.cache → Kept (left (a.run r)).cache)
    (kept : Kept t.cache) :
    ∃ c', (leaveDeeds deeds m).tenants[number]? = some { t with cache := c' } ∧ Kept c' := by
  induction deeds generalizing m t with
  | nil => exact ⟨t.cache, there, kept⟩
  | cons deed rest ih =>
    obtain ⟨c', after, change⟩ := deed.change there
    obtain ⟨c'', later, kept''⟩ := ih after (change.keeps Kept acted kept)
    exact ⟨c'', later, kept''⟩

end

/-- The cache is as it was laid out, with the capacities and the file of another. -/
def LaidOutLike (c c' : Cache) : Prop := c'.LaidOut ∧ c'.settings = c.settings ∧ c'.file = c.file

theorem leaveDeeds_laidOut (deeds : List Deed) (there : m.tenants[number]? = some t)
    (laidOut : t.cache.LaidOut) :
    ∃ c', (leaveDeeds deeds m).tenants[number]? = some { t with cache := c' } ∧
      LaidOutLike t.cache c' := by
  refine leaveDeeds_keeps (LaidOutLike t.cache) deeds there ?_ ⟨laidOut, rfl, rfl⟩
  rintro a r ⟨laidOut, settings, file⟩
  have effect := Resolver.effect_run a r
  obtain ⟨-, file', settings'⟩ := effect.kept
  exact ⟨effect.laidOut laidOut, settings'.trans settings, file'.trans file⟩

/-! ### Preconditions -/

/-- **An action stops exactly if a precondition fails.** Put a new cache on a machine and let any
deeds happen there, whatever the visitors among them answer, and each of them may end or stop. Then,
with any host and any arguments:
- An action on the cache stops if one of its preconditions fails, with the fault of the first that
  does, and otherwise it ends.
- It never stops with a fault of the program's own.
- An index that the file has is given a slot, which is one of those held, also if the overlay
  answers for it; there is an entry for every call site of the file; and the array of the overlay
  has an entry for every string of the file, and is there while the overlay is on. -/
theorem faults_are_unmet_preconditions {id : CacheId} {file : SymbolFile} {location : Ref}
    {overrides : Overrides} (created : Cache.create id file location overrides = .ok c)
    (there : m.tenants[number]? = some t) (new : t.cache = c) (deeds : List Deed) :
    ∃ c', (leaveDeeds deeds m).tenants[number]? = some { t with cache := c' } ∧
      (∀ host dirty (a : Action),
        Resolver.fault? (a.run ⟨c', host, dirty⟩) =
          firstUnmet (a.preconditions file host.flags c'.overlay.offered)) ∧
      (∀ host dirty (a : Action) fault,
        Resolver.fault? (a.run ⟨c', host, dirty⟩) = some fault → fault.internal = false) ∧
      (∀ kind index, index < file.count kind.space →
        slotFor index (c.settings.capacity kind) =
          .ok (slotOf index (c.settings.capacity kind)) ∧
        slotOf index (c.settings.capacity kind) < (c'.table kind).size) ∧
      c'.callSites.size = file.callSites.toNat ∧
      (∀ array, c'.overlay.storage = some array → array.size = file.strings.toNat) ∧
      (c'.overlay.offered = true → ∃ array, c'.overlay.storage = some array) := by
  subst new
  obtain ⟨-, -, fresh⟩ := Cache.of_create_ok created
  obtain ⟨c', after, laidOut, settings, serves⟩ :=
    leaveDeeds_laidOut deeds there (Cache.laidOut_of_create_ok created)
  rw [fresh.serves] at serves
  refine ⟨c', after, ?_, ?_, ?_, ?_, ?_, laidOut.coherent.stored⟩
  · intro host dirty a
    rw [Resolver.fault?_run laidOut, serves]
  · intro host dirty a fault stopped
    exact Resolver.not_internal_of_run laidOut stopped
  · intro kind index range
    have usable := laidOut.usable kind
    rw [settings] at usable
    refine ⟨if_pos ((isPowerOfTwo_iff _).mpr (usable.imp fun _ => And.right)), ?_⟩
    rw [laidOut.tables, settings, Cache.ids, serves]
    exact slotOf_lt_slotCount usable range
  · rw [laidOut.callSites, serves]
  · intro array stored
    rw [laidOut.coherent.sized array stored, laidOut.overlay, serves]

/-- The file has four strings and no types. A null string out of range is reported as null, and a
string in range can be set on the compiler, but not in a transaction of another host. -/
theorem faults_are_unmet_preconditions_undone :
    ∃ c', (leaveDeeds undone twoCaches).tenants[0]? = some ⟨c', 0, none⟩ ∧
      Resolver.fault? ((Action.set .string 4 .null).run ⟨c', .ofCompiler, none⟩) =
        some .nullPayload ∧
      Resolver.fault? ((Action.get .string 4).run ⟨c', .ofCompiler, none⟩) =
        some (.outOfRange .string 4) ∧
      Resolver.fault? ((Action.get .type 0).run ⟨c', .ofCompiler, none⟩) =
        some (.outOfRange .type 0) ∧
      Resolver.fault? ((Action.set .string 3 ⟨8⟩).run ⟨c', .ofCompiler, none⟩) = none ∧
      Resolver.fault?
        ((Action.set .string 3 ⟨8⟩).run ⟨c', { flags := { transaction := true } }, none⟩) =
        some .notCompiler := by
  have created : Cache.create ⟨1⟩ { location := "core.jar", strings := 4 } .null
      { string := some 2 } = .ok (fourStrings 1) := by decide +kernel
  have there : twoCaches.tenants[0]? = some ⟨fourStrings 1, 0, none⟩ := rfl
  obtain ⟨c', after, stops, -⟩ := faults_are_unmet_preconditions created there rfl undone
  exact ⟨c', after, (stops _ none _).trans rfl, (stops _ none _).trans rfl,
    (stops _ none _).trans rfl, (stops _ none _).trans rfl, (stops _ none _).trans rfl⟩

/-! ### Operations that stop -/

/-- The operation does not stop with a fault. -/
def Unstoppable (operation : Operation α) : Prop :=
  ∀ m fault m', operation.run m ≠ .error fault m'

/-- If the operation stops with a fault, it has changed nothing. -/
def StopsClean (operation : Operation α) : Prop :=
  ∀ m fault m', operation.run m = .error fault m' → m' = m

/-- A chain of two stops in the first or in the second. -/
theorem of_bind_error {β : Type} {action : Operation α} {next : α → Operation β}
    (stopped : (action >>= next).run m = .error fault m') :
    action.run m = .error fault m' ∨
      ∃ a mid, action.run m = .ok (some a) mid ∧ (next a).run mid = .error fault m' := by
  rw [OptionT.run_bind, Option.elimM] at stopped
  cases ran : action.run m with
  | error f mid =>
    rw [bind_error ran] at stopped
    cases stopped
    exact .inl rfl
  | ok found mid =>
    rw [bind_ok ran] at stopped
    cases found with
    | none => cases stopped
    | some a => exact .inr ⟨a, mid, rfl, stopped⟩

theorem Unstoppable.bind {β : Type} {action : Operation α} {next : α → Operation β}
    (first : Unstoppable action) (rest : ∀ a, Unstoppable (next a)) :
    Unstoppable (action >>= next) := by
  intro m fault m' stopped
  rcases of_bind_error stopped with here | ⟨a, mid, -, later⟩
  · exact first m fault m' here
  · exact rest a mid fault m' later

theorem StopsClean.bind {β : Type} {action : Operation α} {next : α → Operation β}
    (first : StopsClean action) (rest : ∀ a, Unstoppable (next a)) :
    StopsClean (action >>= next) := by
  intro m fault m' stopped
  rcases of_bind_error stopped with here | ⟨a, mid, -, later⟩
  · exact first m fault m' here
  · exact absurd later (rest a mid fault m')

theorem unstoppable_cache (number : Nat) : Unstoppable (cache number) := by
  intro m fault m' stopped
  rw [run_cache] at stopped
  split at stopped <;> cases stopped

theorem unstoppable_report (event : Event) : Unstoppable (report event) := fun _ _ _ => nofun

theorem unstoppable_pure (a : α) : Unstoppable (pure a) := fun _ _ _ => nofun

/-- Asking a cache something changes nothing, whether it answers or not. -/
theorem stopsClean_inspecting (number : Nat) (question : Resolver → Except Fault α) :
    StopsClean (onCache number (inspect question)) := by
  intro m fault m' stopped
  have kept := left_inspecting number question m
  rwa [stopped] at kept

/-- Nor does it if the cache is looked up before and told of afterwards. -/
theorem stopsClean_telling (number : Nat) (question : Resolver → Except Fault α)
    (event : Cache → Event) :
    StopsClean (do
      let c ← cache number
      let answer ← onCache number (inspect question)
      report (event c)
      return answer : Operation α) := by
  intro m fault m' stopped
  rcases of_bind_error stopped with here | ⟨c, mid, named, later⟩
  · exact absurd here (unstoppable_cache number m fault m')
  · obtain rfl := of_cache named
    have told (answer : α) : Unstoppable (do report (event c); return answer : Operation α) :=
      (unstoppable_report _).bind fun _ => unstoppable_pure answer
    exact (stopsClean_inspecting number question).bind told m fault m' later

/-- **An action on a cache stops as the action of its resolver does,** and what that leaves is put
back. -/
theorem of_perform_error {a : Action} (stopped : (perform place a).run m = .error fault m') :
    ∃ r r', m.resolver? place = some r ∧ a.run r = .error fault r' ∧ m' = m.keep place r' := by
  have plain {β : Type} {action : Attempt Resolver β}
      (stopped : (onCache place action).run m = .error fault m') :
      ∃ r r', m.resolver? place = some r ∧ action r = .error fault r' ∧ m' = m.keep place r' := by
    rw [run_onCache] at stopped
    cases found : m.resolver? place with
    | none => rw [found] at stopped; cases stopped
    | some r =>
      rw [found] at stopped
      cases done : action r with
      | ok b r' => simp only [done] at stopped; cases stopped
      | error f r' =>
        simp only [done] at stopped
        cases stopped
        exact ⟨r, r', rfl, done, rfl⟩
  have telling (event : Cache → Event) : Unstoppable (do
      let c ← cache place
      report (event c) : Operation Unit) :=
    (unstoppable_cache place).bind fun _ => unstoppable_report _
  cases a with
  | scan withTables v state =>
    rcases of_bind_error stopped with scanned | ⟨_, _, -, ended⟩
    · rcases of_bind_error scanned with passed | ⟨_, _, -, told⟩
      · obtain ⟨r, r', -, done, -⟩ := plain passed
        cases done
      · cases told
    · cases ended
  | offerOverlay =>
    rcases of_bind_error stopped with offered | ⟨_, mid, -, told⟩
    · exact plain offered
    · exact absurd told (telling _ mid fault m')
  | withdrawOverlay =>
    rcases of_bind_error stopped with withdrawn | ⟨_, mid, -, told⟩
    · exact plain withdrawn
    · exact absurd told (telling _ mid fault m')
  | _ => exact plain stopped

/-! ### What is left of a deed that stops -/

/-- **A string stored without being logged.** The host of the cache has a transaction, but is not
the compiler. The string is not null, and the file has its index. Its slot holds it, and beside that
the machine is as it was. -/
def StoredUnlogged (m : Machine) (place : Nat) (index : UInt32) (string : Ref) (fault : Fault)
    (m' : Machine) : Prop :=
  ∃ u h, m.tenants[place]? = some u ∧ m.hosts[u.host]? = some h ∧
    h.flags.transaction = true ∧ h.flags.compiler = false ∧ string ≠ .null ∧
    index < u.cache.file.strings ∧ fault = .notCompiler ∧
    let slot := slotOf index u.cache.settings.string
    slot < u.cache.strings.size ∧
    m' = { m with
      tenants := m.tenants.setIfInBounds place { u with
        cache := { u.cache with strings := u.cache.strings.replace slot ⟨string, index⟩ } } }

theorem storedUnlogged {r : Resolver} {index : UInt32} {string : Ref} {slot : Nat}
    (found : m.resolver? place = some r) (inside : r.host.flags.transaction = true)
    (outsider : r.host.flags.compiler = false) (full : string ≠ .null)
    (at_slot : r.slot .string index = .ok slot) :
    StoredUnlogged m place index string .notCompiler
      (m.keep place (r.withEntry .string slot ⟨string, index⟩)) := by
  obtain ⟨u, there, same, host, -⟩ := resolver?_eq_some.mp found
  obtain ⟨-, range, -, rfl, held⟩ := Resolver.slot_eq_ok_iff.mp at_slot
  refine ⟨u, r.host, there, host, inside, outsider, full, ?_, rfl, ?_⟩
  · rw [same]
    exact range
  · rw [same]
    exact ⟨held, keep_cache there found _⟩

/-- An action that stops leaves the machine as it was or a string stored without being logged. -/
theorem of_perform_error_cases {a : Action} (stopped : (perform place a).run m = .error fault m') :
    m' = m ∨ ∃ index string, a = .set .string index string ∧
      StoredUnlogged m place index string fault m' := by
  obtain ⟨r, r', found, done, rfl⟩ := of_perform_error stopped
  rcases Resolver.of_run_error done with
    rfl | ⟨index, string, slot, rfl, full, at_slot, inside, outsider, rfl, rfl⟩
  · exact .inl (keep_self found)
  · exact .inr ⟨index, string, rfl, storedUnlogged found inside outsider full at_slot⟩

/-- With an orderly host, an action that stops leaves the machine as it was. -/
theorem of_perform_error_orderly {a : Action} (there : m.tenants[place]? = some u)
    (at_host : m.hosts[u.host]? = some h) (orderly : h.Orderly)
    (stopped : (perform place a).run m = .error fault m') : m' = m := by
  rcases of_perform_error_cases stopped with clean | ⟨index, string, -, stored⟩
  · exact clean
  · obtain ⟨u', h', there', at_host', inside, outsider, -⟩ := stored
    obtain rfl := Option.some.inj (there.symm.trans there')
    obtain rfl := Option.some.inj (at_host.symm.trans at_host')
    exact absurd ((orderly inside).symm.trans outsider) nofun

/-- With any other, each string that is not null and whose index the file has is stored without
being logged. -/
theorem perform_unlogged {r : Resolver} {index : UInt32} {string : Ref}
    (found : m.resolver? place = some r) (laidOut : r.cache.LaidOut)
    (inside : r.host.flags.transaction = true) (outsider : r.host.flags.compiler = false)
    (full : string ≠ .null) (range : index < r.cache.file.strings) :
    ∃ m', (perform place (.set .string index string)).run m = .error .notCompiler m' ∧
      StoredUnlogged m place index string .notCompiler m' := by
  obtain ⟨slot, at_slot, ran⟩ := Resolver.set_string_unlogged laidOut inside outsider full range
  refine ⟨_, ?_, storedUnlogged found inside outsider full at_slot⟩
  show (onCache place _).run m = _
  rw [run_onCache, found]
  simp only [Action.run, ran]

/-- **What is left of a deed that stops,** unless it is a rollback. -/
theorem Deed.of_error (no_rollback : ∀ host place, deed ≠ .step (.rollback host place))
    (stopped : deed.run.run m = .error fault m') :
    m' = m ∨ ∃ place index string, deed = .step (.act place (.set .string index string)) ∧
      StoredUnlogged m place index string fault m' := by
  have copied {σ : Type} {operation : Operation σ} (clean : StopsClean operation)
      (stopped : (do let _ ← operation : Operation Unit).run m = .error fault m') : m' = m :=
    clean.bind (fun _ => unstoppable_pure ()) m fault m' stopped
  cases deed with
  | step step =>
    cases step with
    | act place a =>
      rcases of_perform_error_cases stopped with clean | ⟨index, string, rfl, stored⟩
      · exact .inl clean
      · exact .inr ⟨place, index, string, rfl, stored⟩
    | begin host =>
      change (onHost host Host.begin).run m = _ at stopped
      rw [run_onHost] at stopped
      split at stopped
      · cases stopped
      · split at stopped <;> cases stopped
        exact .inl rfl
    | commit host =>
      change (onHost host fun h => .ok h.commit).run m = _ at stopped
      rw [run_onHost] at stopped
      split at stopped <;> cases stopped
    | rollback host place => exact absurd rfl (no_rollback host place)
  | copyTable place kind v destination state =>
    exact .inl (copied (stopsClean_telling place _ _) stopped)
  | copyCallSites place v destination state =>
    exact .inl (copied (stopsClean_telling place _ _) stopped)
  | copyOverlay place v destination state =>
    exact .inl (copied (stopsClean_inspecting place _) stopped)
  | takeDirty dirty =>
    rcases of_bind_error stopped with taken | ⟨_, _, -, ended⟩
    · rcases of_bind_error taken with picked | ⟨_, _, -, ended⟩
      · cases picked
      · cases ended
    · cases ended

/-! ### Transactions outside the compiler -/

/-- **No step opens a transaction outside the compiler,** and the compiler stays what it is. -/
theorem Step.Effect.orderly {step : Step} (effect : step.Effect host m h h')
    (orderly : h.Orderly) : h'.Orderly := by
  cases effect with
  | recorded _ => exact orderly
  | begun _ begun =>
    obtain ⟨compiler, -, rfl⟩ := Host.of_begin_ok begun
    exact fun _ => compiler
  | committed _ => exact nofun
  | rolledBack _ _ => exact nofun
  | none _ _ => exact orderly

theorem hosts_of_still (same : m.still = m'.still) : m.hosts = m'.hosts :=
  (congrArg Machine.hosts same :)

theorem Deed.orderly_leave (deed : Deed) (there : m.hosts[host]? = some h) (orderly : h.Orderly) :
    ∃ h', (deed.leave m).hosts[host]? = some h' ∧ h'.Orderly := by
  have others (kept : (deed.leave m).hosts = m.hosts) :
      ∃ h', (deed.leave m).hosts[host]? = some h' ∧ h'.Orderly := ⟨h, kept ▸ there, orderly⟩
  cases deed with
  | step step =>
    obtain ⟨h', after, effect⟩ := step.effect there
    exact ⟨h', after, effect.orderly orderly⟩
  | takeDirty dirty =>
    have picked : Keeps Machine.hosts (pick Machine.dirtySets dirty).run := fun _ => rfl
    have taken : Keeps Machine.hosts (Machine.takeDirty dirty).run :=
      keeps_then picked fun s => keeps_then (fun _ => rfl) fun _ => keeps_pure _
    exact others (keeps_then taken (fun _ => keeps_pure _) m)
  | copyTable | copyCallSites | copyOverlay =>
    exact others (hosts_of_still (still_leave (by nofun) (by nofun) m))

/-- **What may become of a machine.** Deeds happen, each of which may end or stop. Caches are
created. And anything else may happen that leaves the caches and the flags of the hosts alone; hosts
may be added. -/
inductive Leads (m : Machine) : Machine → Prop where
  | refl : Leads m m
  | left {m' : Machine} (deed : Deed) : Leads m m' → Leads m (deed.leave m')
  | added {m' m'' : Machine} {file : SymbolFile} {location : Ref} {overrides : Overrides}
    {host : Nat} {dirty : Option Nat} {outcome : Except BadCapacity (Nat × CacheId)} :
    Leads m m' → (addCache file location overrides host dirty).run m' = .ok (some outcome) m'' →
    Leads m m''
  | elsewhere {m' m'' : Machine} : Leads m m' → m''.tenants = m'.tenants →
    (∀ (host : Nat) (h : Host), m'.hosts[host]? = some h →
      ∃ h' : Host, m''.hosts[host]? = some h' ∧ h'.flags = h.flags) → Leads m m''

theorem Leads.leaveDeeds (leads : m.Leads m') (deeds : List Deed) :
    m.Leads (leaveDeeds deeds m') := by
  induction deeds generalizing m' with
  | nil => exact leads
  | cons deed rest ih => exact ih (leads.left deed)

/-- **A host stays orderly,** whatever becomes of the machine. -/
theorem Leads.orderly (leads : m.Leads m') (there : m.hosts[host]? = some h)
    (orderly : h.Orderly) : ∃ h', m'.hosts[host]? = some h' ∧ h'.Orderly := by
  induction leads with
  | refl => exact ⟨h, there, orderly⟩
  | left deed _ ih =>
    obtain ⟨h', there', orderly'⟩ := ih
    exact deed.orderly_leave there' orderly'
  | added _ ran ih =>
    obtain ⟨h', there', orderly'⟩ := ih
    rcases of_addCache ran with rfl | ⟨c, journal, -, rfl⟩
    · exact ⟨h', there', orderly'⟩
    · exact ⟨h', there', orderly'⟩
  | elsewhere _ _ flags ih =>
    obtain ⟨h', there', orderly'⟩ := ih
    obtain ⟨h'', there'', same⟩ := flags host h' there'
    exact ⟨h'', there'', by unfold Host.Orderly; rwa [same]⟩

/-- **What a fault leaves behind.** Put a new cache on a machine and let any deeds happen there,
each of which may end or stop. Then:
- A deed that stops, on whichever cache, leaves the machine just as it was, the journal included,
  unless it is a rollback. There is one exception: a string stored without being logged.
- On the cache, the exception comes about whenever it can: by every string that is not null and
  whose index the file has, if the host has a transaction and is not the compiler.
- It never comes about on a cache whose host is the compiler or was once outside transactions.
  Whatever has become of the machine since, an action on such a cache that stops leaves it as it
  was, also if the cache was created in the meantime, and in a transaction.
- A copy that stops has not written to its destination and has not led the visitor anywhere. -/
theorem stopped_changes_nothing {id : CacheId} {file : SymbolFile} {location : Ref}
    {overrides : Overrides} (created : Cache.create id file location overrides = .ok c)
    (there : m.tenants[number]? = some t) (new : t.cache = c) (deeds : List Deed) :
    let m' := leaveDeeds deeds m
    (∀ (deed : Deed) fault m'', (∀ host place, deed ≠ .step (.rollback host place)) →
      deed.run.run m' = .error fault m'' →
      m'' = m' ∨ ∃ place index string, deed = .step (.act place (.set .string index string)) ∧
        StoredUnlogged m' place index string fault m'') ∧
    (∀ r index string, m'.resolver? number = some r → r.host.flags.transaction = true →
      r.host.flags.compiler = false → string ≠ .null → index < file.strings →
      ∃ m'', (perform number (.set .string index string)).run m' = .error .notCompiler m'' ∧
        StoredUnlogged m' number index string .notCompiler m'') ∧
    (∀ host h, m.hosts[host]? = some h →
      (h.flags.transaction = true → h.flags.compiler = true) → ∀ m₁, m.Leads m₁ →
      ∀ place u, m₁.tenants[place]? = some u → u.host = host →
      ∀ a fault m'', (perform place a).run m₁ = .error fault m'' → m'' = m₁) ∧
    (∀ w σ (table : DirectMap w) (v : Visitor w σ) destination s fault after,
      table.copyOver v (destination, s) = .error fault after → after = (destination, s)) ∧
    ∀ σ (table : ClaimTable) (overlay : Overlay) (v : Visitor 32 σ) destination s fault after,
      (table.copyOver v (destination, s) = .error fault after → after = (destination, s)) ∧
      (overlay.copyOver v (destination, s) = .error fault after → after = (destination, s)) := by
  intro m'
  refine ⟨fun deed fault m'' => Deed.of_error, ?_, ?_, ?_, ?_⟩
  · intro r index string found inside outsider full range
    subst new
    obtain ⟨c', after, laidOut, -, serves⟩ :=
      leaveDeeds_laidOut deeds there (Cache.laidOut_of_create_ok created)
    obtain ⟨t', there', same, -⟩ := resolver?_eq_some.mp found
    obtain rfl := Option.some.inj (after.symm.trans there')
    obtain rfl : c' = r.cache := same
    obtain ⟨-, -, fresh⟩ := Cache.of_create_ok created
    rw [← fresh.serves, ← serves] at range
    exact perform_unlogged found laidOut inside outsider full range
  · rintro host h at_host orderly m₁ leads place u placed rfl a fault m'' stopped
    obtain ⟨h', at_host', orderly'⟩ := leads.orderly at_host orderly
    exact of_perform_error_orderly placed at_host' orderly' stopped
  · intro w σ table v destination s fault after stopped
    rw [table.copyOver_eq_copyInto] at stopped
    exact of_onto_error stopped
  · intro σ table overlay v destination s fault after
    rw [table.copyOver_eq_copyInto, overlay.copyOver_eq_copyInto]
    exact ⟨of_onto_error, of_onto_error⟩

/-- A cache whose host was created with a transaction, although it is not the compiler. -/
def straying : Machine where
  hosts := #[{ flags := { transaction := true } }]
  tenants := #[⟨fourStrings 1, 0, none⟩]

/-- The compiler in a transaction, in which a third cache was created. -/
def lateArrival : Machine :=
  { leaveDeeds [.step (.begin 0)] twoCaches with
    tenants := twoCaches.tenants.push ⟨fourStrings 3, 0, none⟩
    nextId := 4
    journal := #[.ofCreated (fourStrings 3)] }

/-- A transaction cannot be opened there, and a string is stored, but not logged. On the compiler
nothing like that happens, whatever is done to its caches, and not on a cache that was created in a
transaction either. -/
theorem stopped_changes_nothing_straying :
    (∃ m', (perform 0 (.set .string 3 ⟨8⟩)).run (leaveDeeds [.step (.begin 0)] straying) =
        .error .notCompiler m' ∧ m'.hosts = straying.hosts ∧
      m'.tenants[0]?.map (·.cache.strings.entries) = some #[.vacant 0, ⟨⟨8⟩, 3⟩]) ∧
    (∀ a fault m', (perform 0 a).run (leaveDeeds undone twoCaches) = .error fault m' →
      m' = leaveDeeds undone twoCaches) ∧
    ∀ a fault m', (perform 2 a).run lateArrival = .error fault m' → m' = lateArrival := by
  have created : Cache.create ⟨1⟩ { location := "core.jar", strings := 4 } .null
      { string := some 2 } = .ok (fourStrings 1) := by decide +kernel
  have there : twoCaches.tenants[0]? = some ⟨fourStrings 1, 0, none⟩ := rfl
  obtain ⟨-, -, orderly, -⟩ := stopped_changes_nothing created there rfl undone
  have compiler := orderly 0 .ofCompiler rfl fun _ => rfl
  obtain ⟨c', placed, -⟩ :=
    leaveDeeds_keeps (fun _ => True) undone there (fun _ _ _ => trivial) trivial
  refine ⟨?_, compiler _ (Leads.refl.leaveDeeds undone) 0 ⟨c', 0, none⟩ placed rfl, ?_⟩
  · have there : straying.tenants[0]? = some ⟨fourStrings 1, 0, none⟩ := rfl
    obtain ⟨-, unlogged, -⟩ := stopped_changes_nothing created there rfl [.step (.begin 0)]
    obtain ⟨m', stopped, u, h, at_place, -, -, -, -, -, -, -, rfl⟩ :=
      unlogged ⟨fourStrings 1, { flags := { transaction := true } }, none⟩ 3 ⟨8⟩ rfl rfl rfl
        (by decide) (by decide)
    refine ⟨_, stopped, rfl, ?_⟩
    obtain rfl : ⟨fourStrings 1, 0, none⟩ = u := Option.some.inj at_place
    decide +kernel
  · have ran : (addCache { location := "core.jar", strings := 4 } .null { string := some 2 } 0
        none).run (leaveDeeds [.step (.begin 0)] twoCaches) =
        .ok (some (.ok (2, ⟨3⟩))) lateArrival := rfl
    exact compiler _ ((Leads.refl.leaveDeeds _).added ran) 2 ⟨fourStrings 3, 0, none⟩ rfl rfl

end Machine

end ResolutionCache
