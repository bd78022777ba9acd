import ResolutionCache.Proofs.Machine.Leftovers
import ResolutionCache.Proofs.Resolver.Effects

/-!
# Deeds

Beside the steps that change a cache or a host, a machine makes relocated copies of tables and lets
somebody take what its dirty sets remember (`Machine.Deed`). Whatever the deed, and whether it ends
or stops with a fault, a cache changes in two ways only: by an action on it, or by a rollback that
makes it forget strings (`Machine.Deed.change`).
-/

namespace ResolutionCache.Machine

open Attempt

variable {m m' : Machine} {number other : Nat} {t : Tenant} {r r' : Resolver} {α β : Type}

/-! ### Operations that change the journal alone -/

/-- The machine without its journal. -/
def still (m : Machine) : Machine := { m with journal := #[] }

theorem tenants_of_still (same : m.still = m'.still) : m.tenants = m'.tenants :=
  (congrArg Machine.tenants same :)

theorem dirtySets_of_still (same : m.still = m'.still) : m.dirtySets = m'.dirtySets :=
  (congrArg Machine.dirtySets same :)

/-- Putting back what was taken out changes nothing. -/
theorem keep_self (found : m.resolver? number = some r) : m.keep number r = m := by
  obtain ⟨t, there, cache, host, dirty⟩ := resolver?_eq_some.mp found
  have tenants : m.tenants.setIfInBounds number { t with cache := r.cache } = m.tenants := by
    rw [← cache]
    exact setIfInBounds_eq_self there
  have hosts : m.hosts.setIfInBounds t.host r.host = m.hosts := setIfInBounds_eq_self host
  simp only [keep, there, tenants, hosts]
  cases remembering : t.dirty with
  | none => rfl
  | some place =>
    rw [remembering] at dirty
    obtain ⟨s, held, same⟩ := dirty
    simp only [same, setIfInBounds_eq_self held]

/-- Looking at a cache changes nothing. -/
theorem left_inspecting (number : Nat) (question : Resolver → Except Fault α) (m : Machine) :
    left ((onCache number (inspect question)).run m) = m := by
  rw [left_onCache]
  cases found : m.resolver? number with
  | none => rfl
  | some r =>
    have kept : left (inspect question r) = r := left_inspect question r
    simp only [kept]
    exact keep_self found

theorem keeps_still_inspecting (number : Nat) (question : Resolver → Except Fault α) :
    Keeps still (onCache number (inspect question)).run := fun m =>
  congrArg still (left_inspecting number question m)

/-! ### Deeds -/

/-- What can happen to a machine: a step, a relocated copy of a part of a cache, or the taking of
what a dirty set remembers. -/
inductive Deed : Type 1 where
  | step (step : Step)
  | copyTable (number : Nat) (kind : SlotKind) {σ : Type} (v : Visitor kind.width σ)
    (destination : Array (Entry kind.width)) (state : σ)
  | copyCallSites (number : Nat) {σ : Type} (v : Visitor 32 σ) (destination : Array Ref) (state : σ)
  | copyOverlay (number : Nat) {σ : Type} (v : Visitor 32 σ) (destination : Array Ref) (state : σ)
  | takeDirty (dirty : Nat)

namespace Deed

/-- The deed as an operation of the machine. -/
def run : Deed → Operation Unit
  | step s => s.run
  | copyTable number kind v destination state => do
    let _ ← Machine.copyTable number kind v destination state
  | copyCallSites number v destination state => do
    let _ ← Machine.copyCallSites number v destination state
  | copyOverlay number v destination state => do
    let _ ← Machine.copyOverlay number v destination state
  | takeDirty dirty => do let _ ← Machine.takeDirty dirty

/-- The machine that the deed leaves, whether it ended or stopped with a fault. -/
def leave (deed : Deed) (m : Machine) : Machine := left (deed.run.run m)

/-- Asking a cache something and telling of it changes the journal alone. -/
theorem keeps_still_telling (number : Nat) (question : Resolver → Except Fault α)
    (event : Cache → Event) :
    Keeps still (do
      let c ← cache number
      let answer ← onCache number (inspect question)
      report (event c)
      return answer : Operation α).run := by
  refine keeps_then (keeps_cache number) fun c => ?_
  refine keeps_then (keeps_still_inspecting number _) fun answer => ?_
  exact keeps_then (fun _ => rfl) fun _ => keeps_pure _

/-- Copying changes the journal alone. -/
theorem still_leave {deed : Deed} (no_step : ∀ step, deed ≠ .step step)
    (no_taking : ∀ dirty, deed ≠ .takeDirty dirty) (m : Machine) :
    still (deed.leave m) = still m := by
  cases deed with
  | step step => exact absurd rfl (no_step step)
  | takeDirty dirty => exact absurd rfl (no_taking dirty)
  | copyTable place kind v destination state =>
    exact keeps_then (keeps_still_telling place _ _) (fun _ => keeps_pure _) m
  | copyCallSites place v destination state =>
    exact keeps_then (keeps_still_telling place _ _) (fun _ => keeps_pure _) m
  | copyOverlay place v destination state =>
    exact keeps_then (keeps_still_inspecting place _) (fun _ => keeps_pure _) m

/-- What a deed does to the cache of a number. -/
inductive Change (m : Machine) (number : Nat) (c : Cache) : Deed → Cache → Prop where
  | acted {action : Action} {r : Resolver} : m.resolver? number = some r → r.cache = c →
    Change m number c (.step (.act number action)) (left (action.run r)).cache
  | forgot {host : Nat} {indices : List UInt32} {r : Resolver} : r.cache = c →
    Change m number c (.step (.rollback host number)) (left (Resolver.clearStrings indices r)).cache
  | none {deed : Deed} : (∀ action, deed = .step (.act number action) → m.resolver? number = none) →
    Change m number c deed c

end Deed

/-- **What an operation of one cache does to the others:** nothing. -/
theorem tenants_onCache (place : Nat) (action : Attempt Resolver α) (m : Machine)
    (there : m.tenants[number]? = some t) :
    (∃ r, place = number ∧ m.resolver? number = some r ∧ r.cache = t.cache ∧
      (left ((onCache place action).run m)).tenants[number]? =
        some { t with cache := (left (action r)).cache }) ∨
    ((place = number → m.resolver? number = none) ∧
      (left ((onCache place action).run m)).tenants[number]? = some t) := by
  rw [left_onCache]
  cases found : m.resolver? place with
  | none => exact .inr ⟨fun same => same ▸ found, there⟩
  | some r =>
    obtain ⟨t', there', cache, -⟩ := resolver?_eq_some.mp found
    simp only
    rw [tenants_keep there']
    split
    · subst ‹place = number›
      obtain rfl := Option.some.inj (there.symm.trans there')
      exact .inl ⟨r, rfl, found, cache.symm, rfl⟩
    · exact .inr ⟨fun same => absurd same ‹_›, there⟩

namespace Deed

theorem change_act (place : Nat) (action : Action) (there : m.tenants[number]? = some t) :
    ∃ c', ((Deed.step (.act place action)).leave m).tenants[number]? = some { t with cache := c' } ∧
      (Deed.step (.act place action)).Change m number t.cache c' := by
  obtain ⟨journal, performed⟩ := left_perform place action m
  have tenants : ((Deed.step (.act place action)).leave m).tenants =
      (left ((onCache place action.run).run m)).tenants := by
    show (left ((perform place action).run m)).tenants = _
    rw [performed]
  rw [tenants]
  rcases tenants_onCache place action.run m there with
    ⟨r, rfl, found, same, after⟩ | ⟨missing, after⟩
  · exact ⟨_, after, .acted found same⟩
  · refine ⟨t.cache, after, .none fun action' same => missing ?_⟩
    cases same
    rfl

theorem change_rollback (host place : Nat) (there : m.tenants[number]? = some t) :
    ∃ c', ((Deed.step (.rollback host place)).leave m).tenants[number]? =
        some { t with cache := c' } ∧
      (Deed.step (.rollback host place)).Change m number t.cache c' := by
  show ∃ c', (left ((rollback host place).run m)).tenants[number]? = _ ∧ _
  cases at_host : m.hosts[host]? with
  | none =>
    rw [left_rollback_missing (.inl at_host)]
    exact ⟨t.cache, there, .none nofun⟩
  | some h =>
    cases named : m.tenants[place]? with
    | none =>
      rw [left_rollback_missing (.inr named)]
      exact ⟨t.cache, there, .none nofun⟩
    | some t' =>
      obtain ⟨journal, rolled⟩ := rollback_eq at_host named
      rw [rolled]
      -- the host has been written back by then, but the caches are as they were
      have there' : ({ m with
          hosts := m.hosts.setIfInBounds host (h.withdraw t'.cache.id), journal } :
          Machine).tenants[number]? = some t := there
      rcases tenants_onCache place (Resolver.clearStrings (h.recorded t'.cache.id)) _ there' with
        ⟨r, rfl, -, same, after⟩ | ⟨-, after⟩
      · exact ⟨_, after, .forgot same⟩
      · exact ⟨t.cache, after, .none nofun⟩

/-- A deed that is neither an action nor a rollback leaves all caches alone. -/
theorem tenants_leave {deed : Deed} (no_action : ∀ place action, deed ≠ .step (.act place action))
    (no_rollback : ∀ host place, deed ≠ .step (.rollback host place)) (m : Machine) :
    (deed.leave m).tenants = m.tenants := by
  cases deed with
  | step step =>
    cases step with
    | act place action => exact absurd rfl (no_action place action)
    | rollback host place => exact absurd rfl (no_rollback host place)
    | begin host => exact keeps_onHost (fun _ _ => rfl) host Host.begin m
    | commit host => exact keeps_onHost (fun _ _ => rfl) host (fun h => .ok h.commit) m
  | copyTable | copyCallSites | copyOverlay =>
    exact tenants_of_still (still_leave (by nofun) (by nofun) m)
  | takeDirty dirty =>
    have picked : Keeps Machine.tenants (pick Machine.dirtySets dirty).run := fun _ => rfl
    have taken : Keeps Machine.tenants (Machine.takeDirty dirty).run :=
      keeps_then picked fun s => keeps_then (fun _ => rfl) fun _ => keeps_pure _
    exact keeps_then taken (fun _ => keeps_pure _) m

/-- **Whatever the deed, a cache changes in two ways only.** -/
theorem change (deed : Deed) (there : m.tenants[number]? = some t) :
    ∃ c', (deed.leave m).tenants[number]? = some { t with cache := c' } ∧
      deed.Change m number t.cache c' := by
  by_cases action : ∃ place action, deed = .step (.act place action)
  · obtain ⟨place, action, rfl⟩ := action
    exact change_act place action there
  by_cases rollback : ∃ host place, deed = .step (.rollback host place)
  · obtain ⟨host, place, rfl⟩ := rollback
    exact change_rollback host place there
  have no_action (place : Nat) (a : Action) (same : deed = .step (.act place a)) : False :=
    action ⟨place, a, same⟩
  have kept := tenants_leave no_action (fun host place same => rollback ⟨host, place, same⟩) m
  exact ⟨t.cache, kept ▸ there, .none fun a same => absurd same (no_action number a)⟩

/-- No deed gives a cache another identity. -/
theorem leave_identity? (deed : Deed) (m : Machine) : (deed.leave m).identity? = m.identity? := by
  have others (same : (deed.leave m).tenants = m.tenants) :
      (deed.leave m).identity? = m.identity? := by
    unfold identity?
    rw [same]
  cases deed with
  | step step => exact step.leave_identity? m
  | copyTable | copyCallSites | copyOverlay | takeDirty =>
    exact others (tenants_leave (by nofun) (by nofun) m)

end Deed

end ResolutionCache.Machine
