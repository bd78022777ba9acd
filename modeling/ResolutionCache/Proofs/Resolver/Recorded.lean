import ResolutionCache.Proofs.Resolver.Lookups
import ResolutionCache.Proofs.Resolver.Transaction

/-!
# What an action records

The log of a host grows in one way only: a string is set, the action ends without a fault, and a
transaction is open. Then the log gets one entry, under the identity of the cache
(`Resolver.account_run`). Any other action, and any action that stopped with a fault, leaves the
cache its identity and the host as it was, its log and its flags.
-/

namespace ResolutionCache.Resolver

open Attempt

variable {r r' : Resolver} {kind : SlotKind} {index : UInt32}

/-- The host, and the identity under which it logs what the cache resolves. -/
def account (r : Resolver) : Host × CacheId := (r.host, r.cache.id)

theorem account_withEntry (r : Resolver) (kind : SlotKind) (slot : Nat) (e : Entry kind.width) :
    (r.withEntry kind slot e).account = r.account := by
  cases kind <;> rfl

/-! ### Operations that record nothing -/

theorem keeps_mapTable (kind : SlotKind) (f : DirectMap kind.width → DirectMap kind.width) :
    Keeps account (mapTable kind f) :=
  keeps_modify fun _ => by cases kind <;> rfl

theorem keeps_barrier : Keeps account barrier := keeps_modify fun _ => rfl

theorem keeps_clear (kind : SlotKind) (index : UInt32) : Keeps account (clear kind index) := by
  unfold clear
  refine keeps_get.bind fun r => ?_
  refine (keeps_require _ _).bind fun _ => ?_
  refine (keeps_inspect _).bind fun slot => ?_
  refine (keeps_inspect _).bind fun owned => ?_
  split
  · exact keeps_mapTable kind _
  · exact keeps_pure _

theorem keeps_clearStrings (indices : List UInt32) : Keeps account (clearStrings indices) := by
  induction indices with
  | nil => exact keeps_pure _
  | cons index rest ih => exact (keeps_clear .string index).bind fun _ => ih

theorem keeps_setCallSite (index : UInt32) (candidate : Ref) :
    Keeps account (setCallSite index candidate) := by
  have bound (callSite : Ref) : Keeps account (bindCallSite index callSite) :=
    keeps_modify fun _ => rfl
  unfold setCallSite
  refine (keeps_inspect _).bind fun _ => ?_
  refine (keeps_inspect _).bind fun outcome => ?_
  refine (bound outcome.standing).bind fun _ => ?_
  split
  · exact keeps_barrier.bind fun _ => keeps_pure _
  · exact keeps_pure _

theorem keeps_setOverlay (index : UInt32) (string : Ref) :
    Keeps account (setOverlay index string) := by
  intro r
  rw [setOverlay_eq]
  -- whichever check stops it, the resolver is as it was
  repeat' split
  all_goals rfl

theorem keeps_offerOverlay : Keeps account offerOverlay := by
  unfold offerOverlay
  refine keeps_get.bind fun r => ?_
  exact (keeps_require _ _).bind fun _ => keeps_modify fun _ => rfl

/-! ### Setting a symbol -/

/-- **What setting a symbol does to the host:** if it ends, a string is logged while a transaction
is open, and if it does not, nothing is. -/
theorem account_set (kind : SlotKind) (index : UInt32) (payload : Address kind.width)
    (r : Resolver) :
    (∃ r', set kind index payload r = .ok () r' ∧
      r'.account = (if kind = .string ∧ r.host.flags.transaction = true then
        r.host.record r.cache.id index else r.host, r.cache.id)) ∨
    ∃ f r', set kind index payload r = .error f r' ∧ r'.account = r.account := by
  cases ran : set kind index payload r with
  | ok _ r' =>
    obtain ⟨-, slot, -, cache, host⟩ := of_set_ok ran
    refine .inl ⟨r', rfl, Prod.ext host ?_⟩
    show r'.cache.id = _
    rw [cache]
    exact (congrArg Prod.snd (account_withEntry r kind slot ⟨payload, index⟩) :)
  | error f r' =>
    refine .inr ⟨f, r', rfl, ?_⟩
    rw [set_eq] at ran
    split at ran
    · cases ran
      rfl
    · cases at_slot : r.slot kind index with
      | error f =>
        rw [at_slot] at ran
        cases ran
        rfl
      | ok slot =>
        rw [at_slot] at ran
        by_cases string : kind = .string
        · subst string
          simp only [if_true] at ran
          rw [recordString_eq, host_withEntry] at ran
          by_cases inside : r.host.flags.transaction = true
          · rw [if_pos inside] at ran
            cases compiler : r.host.flags.compiler with
            | true => simp [compiler] at ran
            | false =>
              -- the string is stored, but it could not be logged
              simp only [compiler, Bool.false_eq_true, if_false] at ran
              cases ran
              exact account_withEntry r .string slot ⟨payload, index⟩
          · rw [if_neg inside] at ran
            cases ran
        · simp only [string, if_false] at ran
          cases ran

/-- The action sets a string, and it ends without a fault while a transaction is open. -/
def Records (r : Resolver) (index : UInt32) (action : Action) : Prop :=
  ∃ payload r', action = .set .string index payload ∧ action.run r = .ok () r' ∧
    r.host.flags.transaction = true

/-- **What an action does to the host,** whether it ends or stops: it records a string, or it changes
nothing. -/
theorem account_run (action : Action) (r : Resolver) :
    (∃ index, r.Records index action ∧
      (left (action.run r)).account = (r.host.record r.cache.id index, r.cache.id)) ∨
    ((∀ index, ¬ r.Records index action) ∧ (left (action.run r)).account = r.account) := by
  -- an action other than a set records nothing
  have plain (keeps : Keeps account action.run)
      (other : ∀ index payload, action ≠ .set .string index payload) :
      (∀ index, ¬ r.Records index action) ∧ (left (action.run r)).account = r.account :=
    ⟨fun index ⟨payload, _, same, _⟩ => other index payload same, keeps r⟩
  cases action with
  | set kind index payload =>
    have run : (Action.set kind index payload).run r = set kind index payload r := rfl
    rw [run]
    rcases account_set kind index payload r with ⟨r', ran, account⟩ | ⟨f, r', ran, account⟩
    · rw [ran]
      by_cases logged : kind = .string ∧ r.host.flags.transaction = true
      · obtain ⟨rfl, inside⟩ := id logged
        rw [if_pos logged] at account
        exact .inl ⟨index, ⟨payload, r', rfl, ran, inside⟩, account⟩
      · rw [if_neg logged] at account
        refine .inr ⟨?_, account⟩
        rintro _ ⟨_, _, same, -, inside⟩
        cases same
        exact logged ⟨rfl, inside⟩
    · rw [ran]
      refine .inr ⟨?_, account⟩
      rintro _ ⟨_, _, -, ended, -⟩
      rw [run, ran] at ended
      cases ended
  | get kind index => exact .inr (plain ((keeps_inspect _).bind fun _ => keeps_pure _) nofun)
  | clear kind index => exact .inr (plain (keeps_clear kind index) nofun)
  | getCallSite index => exact .inr (plain ((keeps_inspect _).bind fun _ => keeps_pure _) nofun)
  | setCallSite index candidate =>
    exact .inr (plain ((keeps_setCallSite index candidate).bind fun _ => keeps_pure _) nofun)
  | setOverlay index string => exact .inr (plain (keeps_setOverlay index string) nofun)
  | offerOverlay => exact .inr (plain keeps_offerOverlay nofun)
  | withdrawOverlay => exact .inr (plain (keeps_modify fun _ => rfl) nofun)
  | scan withTables v state =>
    refine .inr (plain (keeps_modify fun r => ?_) nofun)
    exact Prod.ext rfl (r.cache.scan_visited withTables v state).id

end ResolutionCache.Resolver
