import ResolutionCache.Proofs.Resolver.Lookups
import ResolutionCache.Proofs.Resolver.Transaction

/-!
# What an action does to a cache

An action that stops with a fault may have changed the cache all the same: a string is stored before
it is logged. So what an action can do to a cache is said once and for all, whether it ends or stops
(`Resolver.effect_run`): it stores one entry, empties one slot, binds one call site, does something
to the overlay, leads a visitor over the roots, or changes nothing. What an action that ends does to
the dirty set depends on whether it writes (`Resolver.dirty_run`).
-/

namespace ResolutionCache

/-- Putting back what is there changes nothing. -/
theorem setIfInBounds_eq_self {α : Type} {xs : Array α} {i : Nat} {a : α}
    (there : xs[i]? = some a) : xs.setIfInBounds i a = xs := by
  obtain ⟨below, rfl⟩ := Array.getElem?_eq_some_iff.mp there
  rw [Array.setIfInBounds_def, dif_pos below, Array.set_getElem_self]

namespace ClaimTable

variable {t : ClaimTable} {index : Nat} {candidate held : Ref}

/-- A candidate is taken if it is not null and nothing is bound. -/
theorem outcome_eq_taken_iff :
    t.outcome index candidate = .ok (.taken held) ↔
      held = candidate ∧ candidate ≠ .null ∧ t.lookup index = .ok none := by
  unfold outcome
  by_cases null : candidate = .null
  · simp [null]
  · rw [if_neg (mt (Address.isNull_iff candidate).mp null)]
    cases found : t.lookup index with
    | error f => simp [bind, Except.bind]
    | ok bound => cases bound <;> simp [bind, Except.bind, pure, Except.pure, null, eq_comm]

/-- A candidate that is not null is refused if something is bound. -/
theorem outcome_eq_refused_iff :
    t.outcome index candidate = .ok (.refused held) ↔
      candidate ≠ .null ∧ t.lookup index = .ok (some held) := by
  unfold outcome
  by_cases null : candidate = .null
  · simp [null]
  · rw [if_neg (mt (Address.isNull_iff candidate).mp null)]
    cases found : t.lookup index with
    | error f => simp [bind, Except.bind]
    | ok bound => cases bound <;> simp [bind, Except.bind, pure, Except.pure, null]

/-- **What is bound at an index.** -/
theorem lookup_eq_ok_iff {found : Option Ref} :
    t.lookup index = .ok found ↔ ∃ a, t.entries[index]? = some a ∧ a.nonNull = found := by
  unfold lookup
  split
  · rw [Array.getElem?_eq_getElem ‹_›]
    simp
  · rw [Array.getElem?_eq_none (Nat.le_of_not_lt ‹_›)]
    simp

/-- Binding what is bound changes nothing. -/
theorem replace_of_bound (bound : t.lookup index = .ok (some held)) : t.replace index held = t := by
  obtain ⟨a, there, full⟩ := lookup_eq_ok_iff.mp bound
  obtain ⟨rfl, -⟩ := Address.nonNull_eq_some_iff.mp full
  exact congrArg ClaimTable.mk (setIfInBounds_eq_self there)

/-- Binding one index leaves the others alone. -/
theorem lookup_replace_of_ne {other : Nat} (ne : index ≠ other) (a : Ref) :
    (t.replace index a).lookup other = t.lookup other := by
  simp only [lookup, replace, size, Array.size_setIfInBounds]
  split
  · rw [Array.getElem_setIfInBounds_ne ‹_› ne]
  · rfl

end ClaimTable

namespace Resolver

open Attempt

variable {r r' : Resolver} {a : Action} {kind : SlotKind} {index : UInt32}

/-- **The claim wins:** it passes its checks, and its candidate is taken. -/
def Wins (r : Resolver) (index : UInt32) (candidate : Ref) : Prop :=
  r.checkCallSite index = .ok () ∧
    r.cache.callSites.outcome index.toNat candidate = .ok (.taken candidate)

/-- **The action writes,** if it ends: it sets a symbol or a pre-resolved string, or it claims a
call site and wins. -/
def Writes (r : Resolver) : Action → Prop
  | .set .. => True
  | .setOverlay .. => True
  | .setCallSite index candidate => r.Wins index candidate
  | _ => False

/-- **The action may leave the cache as it is:** it is no claim that wins and no pass, and it does
not switch the overlay off. -/
def Idles (r : Resolver) : Action → Prop
  | .setCallSite index candidate => ¬ r.Wins index candidate
  | .withdrawOverlay => False
  | .scan .. => False
  | _ => True

/-! ### Effects -/

/-- **What an action does to the cache of a resolver.** -/
inductive Effect (r : Resolver) : Action → Cache → Prop where
  | stored {kind : SlotKind} {index : UInt32} {payload : Address kind.width} {slot : Nat} :
    payload ≠ .null → r.slot kind index = .ok slot →
    Effect r (.set kind index payload) (r.withEntry kind slot ⟨payload, index⟩).cache
  | vacated {kind : SlotKind} {index : UInt32} {slot : Nat} :
    Effect r (.clear kind index) (r.withEntry kind slot (.vacant slot)).cache
  | bound {index : UInt32} {candidate : Ref} : r.Wins index candidate →
    Effect r (.setCallSite index candidate) (r.withCallSite index candidate).cache
  | pinned {index : UInt32} {string : Ref} {overlay : Overlay} :
    r.cache.overlay.put? index.toNat string = some overlay →
    Effect r (.setOverlay index string) { r.cache with overlay }
  | offered : Effect r .offerOverlay { r.cache with overlay := r.cache.overlay.offer }
  | withdrawn : Effect r .withdrawOverlay { r.cache with overlay := r.cache.overlay.withdraw }
  | visited {withTables : Bool} {σ : Type} {v : Visitor 32 σ} {state : σ} :
    Effect r (.scan withTables v state) (r.cache.scan withTables v state).1
  | unchanged {a : Action} : r.Idles a → Effect r a r.cache

/-- Logging a string leaves the cache and the dirty set alone, whether it ends or stops. -/
theorem left_recordString (index : UInt32) (r : Resolver) :
    (left (recordString index r)).cache = r.cache ∧
      (left (recordString index r)).dirty = r.dirty := by
  rw [recordString_eq]
  repeat' split
  all_goals exact ⟨rfl, rfl⟩

/-- **What a set leaves:** the entry, if its checks are passed. The entry stands, also if it cannot
be logged. -/
theorem cache_left_set (kind : SlotKind) (index : UInt32) (payload : Address kind.width)
    (r : Resolver) :
    (left (set kind index payload r)).cache =
      if payload = .null then r.cache
      else match r.slot kind index with
        | .error _ => r.cache
        | .ok slot => (r.withEntry kind slot ⟨payload, index⟩).cache := by
  rw [set_eq]
  simp only [Address.isNull_iff]
  split
  · rfl
  · cases r.slot kind index with
    | error f => rfl
    | ok slot =>
      dsimp only
      split
      · subst ‹kind = .string›
        have kept := left_recordString index (r.withEntry .string slot ⟨payload, index⟩)
        rw [← kept.1]
        cases recordString index (r.withEntry .string slot ⟨payload, index⟩) <;> rfl
      · rfl

theorem effect_set (kind : SlotKind) (index : UInt32) (payload : Address kind.width)
    (r : Resolver) :
    r.Effect (.set kind index payload) (left (set kind index payload r)).cache := by
  rw [cache_left_set]
  split
  · exact .unchanged trivial
  · cases at_slot : r.slot kind index with
    | error f => exact .unchanged trivial
    | ok slot => exact .stored ‹payload ≠ .null› at_slot

theorem effect_clear (kind : SlotKind) (index : UInt32) (r : Resolver) :
    r.Effect (.clear kind index) (left (clear kind index r)).cache := by
  rw [clear_eq]
  split
  · cases r.slot kind index with
    | error f => exact .unchanged trivial
    | ok slot =>
      show r.Effect _ (if _ then _ else _ : Resolver).cache
      split
      · exact .vacated
      · exact .unchanged trivial
  · exact .unchanged trivial

/-- **What a claim does:** if it wins its candidate is bound and the cache is remembered, otherwise
nothing changes. -/
theorem setCallSite_cases (index : UInt32) (candidate : Ref) (r : Resolver) :
    (r.Wins index candidate ∧
      setCallSite index candidate r = .ok candidate (r.withCallSite index candidate).remembered) ∨
    (¬ r.Wins index candidate ∧ left (setCallSite index candidate r) = r) := by
  rw [setCallSite_eq]
  unfold Wins
  cases checked : r.checkCallSite index with
  | error f => exact .inr ⟨nofun, rfl⟩
  | ok _ =>
    cases answered : r.cache.callSites.outcome index.toNat candidate with
    | error f => exact .inr ⟨nofun, rfl⟩
    | ok outcome =>
      cases outcome with
      | taken standing =>
        obtain ⟨rfl, -⟩ := ClaimTable.outcome_eq_taken_iff.mp answered
        exact .inl ⟨⟨rfl, rfl⟩, rfl⟩
      | refused standing =>
        obtain ⟨-, bound⟩ := ClaimTable.outcome_eq_refused_iff.mp answered
        refine .inr ⟨nofun, ?_⟩
        show r.withCallSite index standing = r
        unfold withCallSite
        rw [ClaimTable.replace_of_bound bound]

theorem effect_setOverlay (index : UInt32) (string : Ref) (r : Resolver) :
    r.Effect (.setOverlay index string) (left (setOverlay index string r)).cache := by
  rw [setOverlay_eq]
  -- four checks, each of which may stop it
  split
  · exact .unchanged trivial
  split
  · exact .unchanged trivial
  split
  · exact .unchanged trivial
  split
  · exact .unchanged trivial
  split
  · exact .pinned ‹_›
  · exact .unchanged trivial

theorem effect_offerOverlay (r : Resolver) :
    r.Effect .offerOverlay (left (offerOverlay r)).cache := by
  unfold offerOverlay
  rw [bind_ok (get_apply r), require_bind]
  split
  · exact .offered
  · exact .unchanged trivial

/-- **Every action has its effect,** whether it ends or stops with a fault. -/
theorem effect_run (a : Action) (r : Resolver) : r.Effect a (left (a.run r)).cache := by
  cases a with
  | get kind index =>
    have kept : left ((Action.get kind index).run r) = r :=
      (left_drop _ () r).trans (left_inspect _ r)
    rw [kept]
    exact .unchanged trivial
  | set kind index payload => exact effect_set kind index payload r
  | clear kind index => exact effect_clear kind index r
  | getCallSite index =>
    have kept : left ((Action.getCallSite index).run r) = r :=
      (left_drop _ () r).trans (left_inspect _ r)
    rw [kept]
    exact .unchanged trivial
  | setCallSite index candidate =>
    have dropped : left ((Action.setCallSite index candidate).run r) =
        left (setCallSite index candidate r) := left_drop _ () r
    rw [dropped]
    rcases setCallSite_cases index candidate r with ⟨wins, ran⟩ | ⟨loses, kept⟩
    · rw [ran]
      exact .bound wins
    · rw [kept]
      exact .unchanged loses
  | setOverlay index string => exact effect_setOverlay index string r
  | offerOverlay => exact effect_offerOverlay r
  | withdrawOverlay => exact .withdrawn
  | scan withTables v state => exact .visited

/-- No action changes the identity of a cache, its file or its capacities. -/
theorem Effect.kept {c' : Cache} (effect : r.Effect a c') :
    c'.id = r.cache.id ∧ c'.file = r.cache.file ∧ c'.settings = r.cache.settings := by
  cases effect with
  | @stored kind index payload slot =>
    have same := r.sameLayout_withEntry kind slot ⟨payload, index⟩
    exact ⟨by cases kind <;> rfl, same.file, same.settings⟩
  | @vacated kind index slot =>
    have same := r.sameLayout_withEntry kind slot (.vacant slot)
    exact ⟨by cases kind <;> rfl, same.file, same.settings⟩
  | visited =>
    have visited := r.cache.scan_visited ‹_› ‹_› ‹_›
    exact ⟨visited.id, visited.file, visited.settings⟩
  | bound | pinned | offered | withdrawn | unchanged => exact ⟨rfl, rfl, rfl⟩

/-! ### The dirty set -/

theorem dirty_set {payload : Address kind.width} (ran : set kind index payload r = .ok () r') :
    r'.dirty = r.remembered.dirty := by
  rw [set_eq] at ran
  split at ran
  case isTrue => cases ran
  cases at_slot : r.slot kind index with
  | error f => rw [at_slot] at ran; cases ran
  | ok slot =>
    rw [at_slot] at ran
    have id : (r.withEntry kind slot ⟨payload, index⟩).cache.id = r.cache.id := by
      cases kind <;> rfl
    simp only at ran
    split at ran
    · subst ‹kind = .string›
      have kept := left_recordString index (r.withEntry .string slot ⟨payload, index⟩)
      split at ran
      case h_2 => cases ran
      case h_1 logged logs =>
        cases ran
        rw [logs] at kept
        obtain ⟨cache, dirty⟩ : logged.cache = _ ∧ logged.dirty = _ := kept
        simp only [remembered]
        rw [cache, dirty, id]
        rfl
    · cases ran
      simp only [remembered]
      rw [id]
      rfl

theorem keeps_dirty_clear (kind : SlotKind) (index : UInt32) :
    Keeps Resolver.dirty (clear kind index) := by
  intro r
  rw [clear_eq]
  split
  · cases r.slot kind index with
    | error f => rfl
    | ok slot =>
      show (if _ then _ else _ : Resolver).dirty = _
      split <;> rfl
  · rfl

/-- Forgetting strings is not remembered. -/
theorem keeps_dirty_clearStrings (indices : List UInt32) :
    Keeps Resolver.dirty (clearStrings indices) := by
  induction indices with
  | nil => exact keeps_pure _
  | cons index rest ih => exact (keeps_dirty_clear .string index).bind fun _ => ih

/-- **What an action that ends does to the dirty set:** it remembers the cache if it writes, and
nothing otherwise. -/
theorem dirty_run (ran : a.run r = .ok () r') :
    (r.Writes a ∧ r'.dirty = r.remembered.dirty) ∨ (¬ r.Writes a ∧ r'.dirty = r.dirty) := by
  cases a with
  | get kind index =>
    obtain ⟨_, _, asked, ended⟩ := of_bind_ok ran
    obtain ⟨-, rfl⟩ := of_inspect_ok asked
    cases ended
    exact .inr ⟨nofun, rfl⟩
  | set kind index payload => exact .inl ⟨trivial, dirty_set ran⟩
  | clear kind index =>
    obtain ⟨-, slot, -, rfl⟩ := of_clear_ok ran
    refine .inr ⟨nofun, ?_⟩
    split <;> rfl
  | getCallSite index =>
    obtain ⟨_, _, asked, ended⟩ := of_bind_ok ran
    obtain ⟨-, rfl⟩ := of_inspect_ok asked
    cases ended
    exact .inr ⟨nofun, rfl⟩
  | setCallSite index candidate =>
    obtain ⟨_, _, claimed, ended⟩ := of_bind_ok ran
    cases ended
    rcases setCallSite_cases index candidate r with ⟨wins, done⟩ | ⟨loses, kept⟩
    · rw [done] at claimed
      cases claimed
      exact .inl ⟨wins, rfl⟩
    · rw [claimed] at kept
      exact .inr ⟨loses, congrArg Resolver.dirty kept⟩
  | setOverlay index string =>
    obtain ⟨-, overlay, -, rfl⟩ := of_setOverlay_ok ran
    exact .inl ⟨trivial, rfl⟩
  | offerOverlay =>
    change offerOverlay r = _ at ran
    unfold offerOverlay at ran
    rw [bind_ok (get_apply r), require_bind] at ran
    split at ran
    · cases ran
      exact .inr ⟨nofun, rfl⟩
    · cases ran
  | withdrawOverlay =>
    cases ran
    exact .inr ⟨nofun, rfl⟩
  | scan withTables v state =>
    cases ran
    exact .inr ⟨nofun, rfl⟩

end Resolver

end ResolutionCache
