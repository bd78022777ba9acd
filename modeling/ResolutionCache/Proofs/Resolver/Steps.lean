import ResolutionCache.Proofs.Attempt
import ResolutionCache.Resolver

/-!
# What the operations of a resolver do

One equation for each operation that changes something: which fault it stops with, and otherwise
which resolver it leaves. An operation that succeeds changes at most one entry of one table, the
overlay, the host's log and the dirty set; nothing else has to be looked at by those who use it.
-/

namespace ResolutionCache

/-- A transaction begins on the compiler, outside any other, and only the flag is changed. -/
theorem Host.of_begin_ok {h h' : Host} (begun : h.begin = .ok h') :
    h.flags.compiler = true ∧ h.flags.transaction = false ∧
      h' = { h with flags := { h.flags with transaction := true } } := by
  unfold begin at begun
  split at begun
  · cases begun
  · split at begun
    · cases begun
    · cases begun
      exact ⟨by simpa using ‹¬ (!_) = true›, by simpa using ‹¬ _ = true›, rfl⟩

namespace Resolver

open Attempt

variable {r r' : Resolver} {kind : SlotKind} {index : UInt32} {slot : Nat}

/-! ### Slots -/

/-- **When an index has a slot, and which.** -/
theorem slot_eq_ok_iff :
    r.slot kind index = .ok slot ↔
      (kind = .methodType → r.host.flags.methodHandles = true) ∧ index < r.cache.ids kind ∧
        isPowerOfTwo (r.cache.settings.capacity kind) = true ∧
        slotOf index (r.cache.settings.capacity kind) = slot ∧
        slot < (r.cache.table kind).size := by
  unfold Resolver.slot slotFor
  by_cases handles : kind = .methodType ∧ (!r.host.flags.methodHandles) = true
  · rw [if_pos handles]
    refine iff_of_false (by simp) fun ⟨allowed, _⟩ => ?_
    rw [allowed handles.1] at handles
    exact absurd handles.2 (by decide)
  · rw [if_neg handles]
    have allowed : kind = .methodType → r.host.flags.methodHandles = true := by
      intro same
      cases on : r.host.flags.methodHandles with
      | true => rfl
      | false => exact absurd ⟨same, by rw [on]; rfl⟩ handles
    by_cases range : r.cache.ids kind ≤ index
    · rw [if_pos range]
      refine iff_of_false (by simp) fun ⟨_, below, _⟩ => ?_
      exact absurd below (UInt32.not_lt.mpr range)
    · rw [if_neg range]
      by_cases power : isPowerOfTwo (r.cache.settings.capacity kind) = true
      · rw [if_pos power]
        show (if slotOf index _ < _ then Except.ok _ else .error _) = _ ↔ _
        split
        · simp only [Except.ok.injEq]
          constructor
          · rintro rfl
            exact ⟨allowed, UInt32.not_le.mp range, power, rfl, ‹_›⟩
          · exact fun ⟨_, _, _, same, _⟩ => same
        · refine iff_of_false (by simp) ?_
          rintro ⟨_, _, _, rfl, held⟩
          exact absurd held ‹_›
      · rw [if_neg power]
        exact iff_of_false (by simp [bind, Except.bind]) fun ⟨_, _, power', _⟩ => power power'

theorem slot_lt (at_slot : r.slot kind index = .ok slot) : slot < (r.cache.table kind).size :=
  (slot_eq_ok_iff.mp at_slot).2.2.2.2

theorem slot_lt_entries (at_slot : r.slot kind index = .ok slot) :
    slot < (r.cache.table kind).entries.size := by
  rw [DirectMap.size_entries]
  exact slot_lt at_slot

theorem inspect_slot (at_slot : r.slot kind index = .ok slot) :
    inspect (Resolver.slot · kind index) r = .ok slot r := inspect_ok at_slot

theorem inspect_slot_error {f : Fault} (refused : r.slot kind index = .error f) :
    inspect (Resolver.slot · kind index) r = .error f r := inspect_error refused

/-! ### Tables -/

/-- The resolver with the entry of one slot replaced. -/
def withEntry (r : Resolver) (kind : SlotKind) (slot : Nat) (e : Entry kind.width) : Resolver :=
  { r with cache := r.cache.mapTable kind (·.replace slot e) }

@[simp] theorem host_withEntry (r : Resolver) (kind : SlotKind) (slot : Nat)
    (e : Entry kind.width) : (r.withEntry kind slot e).host = r.host := rfl

/-- The resolver with its cache remembered as written. -/
def remembered (r : Resolver) : Resolver :=
  { r with dirty := r.dirty.map (·.insert r.cache.id) }

theorem recordString_eq (index : UInt32) (r : Resolver) :
    recordString index r =
      if r.host.flags.transaction then
        if r.host.flags.compiler then .ok () { r with host := r.host.record r.cache.id index }
        else .error .notCompiler r
      else .ok () r := by
  unfold recordString
  rw [bind_ok (get_apply r)]
  split
  · cases compiler : r.host.flags.compiler with
    | true => rfl
    | false => rfl
  · rfl

theorem set_eq (kind : SlotKind) (index : UInt32) (payload : Address kind.width) (r : Resolver) :
    set kind index payload r =
      if payload.isNull then .error .nullPayload r
      else match r.slot kind index with
        | .error f => .error f r
        | .ok slot =>
          let stored := r.withEntry kind slot ⟨payload, index⟩
          if kind = .string then
            match recordString index stored with
            | .ok _ logged => .ok () logged.remembered
            | .error f logged => .error f logged
          else .ok () stored.remembered := by
  unfold set
  cases payload.isNull with
  | true => rfl
  | false =>
    have passed : require (!false) Fault.nullPayload r = .ok () r := rfl
    rw [bind_ok passed]
    cases at_slot : r.slot kind index with
    | error f =>
      rw [bind_error (inspect_slot_error at_slot)]
      rfl
    | ok slot =>
      -- a slot that was answered is held, so the check cannot fail
      have held : inspect (fun r => (r.cache.table kind).check slot) r = .ok () r :=
        inspect_ok (if_pos (slot_lt at_slot))
      have stored : mapTable kind (·.replace slot ⟨payload, index⟩) r =
        .ok () (r.withEntry kind slot ⟨payload, index⟩) := rfl
      rw [bind_ok (inspect_slot at_slot), bind_ok held, bind_ok stored]
      split
      · cases logged : recordString index (r.withEntry kind slot ⟨payload, index⟩) with
        | ok _ r' =>
          rw [bind_ok logged]
          simp only [Bool.false_eq_true, if_false, logged]
          rfl
        | error f r' =>
          rw [bind_error logged]
          simp only [Bool.false_eq_true, if_false, logged]
      · simp only [Bool.false_eq_true, if_false]
        rfl

/-- Clearing a symbol empties its slot if the slot still belongs to it. -/
theorem clear_eq (kind : SlotKind) (index : UInt32) (r : Resolver) :
    clear kind index r =
      if r.host.flags.compiler then
        match r.slot kind index with
        | .error f => .error f r
        | .ok slot =>
          .ok () (if (r.cache.table kind).entries[slot]?.map Entry.owner = some index then
            r.withEntry kind slot (.vacant slot) else r)
      else .error .notCompiler r := by
  unfold clear
  rw [bind_ok (get_apply r)]
  cases compiler : r.host.flags.compiler with
  | false => rfl
  | true =>
    have passed : require true Fault.notCompiler r = .ok () r := rfl
    rw [bind_ok passed, if_pos rfl]
    cases at_slot : r.slot kind index with
    | error f => rw [bind_error (inspect_slot_error at_slot)]
    | ok slot =>
      have held := slot_lt_entries at_slot
      have owned : inspect (fun r => (r.cache.table kind).owns slot index) r =
          .ok (decide ((r.cache.table kind).entries[slot].owner = index)) r := by
        apply inspect_ok
        unfold DirectMap.owns
        rw [DirectMap.load_of_lt held]
        rfl
      have owner : (r.cache.table kind).entries[slot]?.map Entry.owner =
          some (r.cache.table kind).entries[slot].owner := by
        rw [Array.getElem?_eq_getElem held]
        rfl
      rw [bind_ok (inspect_slot at_slot), bind_ok owned]
      simp only [owner, decide_eq_true_eq, Option.some.injEq]
      split <;> rfl

/-! ### Call sites and the overlay -/

/-- The resolver with a call site bound. -/
def withCallSite (r : Resolver) (index : UInt32) (callSite : Ref) : Resolver :=
  { r with cache := { r.cache with
      callSites := r.cache.callSites.replace index.toNat callSite } }

/-- Claiming a call site binds whatever stands; only a binding that is new is remembered. -/
theorem setCallSite_eq (index : UInt32) (candidate : Ref) (r : Resolver) :
    setCallSite index candidate r =
      match r.checkCallSite index with
      | .error f => .error f r
      | .ok _ =>
        match r.cache.callSites.outcome index.toNat candidate with
        | .error f => .error f r
        | .ok outcome =>
          let bound := r.withCallSite index outcome.standing
          .ok outcome.standing (if outcome.isTaken then bound.remembered else bound) := by
  unfold setCallSite
  cases checked : r.checkCallSite index with
  | error f =>
    have refused : inspect (checkCallSite · index) r = .error f r := inspect_error checked
    rw [bind_error refused]
  | ok _ =>
    have allowed : inspect (checkCallSite · index) r = .ok () r := inspect_ok checked
    rw [bind_ok allowed]
    cases answered : r.cache.callSites.outcome index.toNat candidate with
    | error f =>
      have refused : inspect (fun r => r.cache.callSites.outcome index.toNat candidate) r =
        .error f r := inspect_error answered
      rw [bind_error refused]
    | ok outcome =>
      have asked : inspect (fun r => r.cache.callSites.outcome index.toNat candidate) r =
        .ok outcome r := inspect_ok answered
      have bound : bindCallSite index outcome.standing r =
        .ok () (r.withCallSite index outcome.standing) := rfl
      rw [bind_ok asked, bind_ok bound]
      cases outcome <;> rfl

/-- The overlay is written by the compiler alone, outside of transactions, and while it is on. -/
theorem setOverlay_eq (index : UInt32) (string : Ref) (r : Resolver) :
    setOverlay index string r =
      if string.isNull then .error .nullPayload r
      else if r.cache.file.strings ≤ index then .error (.outOfRange .string index) r
      else if !r.host.flags.compiler then .error .overlayOutsideCompiler r
      else if r.host.flags.transaction then .error .overlayInTransaction r
      else match r.cache.overlay.put? index.toNat string with
        | some overlay => .ok () { r with cache := { r.cache with overlay } }.remembered
        | none => .error .overlayOff r := by
  unfold setOverlay
  rw [bind_ok (get_apply r)]
  simp only [require_bind, Bool.not_eq_true', decide_eq_true_eq, ← UInt32.not_lt]
  cases string.isNull with
  | true => rfl
  | false =>
    by_cases range : index < r.cache.file.strings
    · simp only [range, if_true, not_true_eq_false, if_false]
      cases r.host.flags.compiler <;> cases r.host.flags.transaction <;>
        cases r.cache.overlay.put? index.toNat string <;> rfl
    · simp only [range, if_false, not_false_eq_true, if_true]
      rfl

/-- **A string stored in the overlay** changes one entry of it, and the cache is remembered. -/
theorem of_setOverlay_ok {string : Ref} (ran : setOverlay index string r = .ok () r') :
    string ≠ .null ∧ ∃ overlay, r.cache.overlay.put? index.toNat string = some overlay ∧
      r' = { r with cache := { r.cache with overlay } }.remembered := by
  rw [setOverlay_eq] at ran
  split at ran
  case isTrue => cases ran
  have full : string ≠ .null := fun null => ‹¬ _› ((Address.isNull_iff string).mpr null)
  split at ran
  case isTrue => cases ran
  split at ran
  case isTrue => cases ran
  split at ran
  case isTrue => cases ran
  cases stored : r.cache.overlay.put? index.toNat string with
  | none => rw [stored] at ran; cases ran
  | some overlay =>
    rw [stored] at ran
    cases ran
    exact ⟨full, overlay, rfl, rfl⟩

/-- Switching the overlay on changes the overlay alone. -/
theorem of_offerOverlay_ok (ran : offerOverlay r = .ok () r') :
    r'.cache = { r.cache with overlay := r.cache.overlay.offer } ∧ r'.host = r.host := by
  unfold offerOverlay at ran
  rw [bind_ok (get_apply r)] at ran
  obtain ⟨_, _, compiler, ran⟩ := of_bind_ok ran
  obtain ⟨-, rfl⟩ := of_require_ok compiler
  cases ran
  exact ⟨rfl, rfl⟩

end Resolver

end ResolutionCache
