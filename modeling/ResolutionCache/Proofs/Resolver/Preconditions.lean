import ResolutionCache.Proofs.Resolver.Effects
import ResolutionCache.Proofs.Resolver.Overlays

/-!
# Preconditions

What an action asks for is a list of conditions, each with the fault that a refusal is reported by
(`Action.preconditions`). They speak of the arguments, of the numbers of symbols in the file, of the
host's flags and of whether the overlay is on, and of nothing else. An action stops exactly if one
of them fails, with the fault of the first that does (`Resolver.fault?_run`).

The other checks are the program's own: that a capacity is a power of two, that a slot is held, that
an access is within bounds. They cannot fail in a cache that is `Cache.LaidOut`. A new cache is, and
every action leaves it so, whatever visitors answer (`Resolver.Effect.laidOut`).
-/

namespace ResolutionCache

/-- The fault of the first condition that does not hold. -/
def firstUnmet (conditions : List (Bool × Fault)) : Option Fault :=
  (conditions.find? (!·.1)).map Prod.snd

@[simp] theorem firstUnmet_nil : firstUnmet [] = none := rfl

theorem firstUnmet_cons (condition : Bool) (fault : Fault) (rest : List (Bool × Fault)) :
    firstUnmet ((condition, fault) :: rest) =
      if condition then firstUnmet rest else some fault := by
  unfold firstUnmet
  rw [List.find?_cons]
  cases condition <;> rfl

theorem firstUnmet_append (before after : List (Bool × Fault)) :
    firstUnmet (before ++ after) = (firstUnmet before).or (firstUnmet after) := by
  unfold firstUnmet
  rw [List.find?_append]
  cases before.find? (!·.1) <;> rfl

/-- What is reported is a condition that fails. -/
theorem of_firstUnmet_eq_some {conditions : List (Bool × Fault)} {fault : Fault}
    (unmet : firstUnmet conditions = some fault) : (false, fault) ∈ conditions := by
  obtain ⟨⟨condition, _⟩, found, rfl⟩ := Option.map_eq_some_iff.mp unmet
  obtain rfl : condition = false := by simpa using List.find?_some found
  exact List.mem_of_find?_eq_some found

/-- Nothing is reported exactly if all conditions hold. -/
theorem firstUnmet_eq_none_iff {conditions : List (Bool × Fault)} :
    firstUnmet conditions = none ↔ ∀ condition ∈ conditions, condition.1 = true := by
  simp [firstUnmet]

/-- **A check of the program's own,** as opposed to one of a caller. -/
def Fault.internal : Fault → Bool
  | .capacityNotPowerOfTwo | .slotNotHeld _ | .outOfBounds .. => true
  | _ => false

namespace Action

/-- What an index of a direct mapped kind has to meet. -/
def located (file : SymbolFile) (flags : HostFlags) (kind : SlotKind) (index : UInt32) :
    List (Bool × Fault) :=
  [(kind ≠ .methodType || flags.methodHandles, .noMethodHandles),
    (index < file.count kind.space, .outOfRange kind.space index)]

/-- What an index of a call site has to meet. -/
def callable (file : SymbolFile) (flags : HostFlags) (index : UInt32) : List (Bool × Fault) :=
  [(flags.methodHandles, .noMethodHandles),
    (index < file.callSites, .outOfRange .callSite index)]

/-- **The preconditions of an action,** in the order in which they are checked. -/
def preconditions (file : SymbolFile) (flags : HostFlags) (overlaid : Bool) :
    Action → List (Bool × Fault)
  | .get kind index => located file flags kind index
  | .set kind index payload =>
    (!payload.isNull, .nullPayload) :: located file flags kind index ++
      [(kind ≠ .string || !flags.transaction || flags.compiler, .notCompiler)]
  | .clear kind index => (flags.compiler, .notCompiler) :: located file flags kind index
  | .getCallSite index => callable file flags index
  | .setCallSite index candidate =>
    callable file flags index ++ [(!candidate.isNull, .nullCandidate)]
  | .setOverlay index string =>
    [(!string.isNull, .nullPayload), (index < file.strings, .outOfRange .string index),
      (flags.compiler, .overlayOutsideCompiler), (!flags.transaction, .overlayInTransaction),
      (overlaid, .overlayOff)]
  | .offerOverlay => [(flags.compiler, .notCompiler)]
  | .withdrawOverlay | .scan .. => []

/-- No precondition is reported as a check of the program's own. -/
theorem not_internal_of_mem_preconditions {file : SymbolFile} {flags : HostFlags} {overlaid : Bool}
    {a : Action} {condition : Bool × Fault}
    (mem : condition ∈ a.preconditions file flags overlaid) : condition.2.internal = false := by
  cases a <;> simp only [preconditions, located, callable, List.mem_cons, List.not_mem_nil,
    or_false, List.cons_append, List.nil_append] at mem <;> grind [Fault.internal]

end Action

/-! ### The layout of a cache -/

namespace Overlay

/-- A pass replaces references and leaves the overlay in order. -/
theorem Coherent.scan {σ : Type} {o : Overlay} (coherent : o.Coherent) (v : Visitor 32 σ) (s : σ) :
    (o.scan v s).1.Coherent := by
  unfold Overlay.scan
  cases found : o.entries? with
  | none => exact coherent
  | some array =>
    unfold entries? at found
    split at found
    · refine ⟨?_, fun _ => ⟨_, rfl⟩, coherent.announced⟩
      intro after same
      cases same
      have sizes := (Visitor.pointwise_mapM v.meet array s).size_eq
      exact sizes.symm.trans (coherent.sized array found)
    · cases found

/-- No pass changes the size of an overlay. -/
theorem size_scan {σ : Type} (v : Visitor 32 σ) (o : Overlay) (s : σ) :
    (o.scan v s).1.size = o.size := by
  rw [(o.scan_met v s).1]

end Overlay

/-- **A cache as it was laid out:** its capacities can be used, its tables have the sizes that the
capacities and the numbers of symbols give them, and its overlay is in order. -/
structure Cache.LaidOut (c : Cache) : Prop where
  usable : ∀ kind, UsableCapacity (c.settings.capacity kind)
  tables : ∀ kind, (c.table kind).size = slotCount (c.settings.capacity kind) (c.ids kind)
  callSites : c.callSites.size = c.file.callSites.toNat
  coherent : c.overlay.Coherent
  overlay : c.overlay.size = c.file.strings.toNat

namespace Cache

variable {c : Cache} {σ : Type}

theorem laidOut_of_create_ok {id : CacheId} {file : SymbolFile} {location : Ref}
    {overrides : Overrides} (created : create id file location overrides = .ok c) : c.LaidOut := by
  obtain ⟨accepted, -, new⟩ := of_create_ok created
  constructor
  case usable => exact Settings.usable_of_ofOverrides accepted
  case tables =>
    intro kind
    rw [new.tables, DirectMap.size_fresh, ids, new.serves]
  case callSites => rw [new.callSites, ClaimTable.size_fresh, new.serves]
  case coherent =>
    rw [new.overlay]
    exact Overlay.coherent_ofSize _
  case overlay =>
    rw [new.overlay, new.serves]
    rfl

/-- What keeps the sizes keeps the layout, if the overlay is in order. -/
theorem LaidOut.congr {c' : Cache} (laidOut : c.LaidOut) (settings : c'.settings = c.settings)
    (file : c'.file = c.file) (tables : ∀ kind, (c'.table kind).size = (c.table kind).size)
    (callSites : c'.callSites.size = c.callSites.size) (coherent : c'.overlay.Coherent)
    (overlay : c'.overlay.size = c.overlay.size) : c'.LaidOut where
  usable := by rw [settings]; exact laidOut.usable
  tables kind := by rw [tables, settings, ids, file]; exact laidOut.tables kind
  callSites := by rw [callSites, file]; exact laidOut.callSites
  coherent := coherent
  overlay := by rw [overlay, file]; exact laidOut.overlay

theorem LaidOut.scan (laidOut : c.LaidOut) (withTables : Bool) (v : Visitor 32 σ) (s : σ) :
    (c.scan withTables v s).1.LaidOut := by
  cases withTables with
  | false =>
    exact laidOut.congr rfl rfl (fun kind => by cases kind <;> rfl) rfl laidOut.coherent rfl
  | true =>
    have scanned : (c.scan true v s).1 = (c.scanWith true v.counting (s, 0)).1 := rfl
    have table (m : DirectMap 32) (s : σ × Nat) : (m.scan v.counting s).1.size = m.size := by
      rw [← DirectMap.size_entries, ← DirectMap.size_entries]
      exact (m.scan_met v.counting s).size_eq.symm
    rw [scanned, scanWith_eq]
    refine laidOut.congr rfl rfl (fun kind => ?_) ?_ (laidOut.coherent.scan _ _)
      (c.overlay.size_scan _ _)
    · cases kind with
      | string | type | methodType => exact table _ _
      | field | method => rfl
    · exact (c.callSites.scan_met v.counting _).size_eq.symm

end Cache

namespace Resolver

open Attempt

variable {r : Resolver} {a : Action} {c' : Cache} {kind : SlotKind} {index : UInt32}

theorem laidOut_withEntry (laidOut : r.cache.LaidOut) (kind : SlotKind) (slot : Nat)
    (e : Entry kind.width) : (r.withEntry kind slot e).cache.LaidOut := by
  have same := r.sameLayout_withEntry kind slot e
  have overlay := r.overlay_withEntry kind slot e
  refine laidOut.congr same.settings same.file same.sizes ?_ ?_ (congrArg Overlay.size overlay)
  · cases kind <;> rfl
  · rw [overlay]
    exact laidOut.coherent

/-- **Whatever an action does to a cache** leaves it as it was laid out. -/
theorem Effect.laidOut (effect : r.Effect a c') (laidOut : r.cache.LaidOut) : c'.LaidOut := by
  have tables {callSites : ClaimTable} {overlay : Overlay} (kind : SlotKind) :
      (({ r.cache with callSites, overlay } : Cache).table kind).size =
        (r.cache.table kind).size := by
    cases kind <;> rfl
  cases effect with
  | stored => exact laidOut_withEntry laidOut _ _ _
  | vacated => exact laidOut_withEntry laidOut _ _ _
  | visited => exact laidOut.scan _ _ _
  | unchanged => exact laidOut
  | bound => exact laidOut.congr rfl rfl tables Array.size_setIfInBounds laidOut.coherent rfl
  | pinned put =>
    obtain ⟨-, rfl⟩ := Overlay.of_put?_eq_some put
    exact laidOut.congr rfl rfl tables rfl (laidOut.coherent.put put) rfl
  | offered => exact laidOut.congr rfl rfl tables rfl laidOut.coherent.offer rfl
  | withdrawn => exact laidOut.congr rfl rfl tables rfl laidOut.coherent.withdraw rfl

/-! ### Which fault an action stops with -/

/-- The fault that an attempt stopped with. -/
def fault? {ε σ α : Type} : EStateM.Result ε σ α → Option ε
  | .ok _ _ => none
  | .error fault _ => some fault

/-- The fault that a question was refused with. -/
def refusal? {ε α : Type} : Except ε α → Option ε
  | .ok _ => none
  | .error fault => some fault

theorem fault?_inspect {ε σ α : Type} (question : σ → Except ε α) (s : σ) :
    fault? (inspect question s) = refusal? (question s) := by
  unfold inspect
  cases question s <;> rfl

/-- An answer that is dropped does not matter. -/
theorem fault?_drop {ε σ α : Type} (action : EStateM ε σ α) (s : σ) :
    fault? ((do let _ ← action : EStateM ε σ Unit) s) = fault? (action s) := by
  cases ran : action s with
  | ok a s' => rw [bind_ok ran]; rfl
  | error e s' => rw [bind_error ran]; rfl

/-- An index of the file has a slot. -/
theorem slot_of_laidOut (laidOut : r.cache.LaidOut)
    (handles : kind = .methodType → r.host.flags.methodHandles = true)
    (range : index < r.cache.ids kind) :
    r.slot kind index = .ok (slotOf index (r.cache.settings.capacity kind)) := by
  have usable := laidOut.usable kind
  refine slot_eq_ok_iff.mpr ⟨handles, range, usable.isPowerOfTwo, rfl, ?_⟩
  rw [laidOut.tables]
  exact slotOf_lt_slotCount usable range

/-- **The slot of an index is refused** for what the index does not meet, and for nothing else: the
capacity is a power of two, and the slot is held. -/
theorem refusal?_slot (laidOut : r.cache.LaidOut) (kind : SlotKind) (index : UInt32) :
    refusal? (r.slot kind index) =
      firstUnmet (Action.located r.cache.file r.host.flags kind index) := by
  have usable := laidOut.usable kind
  unfold Resolver.slot Cache.ids
  simp only [Action.located, firstUnmet_cons]
  by_cases handles : kind = .methodType ∧ (!r.host.flags.methodHandles) = true
  · obtain ⟨rfl, off⟩ := handles
    simp_all [refusal?]
  · have allowed : (decide (kind ≠ .methodType) || r.host.flags.methodHandles) = true := by
      by_cases same : kind = .methodType <;> simp_all
    rw [if_neg handles, if_pos allowed]
    by_cases range : index < r.cache.file.count kind.space
    · have held : slotOf index (r.cache.settings.capacity kind) < (r.cache.table kind).size := by
        rw [laidOut.tables]
        exact slotOf_lt_slotCount usable range
      have given : slotFor index (r.cache.settings.capacity kind) = .ok (slotOf index _) :=
        if_pos usable.isPowerOfTwo
      rw [if_neg (UInt32.not_le.mpr range), given, if_pos (decide_eq_true range)]
      show refusal? (if _ then _ else _) = _
      rw [if_pos held]
      rfl
    · rw [if_pos (UInt32.not_lt.mp range), if_neg (by simpa using range)]
      rfl

theorem refusal?_slotted (laidOut : r.cache.LaidOut) (kind : SlotKind) (index : UInt32) :
    refusal? (r.slotted kind index) =
      firstUnmet (Action.located r.cache.file r.host.flags kind index) := by
  rw [← refusal?_slot laidOut]
  cases at_slot : r.slot kind index with
  | ok slot =>
    rw [slotted_of_ok at_slot]
    rfl
  | error fault =>
    unfold slotted
    rw [at_slot]
    rfl

/-- **A string that the overlay answers** is one of the file's, so it could not have been
refused. -/
theorem refusal?_get (laidOut : r.cache.LaidOut) (kind : SlotKind) (index : UInt32) :
    refusal? (r.get kind index) =
      firstUnmet (Action.located r.cache.file r.host.flags kind index) := by
  cases kind with
  | type | methodType | field | method => exact refusal?_slotted laidOut _ index
  | string =>
    rw [get_string]
    cases found : r.cache.overlay.lookup index.toNat with
    | none => exact refusal?_slotted laidOut .string index
    | some string =>
      have reached : r.cache.overlay.reaches index.toNat = true := by
        unfold Overlay.lookup at found
        split at found
        · assumption
        · cases found
      rw [laidOut.coherent.reaches_eq, laidOut.overlay, Bool.and_eq_true, decide_eq_true_eq,
        ← UInt32.lt_iff_toNat_lt] at reached
      simp [Action.located, firstUnmet_cons, SymbolFile.count, SlotKind.space, refusal?, reached.2]

theorem refusal?_checkCallSite (r : Resolver) (index : UInt32) :
    refusal? (r.checkCallSite index) =
      firstUnmet (Action.callable r.cache.file r.host.flags index) := by
  unfold checkCallSite
  simp only [Action.callable, firstUnmet_cons, firstUnmet_nil, ← UInt32.not_lt]
  cases r.host.flags.methodHandles with
  | false => rfl
  | true => by_cases range : index < r.cache.file.callSites <;> simp [range, refusal?]

/-- A call site that is one of the file's has an entry. -/
theorem lookup_of_checkCallSite (laidOut : r.cache.LaidOut)
    (checked : r.checkCallSite index = .ok ()) :
    ∃ found, r.cache.callSites.lookup index.toNat = .ok found := by
  have met := refusal?_checkCallSite r index
  rw [checked] at met
  have range := firstUnmet_eq_none_iff.mp met.symm (_, .outOfRange .callSite index)
    (List.mem_cons_of_mem _ List.mem_cons_self)
  have below : index.toNat < r.cache.callSites.entries.size := by
    have size : r.cache.callSites.entries.size = r.cache.file.callSites.toNat := laidOut.callSites
    rw [size, ← UInt32.lt_iff_toNat_lt]
    exact of_decide_eq_true range
  exact ⟨_, dif_pos below⟩

theorem refusal?_getCallSite (laidOut : r.cache.LaidOut) (index : UInt32) :
    refusal? (r.getCallSite index) =
      firstUnmet (Action.callable r.cache.file r.host.flags index) := by
  rw [← refusal?_checkCallSite]
  unfold getCallSite
  cases checked : r.checkCallSite index with
  | error fault => rfl
  | ok _ =>
    obtain ⟨found, there⟩ := lookup_of_checkCallSite laidOut checked
    rw [there]
    rfl

/-- Logging asks for the compiler if there is a transaction. -/
theorem fault?_recordString (index : UInt32) (r : Resolver) :
    fault? (recordString index r) =
      firstUnmet [(!r.host.flags.transaction || r.host.flags.compiler, .notCompiler)] := by
  rw [recordString_eq, firstUnmet_cons]
  cases r.host.flags.transaction <;> cases r.host.flags.compiler <;> rfl

/-- A set has stored its payload by the time that a string may have to be logged. -/
theorem fault?_set (laidOut : r.cache.LaidOut) (kind : SlotKind) (index : UInt32)
    (payload : Address kind.width) :
    fault? (set kind index payload r) =
      firstUnmet ((Action.set kind index payload).preconditions r.cache.file r.host.flags
        r.cache.overlay.offered) := by
  rw [set_eq]
  simp only [Action.preconditions, List.cons_append, firstUnmet_cons, firstUnmet_append,
    ← refusal?_slot laidOut]
  cases payload.isNull with
  | true => rfl
  | false =>
    cases at_slot : r.slot kind index with
    | error fault => rfl
    | ok slot =>
      have logging := fault?_recordString index (r.withEntry kind slot ⟨payload, index⟩)
      rw [firstUnmet_cons] at logging
      by_cases string : kind = .string
      · simp only [string, Bool.false_eq_true, if_true, if_false]
        generalize recordString index (r.withEntry kind slot ⟨payload, index⟩) = logged
          at logging ⊢
        cases logged with
        | ok _ _ => exact logging
        | error _ _ => exact logging
      · simp [string, fault?, refusal?]

theorem fault?_clear (laidOut : r.cache.LaidOut) (kind : SlotKind) (index : UInt32) :
    fault? (clear kind index r) =
      firstUnmet ((Action.clear kind index).preconditions r.cache.file r.host.flags
        r.cache.overlay.offered) := by
  rw [clear_eq]
  simp only [Action.preconditions, firstUnmet_cons, ← refusal?_slot laidOut]
  cases r.host.flags.compiler with
  | false => rfl
  | true => cases r.slot kind index <;> rfl

theorem fault?_setCallSite (laidOut : r.cache.LaidOut) (index : UInt32) (candidate : Ref) :
    fault? (setCallSite index candidate r) =
      firstUnmet ((Action.setCallSite index candidate).preconditions r.cache.file r.host.flags
        r.cache.overlay.offered) := by
  rw [setCallSite_eq]
  simp only [Action.preconditions, firstUnmet_append, ← refusal?_checkCallSite]
  cases checked : r.checkCallSite index with
  | error fault => rfl
  | ok _ =>
    obtain ⟨found, there⟩ := lookup_of_checkCallSite laidOut checked
    have outcome : r.cache.callSites.outcome index.toNat candidate =
        if candidate.isNull then .error .nullCandidate
        else .ok (found.elim (.taken candidate) .refused) := by
      unfold ClaimTable.outcome
      rw [there]
      cases found <;> rfl
    rw [outcome, firstUnmet_cons]
    cases candidate.isNull <;> rfl

/-- While the overlay is on, each string of the file has an entry there. -/
theorem fault?_setOverlay (laidOut : r.cache.LaidOut) (index : UInt32) (string : Ref) :
    fault? (setOverlay index string r) =
      firstUnmet ((Action.setOverlay index string).preconditions r.cache.file r.host.flags
        r.cache.overlay.offered) := by
  rw [setOverlay_eq]
  simp only [Action.preconditions, firstUnmet_cons, firstUnmet_nil, ← UInt32.not_lt]
  cases string.isNull with
  | true => rfl
  | false =>
    by_cases range : index < r.cache.file.strings
    · have reached : r.cache.overlay.reaches index.toNat = r.cache.overlay.offered := by
        have below := UInt32.lt_iff_toNat_lt.mp range
        rw [laidOut.coherent.reaches_eq, laidOut.overlay]
        simp [below]
      simp only [range, Overlay.put?, reached]
      cases r.host.flags.compiler <;> cases r.host.flags.transaction <;>
        cases r.cache.overlay.offered <;> rfl
    · simp [range, fault?]

theorem fault?_offerOverlay (r : Resolver) :
    fault? (offerOverlay r) =
      firstUnmet (Action.offerOverlay.preconditions r.cache.file r.host.flags
        r.cache.overlay.offered) := by
  unfold offerOverlay
  rw [bind_ok (get_apply r), require_bind]
  simp only [Action.preconditions, firstUnmet_cons]
  cases r.host.flags.compiler <;> rfl

/-- **An action stops exactly if a precondition fails,** with the fault of the first that does. -/
theorem fault?_run (laidOut : r.cache.LaidOut) (a : Action) :
    fault? (a.run r) =
      firstUnmet (a.preconditions r.cache.file r.host.flags r.cache.overlay.offered) := by
  cases a with
  | get kind index =>
    exact (fault?_drop _ r).trans ((fault?_inspect _ r).trans (refusal?_get laidOut kind index))
  | getCallSite index =>
    exact (fault?_drop _ r).trans ((fault?_inspect _ r).trans (refusal?_getCallSite laidOut index))
  | set kind index payload => exact fault?_set laidOut kind index payload
  | clear kind index => exact fault?_clear laidOut kind index
  | setCallSite index candidate =>
    exact (fault?_drop _ r).trans (fault?_setCallSite laidOut index candidate)
  | setOverlay index string => exact fault?_setOverlay laidOut index string
  | offerOverlay => exact fault?_offerOverlay r
  | withdrawOverlay => rfl
  | scan withTables v state => rfl

/-- No check of the program's own fails. -/
theorem not_internal_of_run (laidOut : r.cache.LaidOut) {fault : Fault}
    (stopped : fault? (a.run r) = some fault) : fault.internal = false := by
  rw [fault?_run laidOut] at stopped
  exact Action.not_internal_of_mem_preconditions (of_firstUnmet_eq_some stopped)

/-! ### What an action leaves when it stops -/

/-- Logging is refused in a transaction outside the compiler, and leaves everything as it was. -/
theorem of_recordString_error {fault : Fault} {r' : Resolver}
    (stopped : recordString index r = .error fault r') :
    r.host.flags.transaction = true ∧ r.host.flags.compiler = false ∧ fault = .notCompiler ∧
      r' = r := by
  rw [recordString_eq] at stopped
  cases transaction : r.host.flags.transaction with
  | false =>
    rw [transaction] at stopped
    cases stopped
  | true =>
    cases compiler : r.host.flags.compiler with
    | true =>
      rw [transaction, compiler] at stopped
      cases stopped
    | false =>
      rw [transaction, compiler] at stopped
      cases stopped
      exact ⟨rfl, rfl, rfl, rfl⟩

/-- A set that stops has stored nothing, or a string that cannot be logged. -/
theorem of_set_error {payload : Address kind.width} {fault : Fault} {r' : Resolver}
    (stopped : set kind index payload r = .error fault r') :
    r' = r ∨ ∃ slot, kind = .string ∧ payload ≠ .null ∧ r.slot kind index = .ok slot ∧
      r.host.flags.transaction = true ∧ r.host.flags.compiler = false ∧ fault = .notCompiler ∧
      r' = r.withEntry kind slot ⟨payload, index⟩ := by
  rw [set_eq] at stopped
  split at stopped
  · cases stopped
    exact .inl rfl
  · have full : payload ≠ .null := fun null => ‹¬ _› ((Address.isNull_iff payload).mpr null)
    cases at_slot : r.slot kind index with
    | error f =>
      rw [at_slot] at stopped
      cases stopped
      exact .inl rfl
    | ok slot =>
      simp only [at_slot] at stopped
      split at stopped
      · cases logged : recordString index (r.withEntry kind slot ⟨payload, index⟩) with
        | ok _ _ =>
          rw [logged] at stopped
          cases stopped
        | error _ _ =>
          rw [logged] at stopped
          cases stopped
          obtain ⟨inside, outsider, rfl, rfl⟩ := of_recordString_error logged
          rw [host_withEntry] at inside outsider
          exact .inr ⟨slot, ‹_›, full, rfl, inside, outsider, rfl, rfl⟩
      · cases stopped

/-- **An action that stops has changed nothing,** except that a string which cannot be logged has
been stored. -/
theorem of_run_error {fault : Fault} {r' : Resolver} (stopped : a.run r = .error fault r') :
    r' = r ∨ ∃ index payload slot, a = .set .string index payload ∧ payload ≠ .null ∧
      r.slot .string index = .ok slot ∧ r.host.flags.transaction = true ∧
      r.host.flags.compiler = false ∧ fault = .notCompiler ∧
      r' = r.withEntry .string slot ⟨payload, index⟩ := by
  have left_over : left (a.run r) = r' := by rw [stopped]; rfl
  cases a with
  | get kind index =>
    exact .inl (left_over.symm.trans ((left_drop _ () r).trans (left_inspect _ r)))
  | getCallSite index =>
    exact .inl (left_over.symm.trans ((left_drop _ () r).trans (left_inspect _ r)))
  | set kind index payload =>
    rcases of_set_error stopped with kept | ⟨slot, rfl, unlogged⟩
    · exact .inl kept
    · exact .inr ⟨index, payload, slot, rfl, unlogged⟩
  | clear kind index =>
    change clear kind index r = _ at stopped
    rw [clear_eq] at stopped
    split at stopped
    · cases at_slot : r.slot kind index with
      | error f => rw [at_slot] at stopped; cases stopped; exact .inl rfl
      | ok slot => rw [at_slot] at stopped; cases stopped
    · cases stopped
      exact .inl rfl
  | setCallSite index candidate =>
    have dropped : left (setCallSite index candidate r) = r' :=
      (left_drop _ () r).symm.trans left_over
    rcases setCallSite_cases index candidate r with ⟨-, ran⟩ | ⟨-, kept⟩
    · change (setCallSite index candidate >>= fun _ => pure ()) r = _ at stopped
      rw [bind_ok ran] at stopped
      cases stopped
    · exact .inl (dropped.symm.trans kept)
  | setOverlay index string =>
    change setOverlay index string r = _ at stopped
    rw [setOverlay_eq] at stopped
    repeat' split at stopped
    all_goals cases stopped
    all_goals exact .inl rfl
  | offerOverlay =>
    change offerOverlay r = _ at stopped
    unfold offerOverlay at stopped
    rw [bind_ok (get_apply r), require_bind] at stopped
    split at stopped
    · cases stopped
    · cases stopped
      exact .inl rfl
  | withdrawOverlay => cases stopped
  | scan withTables v state => cases stopped

/-- **The exception comes about whenever it can.** -/
theorem set_string_unlogged (laidOut : r.cache.LaidOut) (inside : r.host.flags.transaction = true)
    (outsider : r.host.flags.compiler = false) {string : Ref} (full : string ≠ .null)
    (range : index < r.cache.file.strings) :
    ∃ slot, r.slot .string index = .ok slot ∧
      set .string index string r =
        .error .notCompiler (r.withEntry .string slot ⟨string, index⟩) := by
  have given := refusal?_slot laidOut .string index
  have met : firstUnmet (Action.located r.cache.file r.host.flags .string index) = none := by
    have below : decide (index < r.cache.file.count SlotKind.string.space) = true :=
      decide_eq_true range
    simp only [Action.located, firstUnmet_cons, below, firstUnmet_nil]
    rfl
  cases at_slot : r.slot .string index with
  | error fault =>
    rw [at_slot, met] at given
    cases given
  | ok slot =>
    refine ⟨slot, rfl, ?_⟩
    rw [set_eq, if_neg (mt (Address.isNull_iff string).mp full), at_slot]
    simp only [if_true, recordString_eq, host_withEntry, inside, outsider, Bool.false_eq_true,
      if_false]

end Resolver

end ResolutionCache
