import ResolutionCache.Proofs.Resolver.Beneath
import ResolutionCache.Proofs.Resolver.Filed
import ResolutionCache.Proofs.Resolver.Recorded

/-!
# Call sites are bound once

Of all the claims of one call site at most one wins, the first whose candidate is not null. Nothing
but a winning claim binds a call site, and nothing but a pass of a visitor changes one that is
bound: it puts its answer in the place of what it is shown (`Resolver.Step.site_leave`). So what is
bound at an index at the end of a run is the candidate of the winner, as the passes since then have
readdressed it (`Resolver.carried`), and everybody who asks or claims is told so
(`Resolver.call_sites_bound_once`).
-/

namespace ResolutionCache.Resolver

open Attempt

variable {r : Resolver} {index : UInt32} {candidate held : Ref} {step : Step} {steps : List Step}

/-! ### What a resolver says of a call site -/

/-- What the table of call sites holds for an index, null if nothing is bound. -/
def site (r : Resolver) (index : UInt32) : Option Ref := r.cache.callSites.entries[index.toNat]?

theorem lookup_of_site (there : r.site index = some held) :
    r.cache.callSites.lookup index.toNat = .ok held.nonNull :=
  ClaimTable.lookup_eq_ok_iff.mpr ⟨held, there, rfl⟩

/-- Asking for a call site tells what is bound. -/
theorem getCallSite_of_site (checked : r.checkCallSite index = .ok ())
    (there : r.site index = some held) : r.getCallSite index = .ok held.nonNull := by
  unfold getCallSite
  rw [checked]
  exact lookup_of_site there

/-- **A claim wins** if nothing is bound and its candidate is not null. -/
theorem wins_iff (checked : r.checkCallSite index = .ok ()) (there : r.site index = some held) :
    r.Wins index candidate ↔ held = .null ∧ candidate ≠ .null := by
  unfold Wins
  rw [ClaimTable.outcome_eq_taken_iff, lookup_of_site there]
  constructor
  · rintro ⟨-, -, full, unbound⟩
    refine ⟨?_, full⟩
    by_contra bound
    rw [Address.nonNull_eq_some_iff.mpr ⟨rfl, bound⟩] at unbound
    cases unbound
  · rintro ⟨rfl, full⟩
    exact ⟨checked, rfl, full, rfl⟩

/-- **Nothing is bound:** who asks is told so, and any candidate that is not null wins. -/
def Unbound (r : Resolver) (index : UInt32) : Prop :=
  r.getCallSite index = .ok none ∧ ∀ candidate, candidate ≠ .null → r.Wins index candidate

/-- **A reference is bound:** it is not null, and who asks is told. Any claim whose candidate is not
null is told too; it does not win, and it changes nothing. -/
def Bound (r : Resolver) (index : UInt32) (held : Ref) : Prop :=
  held ≠ .null ∧ r.getCallSite index = .ok (some held) ∧
    ∀ candidate, candidate ≠ .null →
      ¬ r.Wins index candidate ∧ setCallSite index candidate r = .ok held r

theorem unbound_of_site (checked : r.checkCallSite index = .ok ())
    (there : r.site index = some .null) : r.Unbound index :=
  ⟨getCallSite_of_site checked there, fun _ full => (wins_iff checked there).mpr ⟨rfl, full⟩⟩

theorem bound_of_site (checked : r.checkCallSite index = .ok ())
    (there : r.site index = some held) (bound : held ≠ .null) : r.Bound index held := by
  have full : held.nonNull = some held := Address.nonNull_eq_some_iff.mpr ⟨rfl, bound⟩
  have asked := getCallSite_of_site checked there
  have found := lookup_of_site there
  rw [full] at asked found
  refine ⟨bound, asked, fun candidate accepted => ⟨fun wins => ?_, ?_⟩⟩
  · exact bound ((wins_iff checked there).mp wins).1
  · have refused := ClaimTable.outcome_eq_refused_iff.mpr ⟨accepted, found⟩
    rw [setCallSite_eq, checked, refused]
    show EStateM.Result.ok held (r.withCallSite index held) = _
    unfold withCallSite
    rw [ClaimTable.replace_of_bound found]

/-- **A claim of one call site leaves the others alone,** and what is told of them. -/
theorem setCallSite_of_ne {other : UInt32} (ne : other ≠ index) (candidate : Ref)
    (r : Resolver) :
    (left (setCallSite index candidate r)).site other = r.site other ∧
      (left (setCallSite index candidate r)).getCallSite other = r.getCallSite other := by
  have apart : index.toNat ≠ other.toNat := fun same => ne (UInt32.toNat_inj.mp same).symm
  rcases setCallSite_cases index candidate r with ⟨-, ran⟩ | ⟨-, kept⟩
  · rw [ran]
    refine ⟨Array.getElem?_setIfInBounds_ne apart, ?_⟩
    exact congrArg (fun found => r.checkCallSite other >>= fun _ => found)
      (ClaimTable.lookup_replace_of_ne apart candidate)
  · rw [kept]
    exact ⟨rfl, rfl⟩

/-! ### What a step does to a call site -/

/-- What a call site is checked against. -/
def terms (r : Resolver) : Bool × SymbolFile := (r.host.flags.methodHandles, r.cache.file)

theorem checkCallSite_congr {r' : Resolver} (same : r'.terms = r.terms) (index : UInt32) :
    r'.checkCallSite index = r.checkCallSite index := by
  obtain ⟨handles, file⟩ := Prod.mk.inj same
  unfold checkCallSite
  rw [handles, file]

theorem keeps_terms_run (a : Action) : Keeps terms a.run := by
  intro r
  obtain ⟨-, file, -⟩ := (effect_run a r).kept
  have handles : (left (a.run r)).host.flags.methodHandles = r.host.flags.methodHandles := by
    rcases account_run a r with ⟨index, -, account⟩ | ⟨-, account⟩
    · exact congrArg (fun account => account.1.flags.methodHandles) account
    · exact congrArg (fun account => account.1.flags.methodHandles) account
  exact Prod.ext handles file

theorem effect_callSites {a : Action} {c' : Cache} (effect : r.Effect a c')
    (unclaimed : ∀ index candidate, a ≠ .setCallSite index candidate)
    (unseen : ∀ {σ : Type} withTables (v : Visitor 32 σ) state, a ≠ .scan withTables v state) :
    c'.callSites = r.cache.callSites := by
  cases effect with
  | @stored kind | @vacated kind => cases kind <;> rfl
  | bound => exact absurd rfl (unclaimed _ _)
  | visited => exact absurd rfl (unseen _ _ _)
  | pinned | offered | withdrawn | unchanged => rfl

/-- What bears on the answers about call sites. -/
def bearing (r : Resolver) : (Bool × SymbolFile) × ClaimTable := (r.terms, r.cache.callSites)

theorem keeps_bearing_begin : Keeps bearing begin := by
  intro r
  unfold begin
  refine left_bind (keeps_inspect _ r) fun host mid asked => ?_
  obtain ⟨begun, rfl⟩ := of_inspect_ok asked
  obtain ⟨-, -, rfl⟩ := Host.of_begin_ok begun
  rfl

theorem keeps_bearing_clearStrings (indices : List UInt32) :
    Keeps bearing (clearStrings indices) := by
  induction indices with
  | nil => exact keeps_pure _
  | cons index rest ih =>
    refine Keeps.bind (fun r => ?_) fun _ => ih
    have effect := effect_clear .string index r
    exact Prod.ext (keeps_terms_run (.clear .string index) r) (effect_callSites effect nofun nofun)

theorem keeps_bearing_rollback : Keeps bearing rollback := by
  intro r
  exact keeps_bearing_clearStrings _ { r with host := r.host.withdraw r.cache.id }

namespace Step

/-- The resolver that the step leaves, whether it ended or stopped with a fault. -/
def leave (step : Step) (r : Resolver) : Resolver := left (step.run r)

/-- Somebody claims a call site. -/
def claim (index : UInt32) (candidate : Ref) : Step := act (.setCallSite index candidate)

/-- The visitor of the step, if it has one, answers no reference with null. -/
def KeepsFull : Step → Prop
  | act a => a.KeepsFull
  | _ => True

/-- **What the step puts in the place of a call site that is bound.** A pass over all roots puts
there what its visitor answers when it comes to the call site; no other step changes it. -/
def carry (index : UInt32) (r : Resolver) : Step → Ref → Ref
  | act (.scan true v state), held =>
    (v.meet held (v.after state (r.cache.shownBefore index.toNat))).1
  | _, held => held

theorem carry_null (index : UInt32) (r : Resolver) (step : Step) :
    step.carry index r .null = .null := by
  unfold carry
  split <;> rfl

theorem carry_ne_null (keeps : step.KeepsFull) (index : UInt32) (r : Resolver)
    (full : held ≠ .null) : step.carry index r held ≠ .null := by
  unfold carry
  split
  · rw [Visitor.meet_of_ne _ full]
    exact keeps held _ full
  · exact full

theorem keeps_terms (step : Step) : Keeps terms step.run := by
  cases step with
  | act a => exact keeps_terms_run a
  | begin => exact fun r => congrArg Prod.fst (keeps_bearing_begin r)
  | commit => exact keeps_modify fun _ => rfl
  | rollback => exact fun r => congrArg Prod.fst (keeps_bearing_rollback r)

/-- A step that does not claim an index carries what is there. -/
theorem site_leave_of_ne (other : ∀ candidate, step ≠ claim index candidate) (r : Resolver) :
    (step.leave r).site index = (r.site index).map (step.carry index r) := by
  have still (same : (step.leave r).cache.callSites = r.cache.callSites)
      (idle : step.carry index r = fun held => held) :
      (step.leave r).site index = (r.site index).map (step.carry index r) := by
    unfold site
    rw [same, idle, Option.map_id']
  cases step with
  | begin => exact still (congrArg Prod.snd (keeps_bearing_begin r)) rfl
  | commit => exact still rfl rfl
  | rollback => exact still (congrArg Prod.snd (keeps_bearing_rollback r)) rfl
  | act a =>
    have effect := effect_run a r
    cases a with
    | scan withTables v state =>
      cases withTables with
      | false => exact still rfl rfl
      | true => exact r.cache.getElem?_callSites_scan v state index.toNat
    | setCallSite index' candidate =>
      have ne : index ≠ index' := by
        rintro rfl
        exact other candidate rfl
      have dropped : (act (.setCallSite index' candidate)).leave r =
          left (setCallSite index' candidate r) := left_drop _ () r
      rw [dropped, (setCallSite_of_ne ne candidate r).1]
      exact Option.map_id'.symm
    | get | set | clear | getCallSite | setOverlay | offerOverlay | withdrawOverlay =>
      exact still (effect_callSites effect nofun nofun) rfl

/-- **A claim that wins** is told its candidate, which is bound from then on. -/
theorem leave_claim (wins : r.Wins index candidate) :
    candidate ≠ .null ∧
      setCallSite index candidate r = .ok candidate ((claim index candidate).leave r) ∧
      ((claim index candidate).leave r).site index = some candidate := by
  obtain ⟨-, full, unbound⟩ := ClaimTable.outcome_eq_taken_iff.mp wins.2
  obtain ⟨held, there, -⟩ := ClaimTable.lookup_eq_ok_iff.mp unbound
  obtain ⟨below, -⟩ := Array.getElem?_eq_some_iff.mp there
  rcases setCallSite_cases index candidate r with ⟨-, ran⟩ | ⟨loses, -⟩
  · have left_claim : (claim index candidate).leave r =
        (r.withCallSite index candidate).remembered :=
      (left_drop _ () r).trans (congrArg left ran)
    rw [left_claim]
    exact ⟨full, ran, Array.getElem?_setIfInBounds_self_of_lt below⟩
  · exact absurd wins loses

/-- **What a step does to a call site:** it wins a claim, and then its candidate is bound, or it
carries along what is there. -/
theorem site_leave (step : Step) (r : Resolver) (index : UInt32) :
    (∃ candidate, step = claim index candidate ∧ r.Wins index candidate ∧
      (step.leave r).site index = some candidate) ∨
    ((∀ candidate, step = claim index candidate → ¬ r.Wins index candidate) ∧
      (step.leave r).site index = (r.site index).map (step.carry index r)) := by
  by_cases claims : ∃ candidate, step = claim index candidate
  · obtain ⟨candidate, rfl⟩ := claims
    have dropped : (claim index candidate).leave r = left (setCallSite index candidate r) :=
      left_drop _ () r
    by_cases wins : r.Wins index candidate
    · exact .inl ⟨candidate, rfl, wins, (leave_claim wins).2.2⟩
    · refine .inr ⟨fun candidate' same => ?_, ?_⟩
      · cases same
        exact wins
      · rcases setCallSite_cases index candidate r with ⟨wins', -⟩ | ⟨-, kept⟩
        · exact absurd wins' wins
        · rw [dropped, kept]
          exact Option.map_id'.symm
  · have other : ∀ candidate, step ≠ claim index candidate :=
      fun candidate same => claims ⟨candidate, same⟩
    exact .inr ⟨fun candidate same => absurd same (other candidate), site_leave_of_ne other r⟩

end Step

/-! ### Runs -/

/-- The resolver that steps leave, one after another, each of which may end or stop. -/
def leaveSteps (steps : List Step) (r : Resolver) : Resolver :=
  steps.foldl (fun r step => step.leave r) r

theorem leaveSteps_append (before : List Step) (step : Step) (after : List Step) (r : Resolver) :
    leaveSteps (before ++ step :: after) r =
      leaveSteps after (step.leave (leaveSteps before r)) := by
  simp only [leaveSteps, List.foldl_append, List.foldl_cons]

/-- **What steps put in the place of a call site that is bound,** one after another. -/
def carried (index : UInt32) : List Step → Resolver → Ref → Ref
  | [], _, held => held
  | step :: rest, r, held => carried index rest (step.leave r) (step.carry index r held)

/-- No claim of the index wins. -/
def NoWinner (index : UInt32) (steps : List Step) (r : Resolver) : Prop :=
  ∀ before candidate after, steps = before ++ .claim index candidate :: after →
    ¬ (leaveSteps before r).Wins index candidate

theorem noWinner_nil : NoWinner index [] r := fun before _ after split =>
  absurd split.symm (List.append_ne_nil_of_right_ne_nil before (List.cons_ne_nil _ after))

theorem noWinner_cons : NoWinner index (step :: steps) r ↔
    (∀ candidate, step = .claim index candidate → ¬ r.Wins index candidate) ∧
      NoWinner index steps (step.leave r) := by
  constructor
  · refine fun none => ⟨?_, fun before candidate after split => ?_⟩
    · rintro candidate rfl
      exact none [] candidate steps rfl
    · exact none (step :: before) candidate after (congrArg (step :: ·) split)
  · rintro ⟨first, rest⟩ before candidate after split
    rcases List.cons_eq_append_iff.mp split with ⟨rfl, same⟩ | ⟨before', rfl, same⟩
    · obtain ⟨rfl, rfl⟩ := List.cons.inj same
      exact first candidate rfl
    · exact rest before' candidate after same

theorem NoWinner.of_prefix {done : List Step} (none : NoWinner index steps r)
    (first : done <+: steps) : NoWinner index done r := by
  obtain ⟨rest, rfl⟩ := first
  rintro before candidate after rfl
  exact none before candidate (after ++ rest) (by rw [List.append_assoc, List.cons_append])

/-- Either no claim wins, or there is one that wins first. -/
theorem noWinner_or_first (index : UInt32) (steps : List Step) (r : Resolver) :
    NoWinner index steps r ∨
      ∃ before candidate after, steps = before ++ .claim index candidate :: after ∧
        NoWinner index before r ∧ (leaveSteps before r).Wins index candidate := by
  induction steps generalizing r with
  | nil => exact .inl noWinner_nil
  | cons step rest ih =>
    by_cases first : ∃ candidate, step = .claim index candidate ∧ r.Wins index candidate
    · obtain ⟨candidate, rfl, wins⟩ := first
      exact .inr ⟨[], candidate, rest, rfl, noWinner_nil, wins⟩
    · have loses : ∀ candidate, step = .claim index candidate → ¬ r.Wins index candidate :=
        fun candidate same wins => first ⟨candidate, same, wins⟩
      rcases ih (step.leave r) with none | ⟨before, candidate, after, rfl, none, wins⟩
      · exact .inl (noWinner_cons.mpr ⟨loses, none⟩)
      · exact .inr ⟨step :: before, candidate, after, rfl, noWinner_cons.mpr ⟨loses, none⟩, wins⟩

theorem checkCallSite_leaveSteps (steps : List Step) (r : Resolver) (index : UInt32) :
    (leaveSteps steps r).checkCallSite index = r.checkCallSite index := by
  induction steps generalizing r with
  | nil => rfl
  | cons step rest ih => exact (ih _).trans (checkCallSite_congr (step.keeps_terms r) index)

/-- As long as no claim wins, nothing is bound. -/
theorem site_of_noWinner (none : NoWinner index steps r) (there : r.site index = some .null) :
    (leaveSteps steps r).site index = some .null := by
  induction steps generalizing r with
  | nil => exact there
  | cons step rest ih =>
    obtain ⟨loses, none⟩ := noWinner_cons.mp none
    refine ih none ?_
    rcases step.site_leave r index with ⟨candidate, same, wins, -⟩ | ⟨-, after⟩
    · exact absurd wins (loses candidate same)
    · rw [after, there]
      exact congrArg some (step.carry_null index r)

/-- **What is bound stays bound:** no claim wins any more, and the steps carry what is there. -/
theorem site_carried (checked : r.checkCallSite index = .ok ())
    (there : r.site index = some held) (bound : held ≠ .null)
    (keeps : ∀ step ∈ steps, step.KeepsFull) :
    NoWinner index steps r ∧ carried index steps r held ≠ .null ∧
      (leaveSteps steps r).site index = some (carried index steps r held) := by
  induction steps generalizing r held with
  | nil => exact ⟨noWinner_nil, bound, there⟩
  | cons step rest ih =>
    -- while something is bound no claim can win, so the step carries it
    have loses : ∀ candidate, ¬ r.Wins index candidate :=
      fun candidate wins => bound ((wins_iff checked there).mp wins).1
    have checked' := (checkCallSite_congr (step.keeps_terms r) index).trans checked
    have bound' := Step.carry_ne_null (keeps step List.mem_cons_self) index r bound
    have there' : (step.leave r).site index = some (step.carry index r held) := by
      rcases step.site_leave r index with ⟨candidate, -, wins, -⟩ | ⟨-, after⟩
      · exact absurd wins (loses candidate)
      · rw [after, there]
        rfl
    obtain ⟨none, full, there''⟩ := ih checked' there' bound'
      fun step mem => keeps step (List.mem_cons_of_mem _ mem)
    exact ⟨noWinner_cons.mpr ⟨fun candidate _ => loses candidate, none⟩, full, there''⟩

/-! ### From the creation of a cache on -/

/-- **Call sites are bound once and for all.** Let any steps happen to a new cache whose host has
method handles, each of which may end or stop with a fault, as long as no visitor answers a
reference with null. For each call site of the file, either no claim wins, and then it is never
bound; or one claim wins. Then before that claim the call site is not bound, and from then on no
claim wins any more: whoever asks or claims is told the winner's candidate, as the passes over all
roots since then have readdressed it, one after another. As long as it is not bound, any claim wins
whose candidate is not null. A claim of one call site leaves the others alone. A claim that ends
remembers the cache as written if it wins, and otherwise remembers nothing. -/
theorem call_sites_bound_once {id : CacheId} {file : SymbolFile} {location : Ref}
    {overrides : Overrides} (created : Cache.create id file location overrides = .ok r.cache)
    (handles : r.host.flags.methodHandles = true) (range : index < file.callSites)
    (keeps : ∀ step ∈ steps, step.KeepsFull) :
    ((NoWinner index steps r ∧ ∀ done, done <+: steps → (leaveSteps done r).Unbound index) ∨
      ∃ before candidate after r₁, steps = before ++ .claim index candidate :: after ∧
        NoWinner index before r ∧
        (∀ done, done <+: before → (leaveSteps done r).Unbound index) ∧
        (leaveSteps before r).Wins index candidate ∧
        setCallSite index candidate (leaveSteps before r) = .ok candidate r₁ ∧
        NoWinner index after r₁ ∧
        ∀ done, done <+: after →
          (leaveSteps (before ++ .claim index candidate :: done) r).Bound index
            (carried index done r₁ candidate)) ∧
    (∀ (s : Resolver) candidate other, other ≠ index →
      (left (setCallSite index candidate s)).site other = s.site other ∧
        (left (setCallSite index candidate s)).getCallSite other = s.getCallSite other) ∧
    ∀ (s : Resolver) candidate standing s', setCallSite index candidate s = .ok standing s' →
      (s.Wins index candidate → s'.dirty = s.remembered.dirty) ∧
        (¬ s.Wins index candidate → s'.dirty = s.dirty) := by
  obtain ⟨-, -, fresh⟩ := Cache.of_create_ok created
  have checked : r.checkCallSite index = .ok () := by
    unfold checkCallSite
    rw [handles, fresh.serves, if_neg (by decide), if_neg (UInt32.not_le.mpr range)]
  have there : r.site index = some .null := by
    unfold site
    rw [fresh.callSites]
    exact Array.getElem?_replicate.trans (if_pos (UInt32.lt_iff_toNat_lt.mp range))
  -- as long as no claim wins
  have unbound (early : List Step) (none : NoWinner index early r) (done : List Step)
      (first : done <+: early) : (leaveSteps done r).Unbound index :=
    unbound_of_site ((checkCallSite_leaveSteps done r index).trans checked)
      (site_of_noWinner (none.of_prefix first) there)
  refine ⟨?_, fun s candidate other ne => setCallSite_of_ne ne candidate s,
    fun s candidate standing s' claimed => ⟨fun wins => ?_, fun loses => ?_⟩⟩
  · rcases noWinner_or_first index steps r with none | ⟨before, candidate, after, rfl, none, wins⟩
    · exact .inl ⟨none, unbound steps none⟩
    · -- from the winning claim on
      have keeps_after : ∀ step ∈ after, step.KeepsFull := fun step mem =>
        keeps step (List.mem_append_right _ (List.mem_cons_of_mem _ mem))
      obtain ⟨full, claimed, there₁⟩ := Step.leave_claim wins
      have checked₁ := (checkCallSite_leaveSteps (before ++ [.claim index candidate]) r index).trans
        checked
      rw [leaveSteps_append] at checked₁
      refine .inr ⟨before, candidate, after, _, rfl, none, unbound before none, wins, claimed,
        (site_carried checked₁ there₁ full keeps_after).1, fun done first => ?_⟩
      obtain ⟨-, bound, stands⟩ := site_carried checked₁ there₁ full fun step mem =>
        keeps_after step (first.subset mem)
      rw [leaveSteps_append]
      have checked_done := (checkCallSite_leaveSteps done _ index).trans checked₁
      exact bound_of_site checked_done stands bound
  · rcases setCallSite_cases index candidate s with ⟨-, ran⟩ | ⟨loses, -⟩
    · rw [ran] at claimed
      cases claimed
      rfl
    · exact absurd wins loses
  · rcases setCallSite_cases index candidate s with ⟨wins, -⟩ | ⟨-, kept⟩
    · exact absurd wins loses
    · rw [claimed] at kept
      exact congrArg Resolver.dirty kept

/-- A visitor that answers with two places in turn. -/
def inTurn : Visitor 32 Bool := fun _ first => (if first then ⟨64⟩ else ⟨72⟩, !first)

/-- Both call sites of a file are claimed, one of them twice, and then a pass comes by; the rest is
about strings, of which the file has none. -/
def contested : List Step :=
  [.act (.getCallSite 0), .claim 1 ⟨8⟩, .claim 0 ⟨16⟩, .begin, .claim 0 ⟨24⟩,
    .act (.scan true inTurn true), .act (.set .string 0 ⟨32⟩), .rollback]

theorem call_sites_bound_once_contested :
    ∃ c, Cache.create ⟨1⟩ { location := "core.jar", callSites := 2 } .null {} = .ok c ∧
      (leaveSteps contested ⟨c, .ofCompiler, none⟩).Bound 0 ⟨64⟩ ∧
      (leaveSteps contested ⟨c, .ofCompiler, none⟩).Bound 1 ⟨72⟩ := by
  obtain ⟨c, created⟩ :
      ∃ c, Cache.create ⟨1⟩ { location := "core.jar", callSites := 2 } .null {} = .ok c :=
    ⟨_, rfl⟩
  have keeps : ∀ step ∈ contested, step.KeepsFull := by
    have full : ∀ (a : Ref) (first : Bool), a ≠ .null → (inTurn a first).1 ≠ .null
      | _, true, _ => (by decide : (⟨64⟩ : Ref) ≠ .null)
      | _, false, _ => (by decide : (⟨72⟩ : Ref) ≠ .null)
    simpa [contested, Step.KeepsFull, Step.claim, Action.KeepsFull, Visitor.KeepsFull] using full
  have told : (leaveSteps contested ⟨c, .ofCompiler, none⟩).getCallSite 0 = .ok (some ⟨64⟩) ∧
      (leaveSteps contested ⟨c, .ofCompiler, none⟩).getCallSite 1 = .ok (some ⟨72⟩) := by
    cases created
    decide +kernel
  have bound (index : UInt32) (held : Ref) (range : index < 2)
      (told : (leaveSteps contested ⟨c, .ofCompiler, none⟩).getCallSite index = .ok (some held)) :
      (leaveSteps contested ⟨c, .ofCompiler, none⟩).Bound index held := by
    obtain ⟨outcome, -, -⟩ := call_sites_bound_once (r := ⟨c, .ofCompiler, none⟩) created rfl range
      keeps
    rcases outcome with ⟨-, unbound⟩ | ⟨before, candidate, after, r₁, split, -, -, -, -, -, bound⟩
    · have none := (unbound contested List.prefix_rfl).1
      rw [told] at none
      cases none
    · have stands := bound after List.prefix_rfl
      rw [← split] at stands
      have same := stands.2.1
      rw [told] at same
      obtain rfl := Option.some.inj (Except.ok.inj same)
      exact stands
  exact ⟨c, created, bound 0 ⟨64⟩ (by decide) told.1, bound 1 ⟨72⟩ (by decide) told.2⟩

end ResolutionCache.Resolver
