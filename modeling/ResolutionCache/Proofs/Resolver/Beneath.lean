import ResolutionCache.Proofs.Resolver.LastWriter

/-!
# Beneath the overlay

The overlay stands in front of the table of strings, and nothing that works on the tables, on the
call sites or on the host's transaction looks at it. So two resolvers that differ in nothing but
their overlays and dirty sets go through such a step alike (`Step.run_level`), and the step leaves
the overlay as it is (`Step.run_beneath`). What is done to the overlay, in turn, changes the overlay
alone (`Step.run_onOverlay`). Hence a run with the steps on the overlay left out ends with the same
tables, call sites and host (`Step.run_without_overlay`).
-/

namespace ResolutionCache

/-- The cache as if its overlay had no entries. -/
def Cache.bare (c : Cache) : Cache := { c with overlay := .ofSize 0 }

theorem Cache.bare_mapTable (c : Cache) (kind : SlotKind)
    (f : DirectMap kind.width → DirectMap kind.width) :
    (c.mapTable kind f).bare = c.bare.mapTable kind f := by
  cases kind <;> rfl

namespace Resolver

open Attempt

variable {r r' : Resolver} {kind : SlotKind} {index : UInt32}

/-! ### Level resolvers -/

/-- **Resolvers that are alike beneath their overlays:** equal hosts, and caches that differ in the
overlay alone. -/
structure Level (r r' : Resolver) : Prop where
  cache : r.cache.bare = r'.cache.bare
  host : r.host = r'.host

namespace Level

theorem refl (r : Resolver) : r.Level r := ⟨rfl, rfl⟩

theorem trans {r'' : Resolver} (first : r.Level r') (second : r'.Level r'') : r.Level r'' :=
  ⟨first.cache.trans second.cache, first.host.trans second.host⟩

theorem id (level : r.Level r') : r.cache.id = r'.cache.id :=
  (congrArg Cache.id level.cache :)

theorem file (level : r.Level r') : r.cache.file = r'.cache.file :=
  (congrArg Cache.file level.cache :)

theorem settings (level : r.Level r') : r.cache.settings = r'.cache.settings :=
  (congrArg Cache.settings level.cache :)

theorem callSites (level : r.Level r') : r.cache.callSites = r'.cache.callSites :=
  (congrArg Cache.callSites level.cache :)

theorem table (level : r.Level r') (kind : SlotKind) :
    r.cache.table kind = r'.cache.table kind := by
  have bare : r.cache.bare.table kind = r'.cache.bare.table kind := by rw [level.cache]
  cases kind <;> exact bare

theorem layout (level : r.Level r') : r.SameLayout r' where
  file := level.file.symm
  settings := level.settings.symm
  sizes kind := by rw [level.table]
  flags := by rw [level.host]

theorem held (level : r.Level r') (kind : SlotKind) (index : UInt32) :
    r'.cache.held kind index = r.cache.held kind index := by
  unfold Cache.held
  rw [level.table, level.settings]

theorem mapTable (level : r.Level r') (kind : SlotKind)
    (f : DirectMap kind.width → DirectMap kind.width) :
    Agree Level (fun _ _ => True) (mapTable kind f r) (Resolver.mapTable kind f r') :=
  agree_modify ⟨by
    show (r.cache.mapTable kind f).bare = (r'.cache.mapTable kind f).bare
    rw [Cache.bare_mapTable, Cache.bare_mapTable, level.cache], level.host⟩

theorem putHost (level : r.Level r') (host : Host) :
    Agree Level (fun _ _ => True) (Resolver.putHost host r) (Resolver.putHost host r') :=
  agree_modify ⟨level.cache, rfl⟩

theorem barrier (level : r.Level r') :
    Agree Level (fun _ _ => True) (Resolver.barrier r) (Resolver.barrier r') :=
  agree_modify ⟨level.cache, level.host⟩

/-! ### Operations that do not look at the overlay -/

theorem recordString (level : r.Level r') (index : UInt32) :
    Agree Level (fun _ _ => True) (Resolver.recordString index r)
      (Resolver.recordString index r') := by
  unfold Resolver.recordString
  refine Agree.bind (.ok level level) fun a b s t ab st => ?_
  rw [ab.host, ab.id]
  split
  · exact Agree.bind (agree_require rfl st) fun _ _ s t _ st => st.putHost _
  · exact .ok trivial st

theorem set (level : r.Level r') (kind : SlotKind) (index : UInt32) (payload : Address kind.width) :
    Agree Level (fun _ _ => True) (Resolver.set kind index payload r)
      (Resolver.set kind index payload r') := by
  unfold Resolver.set
  refine Agree.bind (agree_require rfl level) fun _ _ s t _ st => ?_
  refine Agree.bind (agree_inspect (.of_eq (st.layout.slot_eq kind index).symm) st)
    fun slot slot' s t same st => ?_
  subst same
  refine Agree.bind (agree_inspect (.of_eq (by rw [st.table])) st) fun _ _ s t _ st => ?_
  refine Agree.bind (st.mapTable kind _) fun _ _ s t _ st => ?_
  split
  · exact Agree.bind (st.recordString index) fun _ _ s t _ st => st.barrier
  · exact st.barrier

theorem clear (level : r.Level r') (kind : SlotKind) (index : UInt32) :
    Agree Level (fun _ _ => True) (Resolver.clear kind index r) (Resolver.clear kind index r') := by
  unfold Resolver.clear
  refine Agree.bind (.ok level level) fun a b s t ab st => ?_
  refine Agree.bind (agree_require (by rw [ab.host]) st) fun _ _ s t _ st => ?_
  refine Agree.bind (agree_inspect (.of_eq (st.layout.slot_eq kind index).symm) st)
    fun slot slot' s t same st => ?_
  subst same
  refine Agree.bind (agree_inspect (.of_eq (by rw [st.table])) st)
    fun owned owned' s t same st => ?_
  subst same
  split
  · exact st.mapTable kind _
  · exact .ok trivial st

theorem setCallSite (level : r.Level r') (index : UInt32) (candidate : Ref) :
    Agree Level (fun _ _ => True) (Resolver.setCallSite index candidate r)
      (Resolver.setCallSite index candidate r') := by
  have checks (s t : Resolver) (st : s.Level t) :
      s.checkCallSite index = t.checkCallSite index := by
    unfold checkCallSite
    rw [st.host, st.file]
  unfold Resolver.setCallSite
  refine Agree.bind (agree_inspect (.of_eq (checks r r' level)) level) fun _ _ s t _ st => ?_
  refine Agree.bind (agree_inspect (.of_eq (by rw [st.callSites])) st)
    fun outcome outcome' s t same st => ?_
  subst same
  have bound : ({ s.cache with callSites := s.cache.callSites.replace index.toNat outcome.standing } :
      Cache).bare = ({ t.cache with
        callSites := t.cache.callSites.replace index.toNat outcome.standing } : Cache).bare := by
    have bare := congrArg (fun c : Cache => ({ c with
      callSites := s.cache.callSites.replace index.toNat outcome.standing } : Cache)) st.cache
    rw [st.callSites] at bare ⊢
    exact bare
  refine Agree.bind (agree_modify ⟨bound, st.host⟩) fun _ _ s t _ st => ?_
  split
  · exact Agree.bind st.barrier fun _ _ s t _ st => .ok trivial st
  · exact .ok trivial st

theorem begin (level : r.Level r') :
    Agree Level (fun _ _ => True) (Resolver.begin r) (Resolver.begin r') := by
  unfold Resolver.begin
  refine Agree.bind (agree_inspect (.of_eq (by rw [level.host])) level)
    fun host host' s t same st => ?_
  subst same
  exact st.putHost host

theorem commit (level : r.Level r') :
    Agree Level (fun _ _ => True) (Resolver.commit r) (Resolver.commit r') :=
  agree_modify ⟨level.cache, by rw [level.host]⟩

theorem clearStrings (level : r.Level r') (indices : List UInt32) :
    Agree Level (fun _ _ => True) (Resolver.clearStrings indices r)
      (Resolver.clearStrings indices r') := by
  induction indices generalizing r r' with
  | nil => exact .ok trivial level
  | cons index rest ih =>
    exact Agree.bind (level.clear .string index) fun _ _ s t _ st => ih st

theorem rollback (level : r.Level r') :
    Agree Level (fun _ _ => True) (Resolver.rollback r) (Resolver.rollback r') := by
  unfold Resolver.rollback
  refine Agree.bind (.ok level level) fun a b s t ab st => ?_
  rw [ab.host, ab.id]
  exact Agree.bind (st.putHost _) fun _ _ s t _ st => st.clearStrings _

end Level

/-! ### Steps -/

/-- What can happen to a cache: an action, or the beginning or end of a transaction of its host. -/
inductive Step : Type 1 where
  | act (a : Action)
  | begin
  | commit
  | rollback

namespace Step

variable {step : Step} {steps : List Step}

/-- The step as an operation of a resolver. -/
def run : Step → Attempt Resolver Unit
  | act a => a.run
  | begin => Resolver.begin
  | commit => Resolver.commit
  | rollback => Resolver.rollback

/-- Whether the step is done to the overlay. -/
def onOverlay : Step → Bool
  | act .offerOverlay => true
  | act .withdrawOverlay => true
  | act (.setOverlay ..) => true
  | _ => false

/-- The step is neither a lookup nor a visitor's pass. -/
def IsChange : Step → Prop
  | act (.get ..) => False
  | act (.getCallSite ..) => False
  | act (.scan ..) => False
  | _ => True

/-- What is not done to the overlay is a store or does something to a transaction. -/
theorem cases_beneath (change : step.IsChange) (beneath : step.onOverlay = false) :
    (∃ a, step = act a ∧ a.IsStore) ∨ step = begin ∨ step = commit ∨ step = rollback := by
  cases step with
  | act a =>
    cases a with
    | get | getCallSite | scan => exact change.elim
    | offerOverlay | withdrawOverlay | setOverlay => cases beneath
    | set | clear | setCallSite => exact .inl ⟨_, rfl, trivial⟩
  | begin => exact .inr (.inl rfl)
  | commit => exact .inr (.inr (.inl rfl))
  | rollback => exact .inr (.inr (.inr rfl))

/-- **Beneath the overlay a step goes alike** for resolvers that are level. -/
theorem run_level (change : step.IsChange) (beneath : step.onOverlay = false)
    (level : r.Level r') : Agree Level (fun _ _ => True) (step.run r) (step.run r') := by
  rcases cases_beneath change beneath with ⟨a, rfl, store⟩ | rfl | rfl | rfl
  · cases a with
    | set kind index payload => exact level.set kind index payload
    | clear kind index => exact level.clear kind index
    | setCallSite index candidate =>
      exact Agree.bind (level.setCallSite index candidate) fun _ _ s t _ st => .ok trivial st
    | _ => exact store.elim
  · exact level.begin
  · exact level.commit
  · exact level.rollback

/-- **Done to the overlay, a step changes the overlay alone.** -/
theorem run_onOverlay (covers : step.onOverlay = true) (ran : step.run r = .ok () r') :
    r.Level r' := by
  cases step with
  | act a =>
    cases a with
    | offerOverlay =>
      obtain ⟨cache, host⟩ := of_offerOverlay_ok ran
      exact ⟨by rw [cache]; rfl, host.symm⟩
    | withdrawOverlay =>
      cases ran
      exact ⟨rfl, rfl⟩
    | setOverlay index string =>
      obtain ⟨-, overlay, -, rfl⟩ := of_setOverlay_ok ran
      exact ⟨rfl, rfl⟩
    | _ => cases covers
  | _ => cases covers

end Step

theorem clearStrings_layout {indices : List UInt32} (ran : clearStrings indices r = .ok () r') :
    r.SameLayout r' ∧ r'.cache.overlay = r.cache.overlay := by
  induction indices generalizing r with
  | nil =>
    cases ran
    exact ⟨.refl _, rfl⟩
  | cons index rest ih =>
    obtain ⟨_, mid, first, later⟩ := of_bind_ok ran
    have clear : (Action.clear .string index).IsStore := trivial
    obtain ⟨layout, overlay⟩ := store_layout clear first
    obtain ⟨layout', overlay'⟩ := ih later
    exact ⟨layout.trans layout', overlay'.trans overlay⟩

namespace Step

variable {step : Step} {steps : List Step}

/-- **Beneath the overlay a step leaves the overlay alone,** and it leaves the layout as it is. -/
theorem run_beneath (change : step.IsChange) (beneath : step.onOverlay = false)
    (ran : step.run r = .ok () r') :
    r.SameLayout r' ∧ r'.cache.overlay = r.cache.overlay := by
  rcases cases_beneath change beneath with ⟨a, rfl, store⟩ | rfl | rfl | rfl
  · exact store_layout store ran
  · obtain ⟨host, mid, asked, ran⟩ := of_bind_ok ran
    obtain ⟨begun, rfl⟩ := of_inspect_ok asked
    obtain ⟨-, -, rfl⟩ := Host.of_begin_ok begun
    cases ran
    exact ⟨⟨rfl, rfl, fun _ => rfl, rfl⟩, rfl⟩
  · cases ran
    exact ⟨⟨rfl, rfl, fun _ => rfl, rfl⟩, rfl⟩
  · obtain ⟨_, _, asked, ran⟩ := of_bind_ok ran
    cases asked
    obtain ⟨_, _, closed, ran⟩ := of_bind_ok ran
    cases closed
    obtain ⟨⟨file, settings, sizes, flags⟩, overlay⟩ := clearStrings_layout ran
    exact ⟨⟨file, settings, sizes, flags⟩, overlay⟩

/-- The layout never changes. -/
theorem run_layout (change : step.IsChange) (ran : step.run r = .ok () r') : r.SameLayout r' := by
  cases covers : step.onOverlay with
  | true => exact (run_onOverlay covers ran).layout
  | false => exact (run_beneath change covers ran).1

/-- **A run with the steps on the overlay left out** ends as well, and beneath the overlay it ends
with the same. -/
theorem run_without_overlay (changes : ∀ step ∈ steps, step.IsChange) {r₀ : Resolver}
    (level : r.Level r₀) (ran : steps.forM Step.run r = .ok () r') :
    ∃ r₀', (steps.filter (!·.onOverlay)).forM Step.run r₀ = .ok () r₀' ∧ r'.Level r₀' := by
  induction steps generalizing r r₀ with
  | nil =>
    cases ran
    exact ⟨r₀, rfl, level⟩
  | cons step rest ih =>
    obtain ⟨mid, first, later⟩ := of_forM_cons ran
    have changes_rest : ∀ step ∈ rest, step.IsChange := fun step mem =>
      changes step (List.mem_cons_of_mem _ mem)
    cases covers : step.onOverlay with
    | true =>
      -- the other run stays where it is
      rw [List.filter_cons_of_neg (by rw [covers]; decide)]
      have back := run_onOverlay covers first
      exact ih changes_rest ⟨back.cache.symm.trans level.cache, back.host.symm.trans level.host⟩
        later
    | false =>
      rw [List.filter_cons_of_pos (by rw [covers]; rfl)]
      have agree := run_level (changes step List.mem_cons_self) covers level
      rw [first] at agree
      obtain ⟨_, mid₀, first₀, -, level'⟩ := agree.of_ok
      obtain ⟨r₀', later₀, level''⟩ := ih changes_rest level' later
      refine ⟨r₀', ?_, level''⟩
      show (step.run >>= fun _ => (rest.filter (!·.onOverlay)).forM Step.run) r₀ = _
      rw [bind_ok first₀, later₀]

end Step

end Resolver

end ResolutionCache
