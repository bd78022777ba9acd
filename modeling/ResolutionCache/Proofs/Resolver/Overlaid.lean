import ResolutionCache.Proofs.Resolver.Beneath
import ResolutionCache.Proofs.Resolver.Overlays

/-!
# Strings beneath an overlay

While the compiler's overlay is on it answers for the strings that were stored in it since it was
last switched on; for all other strings the table answers, as if there were no overlay.
`Resolver.get_overlaid` says so of any run of stores, clears, transactions and overlay steps on a
new cache, told from the steps alone (`Resolver.Overlaid`): switching the overlay on forgets what it
had before, however often it is switched on and off, and whether or not it was on already.
-/

namespace ResolutionCache.Resolver

open Attempt

variable {r r' : Resolver} {index : UInt32} {string : Ref} {step : Step} {steps : List Step}

/-- The step neither switches the overlay on nor off. -/
def Step.KeepsOffer (step : Step) : Prop :=
  step ≠ .act .offerOverlay ∧ step ≠ .act .withdrawOverlay

/-- The step leaves what the overlay has for an index. -/
def Step.SparesOverlaid (index : UInt32) (step : Step) : Prop :=
  step.KeepsOffer ∧ ∀ other, step ≠ .act (.setOverlay index other)

/-- **A string that the overlay answers with:** the overlay was switched on and, since it was last
switched on, not switched off; and after that the string was the last to be stored for the index. -/
def Overlaid (steps : List Step) (index : UInt32) (string : Ref) : Prop :=
  ∃ earlier between later,
    steps = earlier ++ .act .offerOverlay :: between ++ .act (.setOverlay index string) :: later ∧
    (∀ step ∈ between ++ later, step.KeepsOffer) ∧
    ∀ other, .act (.setOverlay index other) ∉ later

/-! ### One step -/

namespace Step

/-- **What a step does to the overlay.** -/
theorem overlay_cases (change : step.IsChange) (ran : step.run r = .ok () r') :
    (step = act .offerOverlay ∧ r'.cache.overlay = r.cache.overlay.offer) ∨
    (step = act .withdrawOverlay ∧ r'.cache.overlay = r.cache.overlay.withdraw) ∨
    (∃ i p, step = act (.setOverlay i p) ∧ p ≠ .null ∧
      r.cache.overlay.put? i.toNat p = some r'.cache.overlay) ∨
    (step.onOverlay = false ∧ r'.cache.overlay = r.cache.overlay) := by
  cases covers : step.onOverlay with
  | false => exact .inr (.inr (.inr ⟨rfl, (run_beneath change covers ran).2⟩))
  | true =>
    cases step with
    | act a =>
      cases a with
      | offerOverlay =>
        refine .inl ⟨rfl, ?_⟩
        rw [(of_offerOverlay_ok ran).1]
      | withdrawOverlay =>
        cases ran
        exact .inr (.inl ⟨rfl, rfl⟩)
      | setOverlay i p =>
        obtain ⟨full, overlay, put, rfl⟩ := of_setOverlay_ok ran
        exact .inr (.inr (.inl ⟨i, p, rfl, full, put⟩))
      | _ => cases covers
    | _ => cases covers

/-- A step beneath the overlay spares everything in it. -/
theorem spares_of_beneath (beneath : step.onOverlay = false) (index : UInt32) :
    step.SparesOverlaid index := by
  refine ⟨⟨?_, ?_⟩, fun other => ?_⟩
  all_goals
    rintro rfl
    cases beneath

theorem coherent (change : step.IsChange) (coherent : r.cache.overlay.Coherent)
    (ran : step.run r = .ok () r') : r'.cache.overlay.Coherent := by
  rcases overlay_cases change ran with ⟨-, after⟩ | ⟨-, after⟩ | ⟨i, p, -, -, put⟩ | ⟨-, after⟩
  · rw [after]
    exact coherent.offer
  · rw [after]
    exact coherent.withdraw
  · exact coherent.put put
  · rwa [after]

theorem size_overlay (change : step.IsChange) (ran : step.run r = .ok () r') :
    r'.cache.overlay.size = r.cache.overlay.size := by
  rcases overlay_cases change ran with ⟨-, after⟩ | ⟨-, after⟩ | ⟨i, p, -, -, put⟩ | ⟨-, after⟩
  · rw [after]
    rfl
  · rw [after]
    rfl
  · rw [(Overlay.of_put?_eq_some put).2]
  · rw [after]

/-- The overlay is on after a step if the step switched it on, or if it was on and is kept. -/
theorem offered_iff (change : step.IsChange) (ran : step.run r = .ok () r') :
    r'.cache.overlay.offered = true ↔
      step = act .offerOverlay ∨ (step.KeepsOffer ∧ r.cache.overlay.offered = true) := by
  rcases overlay_cases change ran with ⟨rfl, after⟩ | ⟨rfl, after⟩ | ⟨i, p, rfl, -, put⟩ |
    ⟨beneath, after⟩
  · simp [after, Overlay.offer]
  · simp [after, Overlay.withdraw, KeepsOffer]
  · obtain ⟨-, after⟩ := Overlay.of_put?_eq_some put
    simp [after, KeepsOffer]
  · have keeps := (spares_of_beneath beneath 0).1
    simp [after, keeps, keeps.1]

/-- The overlay has a string after a step if the step stored it, or if it had it and is spared. -/
theorem overlaid_iff (change : step.IsChange) (coherent : r.cache.overlay.Coherent)
    (ran : step.run r = .ok () r') :
    r'.cache.overlay.lookup index.toNat = some string ↔
      step = act (.setOverlay index string) ∨
        (step.SparesOverlaid index ∧ r.cache.overlay.lookup index.toNat = some string) := by
  rcases overlay_cases change ran with ⟨rfl, after⟩ | ⟨rfl, after⟩ | ⟨i, p, rfl, full, put⟩ |
    ⟨beneath, after⟩
  · simp [after, SparesOverlaid, KeepsOffer]
  · simp [after, SparesOverlaid, KeepsOffer]
  · rw [coherent.lookup_put full put]
    by_cases own : i = index
    · subst own
      simp [SparesOverlaid]
    · have elsewhere : i.toNat ≠ index.toNat := fun same => own (UInt32.toNat_inj.mp same)
      simp [SparesOverlaid, KeepsOffer, own, elsewhere]
  · have spares := spares_of_beneath beneath index
    simp [after, spares, spares.2]

end Step

/-! ### Runs -/

theorem coherent_run (changes : ∀ step ∈ steps, step.IsChange)
    (coherent : r.cache.overlay.Coherent) (ran : steps.forM Step.run r = .ok () r') :
    r'.cache.overlay.Coherent ∧ r'.cache.overlay.size = r.cache.overlay.size := by
  refine forM_invariant
    (I := fun s => s.cache.overlay.Coherent ∧ s.cache.overlay.size = r.cache.overlay.size)
    ⟨coherent, rfl⟩ ?_ ran
  rintro step mem s s' ⟨before, size⟩ ran
  exact ⟨Step.coherent (changes step mem) before ran,
    (Step.size_overlay (changes step mem) ran).trans size⟩

theorem layout_run (changes : ∀ step ∈ steps, step.IsChange)
    (ran : steps.forM Step.run r = .ok () r') : r.SameLayout r' :=
  forM_invariant (I := r.SameLayout) (.refl r)
    (fun step mem _ _ before ran => before.trans (Step.run_layout (changes step mem) ran)) ran

/-- After a run that began with the overlay off, the overlay is on if it was switched on and kept
from then on. -/
theorem offered_run (changes : ∀ step ∈ steps, step.IsChange)
    (off : r.cache.overlay.offered = false) (ran : steps.forM Step.run r = .ok () r') :
    r'.cache.overlay.offered = true ↔ LastOf (.act .offerOverlay) Step.KeepsOffer steps := by
  have last := forM_lastOf (I := fun _ => True) (P := fun s => s.cache.overlay.offered = true)
    (s := r) trivial
    (fun step mem _ _ _ ran => ⟨trivial, Step.offered_iff (changes step mem) ran⟩) ran
  simpa [off] using last

/-- The overlay has a string after a run if the string was stored and spared from then on, or if it
was there before and spared by all steps. -/
theorem lookup_run (changes : ∀ step ∈ steps, step.IsChange)
    (coherent : r.cache.overlay.Coherent) (ran : steps.forM Step.run r = .ok () r') :
    r'.cache.overlay.lookup index.toNat = some string ↔
      LastOf (.act (.setOverlay index string)) (Step.SparesOverlaid index) steps ∨
        ((∀ step ∈ steps, step.SparesOverlaid index) ∧
          r.cache.overlay.lookup index.toNat = some string) :=
  forM_lastOf (I := fun s => s.cache.overlay.Coherent)
    (P := fun s => s.cache.overlay.lookup index.toNat = some string) coherent
    (fun step mem _ _ before ran => ⟨Step.coherent (changes step mem) before ran,
      Step.overlaid_iff (changes step mem) before ran⟩) ran

/-- **The string that the overlay has after a run** that began with the overlay off. -/
theorem lookup_overlay_iff (changes : ∀ step ∈ steps, step.IsChange)
    (coherent : r.cache.overlay.Coherent) (off : r.cache.overlay.offered = false)
    (ran : steps.forM Step.run r = .ok () r') :
    r'.cache.overlay.lookup index.toNat = some string ↔ Overlaid steps index string := by
  have nothing : r.cache.overlay.lookup index.toNat ≠ some string := by
    rw [Overlay.lookup_of_off off]
    nofun
  rw [lookup_run changes coherent ran]
  constructor
  · rintro (⟨before, later, rfl, spared⟩ | ⟨-, had⟩)
    · -- the string could be stored because the overlay had been switched on before
      obtain ⟨mid, ran₁, ran₂⟩ := of_forM_append ran
      obtain ⟨_, stored, -⟩ := of_forM_cons ran₂
      obtain ⟨-, _, put, -⟩ := of_setOverlay_ok stored
      have on : mid.cache.overlay.offered = true := by
        have reached := (Overlay.of_put?_eq_some put).1
        simp only [Overlay.reaches, Bool.and_eq_true] at reached
        exact reached.1.2
      have changes_before : ∀ step ∈ before, step.IsChange := fun step mem =>
        changes step (List.mem_append_left _ mem)
      obtain ⟨earlier, between, rfl, keeps⟩ := (offered_run changes_before off ran₁).mp on
      refine ⟨earlier, between, later, rfl, fun step mem => ?_, fun other mem => ?_⟩
      · rcases List.mem_append.mp mem with mem | mem
        · exact keeps step mem
        · exact (spared step mem).1
      · exact (spared _ mem).2 other rfl
    · exact absurd had nothing
  · rintro ⟨earlier, between, later, rfl, keeps, none_later⟩
    refine .inl ⟨earlier ++ .act .offerOverlay :: between, later, rfl, fun step mem => ?_⟩
    refine ⟨keeps step (List.mem_append_right _ mem), ?_⟩
    rintro other rfl
    exact none_later other mem

/-- **Switching the overlay on forgets what it had:** only what is stored from then on is found. -/
theorem lookup_after_offer {before after : List Step}
    (changes : ∀ step ∈ before ++ .act .offerOverlay :: after, step.IsChange)
    (coherent : r.cache.overlay.Coherent)
    (ran : (before ++ .act .offerOverlay :: after).forM Step.run r = .ok () r')
    (unstored : ∀ string, .act (.setOverlay index string) ∉ after) :
    r'.cache.overlay.lookup index.toNat = none := by
  obtain ⟨mid, ran₁, ran₂⟩ := of_forM_append ran
  obtain ⟨mid', offered, ran₃⟩ := of_forM_cons ran₂
  have empty : mid'.cache.overlay.lookup index.toNat = none := by
    rw [(of_offerOverlay_ok offered).1]
    exact Overlay.lookup_offer _ _
  obtain ⟨coherent₁, -⟩ := coherent_run (fun step mem => changes step (List.mem_append_left _ mem))
    coherent ran₁
  have coherent₂ := Step.coherent (changes _ (List.mem_append_right _ List.mem_cons_self))
    coherent₁ offered
  have changes_after : ∀ step ∈ after, step.IsChange := fun step mem =>
    changes step (List.mem_append_right _ (List.mem_cons_of_mem _ mem))
  cases found : r'.cache.overlay.lookup index.toNat with
  | none => rfl
  | some string =>
    rcases (lookup_run changes_after coherent₂ ran₃).mp found with last | ⟨-, had⟩
    · exact absurd last.mem (unstored string)
    · rw [empty] at had
      cases had

/-- **What lookups of strings answer under an overlay.** Take any run of stores, clears, transactions
and overlay steps on a new cache, none of which stopped with a fault, and the same run with the
overlay steps left out, which then ends as well. The two end with the same tables and the same host.
A string is answered by the overlay if the overlay has been switched on and not off again, and the
string was the last to be stored in it for the index since then. For every other index in range the
answer is what the table holds, and it is the answer of the run without an overlay. No string stored
before the overlay was switched on is found in it afterwards. A further step on the overlay changes
nothing beneath it, and any other step changes nothing in it. Readers and writers get at the entries
that collectors get at. -/
theorem get_overlaid {id : CacheId} {file : SymbolFile} {location : Ref} {overrides : Overrides}
    {c : Cache} {host : Host} {dirty : Option DirtySet} {steps : List Step} {r : Resolver}
    (created : Cache.create id file location overrides = .ok c)
    (changes : ∀ step ∈ steps, step.IsChange)
    (ran : steps.forM Step.run { cache := c, host, dirty } = .ok () r) :
    ∃ r₀, (steps.filter (!·.onOverlay)).forM Step.run { cache := c, host, dirty } = .ok () r₀ ∧
      r.Level r₀ ∧
      (∀ index string, Overlaid steps index string → r.get .string index = .ok (some string)) ∧
      (∀ index, index < file.strings → (∀ string, ¬ Overlaid steps index string) →
        r.get .string index = .ok (r.cache.held .string index) ∧
        r₀.get .string index = r.get .string index) ∧
      (∀ before after index, steps = before ++ .act .offerOverlay :: after →
        (∀ string, .act (.setOverlay index string) ∉ after) →
        r.cache.overlay.lookup index.toNat = none) ∧
      (∀ (step : Step) (r' : Resolver), step.IsChange → step.run r = .ok () r' →
        if step.onOverlay then r.Level r' else r'.cache.overlay = r.cache.overlay) ∧
      r.cache.overlay.size = file.strings.toNat ∧ r.cache.overlay.OneView := by
  obtain ⟨accepted, -, new⟩ := Cache.of_create_ok created
  have usable := Settings.usable_of_ofOverrides accepted .string
  obtain ⟨r₀, ran₀, level⟩ := Step.run_without_overlay changes (.refl _) ran
  have coherent : c.overlay.Coherent := by
    rw [new.overlay]
    exact Overlay.coherent_ofSize _
  have off : c.overlay.offered = false := by
    rw [new.overlay]
    rfl
  obtain ⟨coherent_after, size⟩ := coherent_run changes coherent ran
  have found (index : UInt32) (string : Ref) :
      r.cache.overlay.lookup index.toNat = some string ↔ Overlaid steps index string :=
    lookup_overlay_iff changes coherent off ran
  -- without steps on the overlay it stays off
  have silent₀ (index : UInt32) : r₀.cache.overlay.lookup index.toNat = none := by
    have kept : r₀.cache.overlay = c.overlay := by
      refine forM_invariant (I := fun s => s.cache.overlay = c.overlay) rfl ?_ ran₀
      intro step mem s s' before ran
      obtain ⟨mem, beneath⟩ := List.mem_filter.mp mem
      rw [(Step.run_beneath (changes step mem) (by simpa using beneath) ran).2, before]
    rw [kept, new.overlay]
    rfl
  refine ⟨r₀, ran₀, level, ?_, ?_, ?_, ?_, ?_, coherent_after.oneView⟩
  · intro index string overlaid
    rw [get_string, (found index string).mpr overlaid]
  · intro index range none_overlaid
    have silent : r.cache.overlay.lookup index.toNat = none :=
      Option.eq_none_iff_forall_ne_some.mpr fun string had =>
        none_overlaid string ((found index string).mp had)
    have at_slot := ((layout_run changes ran).slot_eq .string index).trans
      (new.slot_eq usable range host dirty nofun)
    rw [get_eq_slotted silent, get_eq_slotted (silent₀ index), slotted_of_ok at_slot]
    refine ⟨rfl, ?_⟩
    rw [level.layout.slotted_eq (level.held .string index), slotted_of_ok at_slot]
  · rintro before after index rfl unstored
    exact lookup_after_offer changes coherent ran unstored
  · intro step r' change ran
    cases covers : step.onOverlay with
    | true => exact Step.run_onOverlay covers ran
    | false => exact (Step.run_beneath change covers ran).2
  · rw [size, new.overlay]
    rfl

/-- Two strings are stored in the overlay, which is then switched on once more and given one of them
again; a string beneath it is resolved in a transaction and rolled back. -/
def offeredTwice : List Step :=
  [.act (.set .string 1 ⟨8⟩), .act .offerOverlay, .act (.setOverlay 1 ⟨16⟩),
    .act (.setOverlay 3 ⟨24⟩), .act .offerOverlay, .act (.setOverlay 1 ⟨32⟩), .begin,
    .act (.set .string 0 ⟨40⟩), .rollback]

theorem get_overlaid_offeredTwice :
    ∃ c r, Cache.create ⟨1⟩ fourStrings .null { string := some 2 } = .ok c ∧
      (∀ step ∈ offeredTwice, step.IsChange) ∧
      offeredTwice.forM Step.run { cache := c, host := .ofCompiler } = .ok () r ∧
      r.get .string 1 = .ok (some ⟨32⟩) ∧ r.cache.overlay.lookup (3 : UInt32).toNat = none := by
  obtain ⟨c, created⟩ : ∃ c, Cache.create ⟨1⟩ fourStrings .null { string := some 2 } = .ok c :=
    ⟨_, rfl⟩
  obtain ⟨_, r, ran⟩ : ∃ a r, offeredTwice.forM Step.run { cache := c, host := .ofCompiler } =
      .ok a r := by
    cases created
    exact of_ends (by decide +kernel)
  have changes : ∀ step ∈ offeredTwice, step.IsChange := by
    simp [offeredTwice, Step.IsChange]
  obtain ⟨r₀, -, -, overlaid, -, forgotten, -⟩ := get_overlaid created changes ran
  refine ⟨c, r, created, changes, ran, overlaid 1 ⟨32⟩ ?_, ?_⟩
  · refine ⟨[.act (.set .string 1 ⟨8⟩), .act .offerOverlay, .act (.setOverlay 1 ⟨16⟩),
      .act (.setOverlay 3 ⟨24⟩)], [], [.begin, .act (.set .string 0 ⟨40⟩), .rollback], rfl, ?_, ?_⟩
    · simp [Step.KeepsOffer]
    · simp
  · refine forgotten [.act (.set .string 1 ⟨8⟩), .act .offerOverlay, .act (.setOverlay 1 ⟨16⟩),
      .act (.setOverlay 3 ⟨24⟩)] _ 3 rfl ?_
    simp

end ResolutionCache.Resolver
