import ResolutionCache.Proofs.LoadTest.Moments

/-!
# What is cached is bound to its index

At every moment of a load test whatever is cached is bound to its own index, and no reference is
held twice (`LoadTest.bound_at_every_moment`). An audit looks at less: it does not look at the
records of fields, at the targets of call sites and at the location, and it is held after
collections alone.

The records of fields are where the surroundings have them. A load test works on its heap, on its
cache, on its counts and on its journal, so it ends in the surroundings that it began with
(`LoadTest.keeps_upTo`).
-/

namespace ResolutionCache.LoadTest

open Attempt

variable {o : LoadTestOptions} {file : SymbolFile} {w : LoadTest}

/-! ### The surroundings stay -/

section

variable {ε α σ : Type}

theorem keeps_onHeap (action : EStateM ε Heap α) : Keeps surroundings (onHeap action) := by
  intro w
  simp only [onHeap]
  split <;> rfl

theorem keeps_onCache (action : EStateM ε Resolver α) : Keeps surroundings (onCache action) := by
  intro w
  unfold onCache
  split <;> rfl

theorem keeps_report (event : Event) :
    Keeps surroundings (report event : EStateM ε LoadTest Unit) :=
  keeps_modify fun _ => rfl

theorem keeps_stoppingWith {action : Attempt LoadTest α} (kept : Keeps surroundings action)
    (reason : Fault → ε) : Keeps surroundings (stoppingWith reason action) := by
  intro w
  have stays := kept w
  unfold stoppingWith
  cases ran : action w <;> rw [ran] at stays <;> exact stays

theorem keeps_use (kind : SlotKind) (index : UInt32) {resolve : Attempt LoadTest Unit}
    (kept : Keeps surroundings resolve) :
    Keeps surroundings (do unless ← isCached kind index do resolve : Attempt LoadTest Unit) := by
  refine ((keeps_onCache _).bind fun found => ?_).bind fun hit => ?_
  · refine Keeps.bind (keeps_modify fun w => ?_) fun _ => keeps_pure _
    exact surroundings_counted w found.isSome
  · cases hit with
    | true => exact keeps_pure _
    | false => exact kept

theorem keeps_useCallSite (index : UInt32) : Keeps surroundings (useCallSite index) := by
  refine (keeps_onCache _).bind fun found => ?_
  cases found with
  | some r => exact keeps_pure _
  | none =>
    exact (keeps_onHeap _).bind fun callSite => (keeps_onCache _).bind fun _ => keeps_pure _

/-- A turn works on the heap, on the cache and on the counts. -/
theorem keeps_turn (g : Generator) : Keeps surroundings (turn g) := by
  refine keeps_get.bind fun w => (keeps_inspect _).bind fun (index, g) => ?_
  refine (keeps_use .string index ?_).bind fun _ => (keeps_use .type index ?_).bind fun _ =>
    (keeps_use .field index ?_).bind fun _ => ?_
  · exact (keeps_onHeap _).bind fun string => keeps_onCache _
  · exact (keeps_onHeap _).bind fun type => keeps_onCache _
  · exact keeps_get.bind fun w => keeps_onCache _
  · split
    · exact keeps_pure g
    · refine (keeps_inspect _).bind fun (site, g) => ?_
      exact (keeps_useCallSite site).bind fun _ => keeps_pure g

theorem keeps_turns (iterations : Nat) (g : Generator) :
    Keeps surroundings (turns iterations g) := by
  induction iterations generalizing g with
  | zero => exact keeps_pure ()
  | succ iterations ih => exact (keeps_turn g).bind ih

theorem keeps_scan (v : Visitor 32 σ) (state : σ) : Keeps surroundings (scan v state) :=
  keeps_get.bind fun _ => (keeps_onCache _).bind fun _ => (keeps_report _).bind fun _ =>
    keeps_pure _

/-- A collection works on the heap and on the cache. -/
theorem keeps_collect : Keeps surroundings collect := by
  refine (keeps_stoppingWith ?_ _).bind fun (moved, sent) => ?_
  · exact (keeps_scan _ _).bind fun marks => (keeps_onHeap _).bind fun freed =>
      keeps_get.bind fun w => (keeps_onHeap _).bind fun moved => (keeps_report _).bind fun _ =>
      keeps_get.bind fun w => (keeps_scan _ _).bind fun sent => (keeps_onHeap _).bind fun _ =>
      keeps_get.bind fun w => (keeps_report _).bind fun _ => keeps_pure _
  · show Keeps surroundings (if sent ≠ moved then _ else _ : EStateM LoadTestError LoadTest Unit)
    split
    · exact fun _ => rfl
    · exact keeps_pure ()

end

theorem keeps_mutator (o : LoadTestOptions) (number taken thread : Nat) :
    Keeps surroundings (mutator o number taken thread) :=
  keeps_stoppingWith (keeps_turns _ _) _

theorem keeps_lookUp (o : LoadTestOptions) (number : Nat) : Keeps surroundings (lookUp o number) :=
  (keeps_forEach (keeps_mutator o number o.iterations) _ _).bind fun _ => keeps_get.bind fun _ =>
    Keeps.bind (fun _ => rfl) fun _ => keeps_report _

theorem keeps_round (o : LoadTestOptions) (number : Nat) : Keeps surroundings (round o number) := by
  rw [round_eq]
  exact (keeps_lookUp o number).bind fun _ => keeps_collect.bind fun _ =>
    (keeps_inspect _).bind fun entries => keeps_report _

theorem keeps_roundsBefore (o : LoadTestOptions) (number : Nat) :
    Keeps surroundings (roundsBefore o number) :=
  (keeps_inspect _).bind fun _ => keeps_forEach (keeps_round o) _ _

/-- **A load test leaves its surroundings alone.** -/
theorem keeps_upTo (o : LoadTestOptions) (moment : Moment) :
    Keeps surroundings (upTo o moment) := by
  cases moment with
  | betweenTurns number thread taken =>
    exact (keeps_roundsBefore o number).bind fun _ =>
      (keeps_forEach (keeps_mutator o number o.iterations) _ _).bind fun _ =>
        keeps_mutator o number taken thread
  | lookedUp number => exact (keeps_roundsBefore o number).bind fun _ => keeps_lookUp o number
  | collected number =>
    exact (keeps_roundsBefore o number).bind fun _ => (keeps_lookUp o number).bind fun _ =>
      keeps_collect
  | ended =>
    exact (keeps_inspect _).bind fun _ => (keeps_forEach (keeps_round o) _ _).bind fun _ =>
      keeps_get.bind fun w => keeps_report _

/-! ### What is cached is bound to its index -/

/-- **Everything cached is bound to its own index:** what a lookup finds is the object of the index
looked up, or the native record that the table of fields has for it; the location is in place, and
no reference is held twice. Every index of the file is answered. -/
structure Bound (records : FieldTable) (w : LoadTest) : Prop where
  answered : ∀ kind index, index < w.resolver.cache.ids kind →
    ∃ found, w.resolver.get kind index = .ok found
  claims : ∀ index, index < w.resolver.cache.file.callSites →
    ∃ found, w.resolver.getCallSite index = .ok found
  string : ∀ index r, w.resolver.get .string index = .ok (some r) →
    w.heap.resolve r .string = some (.string ("s" ++ toString index.toNat))
  type : ∀ index r, w.resolver.get .type index = .ok (some r) →
    ∃ c : ClassRecord, w.heap.resolve r .classRecord = some (.classRecord c) ∧
      c.status = .initialized ∧ c.descriptor = "LT" ++ toString index.toNat ++ ";" ∧
      c.statics[0]? = some index.toUInt64
  callSite : ∀ index r, w.resolver.getCallSite index = .ok (some r) →
    w.heap.resolve r .callSite = some (.callSite ("cs" ++ toString index.toNat))
  field : ∀ index p, w.resolver.get .field index = .ok (some p) → p = records.address index
  location :
    w.heap.resolve w.resolver.cache.location .string = some (.string "stress.dex")
  distinct : w.resolver.cache.roots.Nodup

/-- **In a sound load test** everything cached is bound to its own index. -/
theorem Sound.bound (sound : w.Sound file) : w.Bound w.surroundings.fields := by
  have serves := sound.stocked.serves
  have held {kind : SlotKind} {index : UInt32} {a : Address kind.width}
      (found : w.resolver.get kind index = .ok (some a)) :
      w.resolver.cache.held kind index = some a := by
    rw [sound.get_eq_slotted] at found
    exact (Resolver.of_slotted_ok found).2
  constructor
  case answered =>
    intro kind index range
    rw [Cache.ids, serves] at range
    exact ⟨_, sound.get kind range⟩
  case claims =>
    intro index range
    rw [serves] at range
    exact ⟨_, sound.getCallSite range⟩
  case string => exact fun index r found => sound.resolve_string (held found)
  case type => exact fun index r found => ⟨_, sound.resolve_type (held found), rfl, rfl, rfl⟩
  case callSite =>
    intro index r found
    by_cases range : index < file.callSites
    · rw [sound.getCallSite range] at found
      have resolved := sound.resolve_callSite (Except.ok.inj found)
      rwa [show index.toNat.toUInt32 = index from UInt32.ofNat_toNat] at resolved
    · unfold Resolver.getCallSite Resolver.checkCallSite at found
      rw [sound.host, serves, if_neg (by decide), if_pos (UInt32.not_lt.mp range)] at found
      cases found
  case field =>
    intro index p found
    obtain ⟨e, mem, rfl, rfl, full⟩ := Cache.mem_of_held (held found)
    exact sound.stocked.fields e mem full
  case location => exact Heap.resolve_of_found sound.stocked.location
  case distinct => exact sound.stocked.distinct

/-- **Everything cached is bound to its own index at every moment of a load test** with an index at
least, a table of fields that fits and capacities that can be used, unless the address space runs
out. The load test comes to all of its moments, and goes on from them: between any two turns of a
mutator, before and after every collection, and in the end. -/
theorem bound_at_every_moment (o : LoadTestOptions) (s : Surroundings) (ids : o.ids ≠ 0)
    (fits : o.ids.toNat ≤ 2 ^ 30)
    (usable : ∀ kind capacity, o.capacities.given kind = some capacity → UsableCapacity capacity)
    (places : ¬ o.OutOfPlaces s) :
    ∃ ready, start o s = .ok ready ∧ ∀ moment : Moment, moment.Occurs o →
      ∃ w, upTo o moment ready = .ok () w ∧ w.Bound s.fields ∧
        ∃ g, runRounds o ready = onward o moment g w := by
  obtain ⟨ready, started⟩ := start_ok usable
  obtain ⟨last, ran⟩ := runRounds_of_start_ok ids fits places started
  refine ⟨ready, started, fun moment occurs => ?_⟩
  obtain ⟨w, reached⟩ := comes_to ran occurs
  have stays : w.surroundings = s := by
    have kept := keeps_upTo o moment ready
    rw [reached] at kept
    exact kept.trans (surroundings_start started)
  have bound := (sound_at (start_sound started) reached).bound
  rw [stays] at bound
  exact ⟨w, reached, bound, runRounds_eq_onward occurs reached⟩

/-- The load test of one mutator with the usual sizes, in the midst of its last round. Objects move
in the opposite order. -/
theorem bound_at_every_moment_usual :
    ¬ ({ threads := 1 } : LoadTestOptions).OutOfPlaces { order := .reversed } ∧
    ∃ ready, start { threads := 1 } { order := .reversed } = .ok ready ∧
      ∃ w, upTo { threads := 1 } (.betweenTurns 2 0 10000) ready = .ok () w ∧
        w.Bound .inRow ∧
        ∃ g, runRounds { threads := 1 } ready =
          onward { threads := 1 } (.betweenTurns 2 0 10000) g w := by
  have places : ¬ ({ threads := 1 } : LoadTestOptions).OutOfPlaces { order := .reversed } :=
    not_outOfPlaces (by decide) (by decide)
  obtain ⟨ready, started, moments⟩ := bound_at_every_moment { threads := 1 }
    { order := .reversed } (by decide) (by decide)
    (fun kind _ given => by cases kind <;> cases given) places
  exact ⟨places, ready, started,
    moments (.betweenTurns 2 0 10000) ⟨by decide, by decide, by decide⟩⟩

end ResolutionCache.LoadTest
