import ResolutionCache.LoadTest.Run
import ResolutionCache.Proofs.LoadTest.Audit
import ResolutionCache.Proofs.LoadTest.Collection

/-!
# Load tests succeed

A load test can go wrong in three ways only: a capacity that is given cannot be used, the table of
fields is so long that an offset does not fit, or the address space runs out. If none of the three
applies, it goes through all of its rounds (`LoadTest.run_outcome`), for the load test is sound from
the beginning and stays so.
-/

namespace ResolutionCache

open Attempt LoadTest

namespace LoadTestOptions

/-- The file that a load test is about. -/
def file (o : LoadTestOptions) : SymbolFile :=
  { location, strings := o.ids, types := o.ids, fields := o.ids, callSites := o.callSites }

/-- **The address space runs out:** one place more is asked for than there are, and the counter of
the heap has come round to zero. -/
def OutOfPlaces (o : LoadTestOptions) (s : Surroundings) : Prop :=
  match start o s with
  | .error _ => False
  | .ok w =>
    match runRounds o w with
    | .ok _ w => w.heap.next = 0
    | .error _ w => w.heap.next = 0

/-- A bound for the places that a round takes. -/
def roundCost (o : LoadTestOptions) : Nat :=
  o.threads * (o.iterations * 3) + o.file.mostRoots

end LoadTestOptions

namespace LoadTest

variable {o : LoadTestOptions} {s : Surroundings} {file : SymbolFile} {w : LoadTest}

/-! ### Rounds -/

/-- The mutators of a round. -/
theorem turnsOfRound_within (even : o.file.Even) (sound : w.Sound o.file) (number : Nat) :
    Within w.heap.room (o.threads * (o.iterations * 3)) (fun _ w' => w'.Sound o.file)
      (turnsOfRound o number w) :=
  .forEach (fun _ _ sound => (turns_within even sound _ _).stoppingWith) _ _ sound

theorem takeDirty_within (sound : w.Sound file) :
    Within w.heap.room 0 (fun _ w' => w'.Sound file) (takeDirty w) :=
  .of_ok rfl rfl (sound.congr rfl rfl rfl rfl)

theorem report_within {ε : Type} (sound : w.Sound file) (event : Event) :
    Within w.heap.room 0 (fun _ w' => w'.Sound file) (report event w : EStateM.Result ε _ _) :=
  .of_ok rfl rfl (sound.congr rfl rfl rfl rfl)

/-- **A round** keeps a load test sound. -/
theorem round_within (even : o.file.Even) (sound : w.Sound o.file) (number : Nat) :
    Within w.heap.room o.roundCost (fun _ w' => w'.Sound o.file) (round o number w) := by
  refine (turnsOfRound_within even sound number).bind fun _ w sound => .after rfl ?_
  refine (takeDirty_within sound).free_bind fun _ w sound => ?_
  refine (report_within sound _).free_bind fun _ w sound => ?_
  refine (collect_within sound).bind_free fun _ w sound => ?_
  exact .after (inspect_ok (sound.audit rfl)) (report_within sound _)

/-! ### The beginning -/

/-- The heap that a load test begins with has its location and nothing else. -/
theorem room_empty : 0 < ({} : Heap).room := by decide

theorem start_eq (o : LoadTestOptions) (s : Surroundings) :
    start o s =
      match Cache.create ⟨1⟩ o.file ({} : Heap).place o.capacities with
      | .error bad => .error (.badCapacity bad)
      | .ok cache =>
        .ok
          { surroundings := s
            heap := ({} : Heap).withNew (.string location)
            resolver := { cache, host := {}, dirty := some {} }
            journal := #[.ofCreated cache] } := by
  unfold start
  rw [Heap.wellFormed_empty.allocate_ok room_empty]
  rfl

/-- **A load test begins** with a new cache, and has counted nothing. -/
theorem of_start_ok (started : start o s = .ok w) : ∃ cache,
    Cache.create ⟨1⟩ o.file ({} : Heap).place o.capacities = .ok cache ∧
      w = { surroundings := s
            heap := ({} : Heap).withNew (.string location)
            resolver := { cache, host := {}, dirty := some {} }
            journal := #[.ofCreated cache] } := by
  rw [start_eq] at started
  cases created : Cache.create ⟨1⟩ o.file ({} : Heap).place o.capacities with
  | error bad =>
    rw [created] at started
    cases started
  | ok cache =>
    rw [created] at started
    cases started
    exact ⟨cache, rfl, rfl⟩

/-- Its cache has the capacities given, and the defaults where none is given. -/
theorem settings_start (started : start o s = .ok w) :
    w.resolver.cache.settings = o.capacities.settings := by
  obtain ⟨cache, created, rfl⟩ := of_start_ok started
  exact (Settings.ofOverrides_eq_ok_iff.mp (Cache.of_create_ok created).1).1

theorem surroundings_start (started : start o s = .ok w) : w.surroundings = s := by
  obtain ⟨cache, -, rfl⟩ := of_start_ok started
  rfl

/-- Nothing has been looked up yet. -/
theorem counts_start (started : start o s = .ok w) : w.hits = 0 ∧ w.misses = 0 := by
  obtain ⟨cache, -, rfl⟩ := of_start_ok started
  exact ⟨rfl, rfl⟩

/-- It begins soundly. -/
theorem start_sound (started : start o s = .ok w) : w.Sound o.file := by
  obtain ⟨cache, created, rfl⟩ := of_start_ok started
  obtain ⟨accepted, -, new⟩ := Cache.of_create_ok created
  refine ⟨Heap.wellFormed_empty.withNew room_empty _, ?_, rfl, new.filed⟩
  exact .of_new new (Settings.usable_of_ofOverrides accepted) rfl
    Std.HashMap.getElem?_insert_self

/-- One place is taken when a load test begins. -/
theorem room_start (started : start o s = .ok w) : w.heap.room = ({} : Heap).advance.room := by
  obtain ⟨cache, -, rfl⟩ := of_start_ok started
  rfl

/-- A load test begins unless a capacity cannot be used. -/
theorem start_error_iff {e : LoadTestError} :
    start o s = .error e ↔ ∃ bad, e = .badCapacity bad ∧ o.capacities.FirstUnusable bad := by
  have created (bad : BadCapacity) :
      Cache.create ⟨1⟩ o.file ({} : Heap).place o.capacities = .error bad ↔
        o.capacities.FirstUnusable bad :=
    Cache.create_eq_error_iff.trans Settings.ofOverrides_eq_error_iff
  simp only [← created, start_eq]
  cases Cache.create ⟨1⟩ o.file ({} : Heap).place o.capacities with
  | error bad => simp [eq_comm]
  | ok cache => simp

/-- A load test begins if every capacity given can be used. -/
theorem start_ok
    (usable : ∀ kind capacity, o.capacities.given kind = some capacity → UsableCapacity capacity) :
    ∃ w, start o s = .ok w := by
  cases started : start o s with
  | error e =>
    obtain ⟨bad, -, first⟩ := start_error_iff.mp started
    exact absurd (usable _ _ first.given) first.unusable
  | ok w => exact ⟨w, rfl⟩

/-! ### The table of fields -/

/-- The record of a field is named after its index, and its offset is four times the index, if this
fits a word. -/
theorem fieldRecord_eq (index : UInt32) :
    fieldRecord index =
      if index.toNat < 2 ^ 30 then .ok { name := "f" ++ toString index.toNat, offset := index * 4 }
      else .error .productOverflow := by
  have size : UInt32.size = 2 ^ 32 := rfl
  unfold fieldRecord fieldOffset
  by_cases fits : index.toNat < 2 ^ 30
  · rw [if_pos (show index.toNat * 4 < UInt32.size by omega), if_pos fits]
    rfl
  · rw [if_neg (show ¬ index.toNat * 4 < UInt32.size by omega), if_neg fits]
    rfl

/-- The table of fields fits as long as the offset of its last field does. -/
theorem checkFieldTable_eq (ids : UInt32) :
    checkFieldTable ids = if 2 ^ 30 < ids.toNat then .error .productOverflow else .ok () := by
  unfold checkFieldTable
  by_cases none : ids = 0
  · subst none
    rfl
  · have positive : ids.toNat ≠ 0 := fun zero => none (UInt32.toNat_inj.mp zero)
    have one_le : (1 : UInt32) ≤ ids := UInt32.le_iff_toNat_le.mpr (Nat.pos_of_ne_zero positive)
    rw [if_neg none, fieldRecord_eq, UInt32.toNat_sub_of_le _ _ one_le, UInt32.toNat_one]
    -- the last field is the one before the number of fields
    by_cases fits : ids.toNat ≤ 2 ^ 30
    · rw [if_pos (by omega), if_neg (by omega)]
      rfl
    · rw [if_neg (by omega), if_pos (by omega)]
      rfl

/-- Builds the records of the first `count` fields, one after another. -/
def buildFields (count : Nat) : Except Fault (List FieldRecord) :=
  (List.range count).mapM fun index => fieldRecord index.toUInt32

/-- The records fit as long as the last of them does, and the first that does not is of no account:
all of them overflow alike. -/
theorem buildFields_eq {count : Nat} (word : count ≤ 2 ^ 32) :
    buildFields count =
      if 2 ^ 30 < count then .error .productOverflow
      else .ok ((List.range count).map fun index =>
        { name := "f" ++ toString index, offset := index.toUInt32 * 4 }) := by
  induction count with
  | zero => rfl
  | succ count ih =>
    have same : count.toUInt32.toNat = count :=
      UInt32.toNat_ofNat_of_lt' (by show _ < 2 ^ 32; omega)
    have last : buildFields (count + 1) = (do
        let before ← buildFields count
        let record ← fieldRecord count.toUInt32
        return before ++ [record]) := by
      unfold buildFields
      rw [List.range_succ, List.mapM_append]
      simp
    have before := ih (by omega)
    rw [last]
    by_cases fits : count < 2 ^ 30
    · rw [if_neg (by omega)] at before
      rw [before, fieldRecord_eq, same, if_pos fits, if_neg (show ¬ 2 ^ 30 < count + 1 by omega),
        List.range_succ, List.map_append]
      rfl
    · rw [if_pos (show 2 ^ 30 < count + 1 by omega)]
      by_cases long : 2 ^ 30 < count
      · rw [if_pos long] at before
        rw [before]
        rfl
      · rw [if_neg long] at before
        rw [before, fieldRecord_eq, same, if_neg fits]
        rfl

/-- **Checking the table of fields is building it,** record by record. -/
theorem checkFieldTable_eq_buildFields (ids : UInt32) :
    checkFieldTable ids = (buildFields ids.toNat).map fun _ => () := by
  rw [checkFieldTable_eq, buildFields_eq (Nat.le_of_lt ids.toNat_lt)]
  split <;> rfl

/-! ### Whole runs -/

/-- The rounds and the figures, if the table of fields fits. -/
theorem runRounds_within (ids : o.ids ≠ 0) (fits : o.ids.toNat ≤ 2 ^ 30) (sound : w.Sound o.file) :
    Within w.heap.room (o.rounds * o.roundCost) (fun _ w' => w'.Sound o.file) (runRounds o w) := by
  have table : (checkFieldTable o.ids).mapError LoadTestError.fault = .ok () := by
    rw [checkFieldTable_eq, if_neg (Nat.not_lt.mpr fits)]
    rfl
  have step (number : Nat) (w : LoadTest) (sound : w.Sound o.file) :=
    round_within (o := o) ⟨ids, rfl, rfl⟩ sound number
  refine .after (inspect_ok table) ?_
  exact (Within.forEach step o.rounds 0 sound).bind_free
    fun _ w sound => .after rfl (report_within sound _)

/-- If the table of fields does not fit, nothing is looked up. -/
theorem runRounds_overflow (long : 2 ^ 30 < o.ids.toNat) :
    runRounds o w = .error (.fault .productOverflow) w := by
  refine bind_error (inspect_error ?_)
  rw [checkFieldTable_eq, if_pos long]
  rfl

/-- **A load test that asks for no more places than there are** does not run out of them: one for
the location, and what the rounds take. -/
theorem not_outOfPlaces (ids : o.ids ≠ 0)
    (enough : 1 + o.rounds * o.roundCost ≤ ({} : Heap).room) : ¬ o.OutOfPlaces s := by
  have counting {w : LoadTest} (sound : w.Sound o.file) : w.heap.next ≠ 0 := by
    intro round
    have started := sound.wellFormed.started
    rw [round] at started
    exact absurd started (by decide)
  unfold LoadTestOptions.OutOfPlaces
  cases started : start o s with
  | error e => exact id
  | ok w =>
    have sound := start_sound started
    dsimp only
    by_cases fits : o.ids.toNat ≤ 2 ^ 30
    · have within := runRounds_within ids fits sound
      generalize runRounds o w = result at within
      cases within with
      | ok sound' _ => exact counting sound'
      | exhausted _ short =>
        have left := Heap.wellFormed_empty.room_advance room_empty
        rw [room_start started] at short
        omega
    · rw [runRounds_overflow (Nat.lt_of_not_le fits)]
      exact counting sound

/-- **A load test that has begun** goes through all of its rounds if the table of fields fits. -/
theorem runRounds_of_start_ok (ids : o.ids ≠ 0) (fits : o.ids.toNat ≤ 2 ^ 30)
    (places : ¬ o.OutOfPlaces s) (started : start o s = .ok w) :
    ∃ w', runRounds o w = .ok () w' := by
  have within := runRounds_within ids fits (start_sound started)
  unfold LoadTestOptions.OutOfPlaces at places
  rw [started] at places
  dsimp only at places
  generalize runRounds o w = result at within places
  cases within with
  | ok _ _ => exact ⟨_, rfl⟩
  | exhausted round _ => exact absurd round places

theorem run_of_start_ok (ids : o.ids ≠ 0) (places : ¬ o.OutOfPlaces s)
    (started : start o s = .ok w) :
    (run o s).1 = if 2 ^ 30 < o.ids.toNat then .error (.fault .productOverflow) else .ok () := by
  unfold run
  rw [started]
  dsimp only
  by_cases fits : o.ids.toNat ≤ 2 ^ 30
  · obtain ⟨w', ran⟩ := runRounds_of_start_ok ids fits places started
    rw [ran, if_neg (Nat.not_lt.mpr fits)]
  · rw [runRounds_overflow (Nat.lt_of_not_le fits), if_pos (Nat.lt_of_not_le fits)]

/-- A load test is refused because of a capacity before it has begun, or not at all. -/
theorem run_badCapacity_iff (ids : o.ids ≠ 0) (places : ¬ o.OutOfPlaces s) {bad : BadCapacity} :
    (run o s).1 = .error (.badCapacity bad) ↔ o.capacities.FirstUnusable bad := by
  have refused : start o s = .error (.badCapacity bad) ↔ o.capacities.FirstUnusable bad := by
    rw [start_error_iff]
    simp
  rw [← refused]
  cases started : start o s with
  | error e =>
    have stopped : (run o s).1 = .error e := by rw [run, started]
    rw [stopped, Except.error.injEq, Except.error.injEq]
  | ok w =>
    rw [run_of_start_ok ids places started]
    split <;> simp

/-- **What becomes of a load test** of at least one index, unless the address space runs out,
whatever its surroundings. It is refused because of a capacity if and only if one is given that
cannot be used, and the complaint, of which the words are told, is about the first of them.
Otherwise it stops if the offset of a field does not fit, before any lookup, and else it succeeds:
no mutator stops, every collection sends as many roots as it moves objects, and every audit finds
nothing wrong. -/
theorem run_outcome (o : LoadTestOptions) (s : Surroundings) (ids : o.ids ≠ 0)
    (places : ¬ o.OutOfPlaces s) :
    (∀ bad, (run o s).1 = .error (.badCapacity bad) ↔ o.capacities.FirstUnusable bad) ∧
    ((∃ bad, (run o s).1 = .error (.badCapacity bad)) ↔
      ∃ kind capacity, o.capacities.given kind = some capacity ∧ ¬ UsableCapacity capacity) ∧
    (∀ bad name, o.capacities.FirstUnusable bad →
      (bad.kind, name) ∈ [(SlotKind.string, "string"), (.type, "type"),
        (.methodType, "method type"), (.field, "field"), (.method, "method")] →
      (run o s).1.mapError LoadTestError.message = .error (name ++ " cache capacity " ++
        toString bad.capacity.toNat ++ " must be a power of two and at least 2")) ∧
    ((∀ kind capacity, o.capacities.given kind = some capacity → UsableCapacity capacity) →
      (run o s).1 = if 2 ^ 30 < o.ids.toNat then .error (.fault .productOverflow) else .ok ()) := by
  refine ⟨fun bad => run_badCapacity_iff ids places, ?_, fun bad name first named => ?_,
    fun usable => ?_⟩
  · rw [← Settings.exists_firstUnusable_iff]
    exact exists_congr fun bad => run_badCapacity_iff ids places
  · rw [(run_badCapacity_iff ids places).mpr first]
    exact congrArg Except.error (bad.message_eq named)
  · obtain ⟨w, started⟩ := start_ok usable
    exact run_of_start_ok ids places started

/-- The load test of one mutator with the usual sizes takes a small part of the places there are,
and succeeds, also if the objects move in the opposite order. With a type cache of three slots it
complains. -/
theorem run_outcome_usual :
    (¬ ({ threads := 1 } : LoadTestOptions).OutOfPlaces { order := .reversed } ∧
      (run { threads := 1 } { order := .reversed }).1 = .ok ()) ∧
    ¬ ({ capacities := { type := some 3 } } : LoadTestOptions).OutOfPlaces {} ∧
      (run { capacities := { type := some 3 } }).1.mapError LoadTestError.message =
        .error "type cache capacity 3 must be a power of two and at least 2" := by
  constructor
  · have places : ¬ ({ threads := 1 } : LoadTestOptions).OutOfPlaces { order := .reversed } :=
      not_outOfPlaces (by decide) (by decide)
    obtain ⟨-, -, -, ends⟩ :=
      run_outcome { threads := 1 } { order := .reversed } (by decide) places
    exact ⟨places, ends fun kind _ given => by cases kind <;> cases given⟩
  · have places : ¬ ({ capacities := { type := some 3 } } : LoadTestOptions).OutOfPlaces {} :=
      not_outOfPlaces (by decide) (by decide)
    obtain ⟨-, -, complains, -⟩ := run_outcome { capacities := { type := some 3 } } {} (by decide)
      places
    have first : ({ type := some 3 } : Overrides).FirstUnusable ⟨.type, 3⟩ :=
      Settings.ofOverrides_eq_error_iff.mp rfl
    exact ⟨places, complains ⟨.type, 3⟩ "type" first (by simp)⟩

end LoadTest

end ResolutionCache
