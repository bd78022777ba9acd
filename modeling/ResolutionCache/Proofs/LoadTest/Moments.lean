import ResolutionCache.Proofs.LoadTest.Run

/-!
# The moments of a run

Between two turns, before a collection, after a collection and in the end, a run rests
(`LoadTest.Moment`). A run is a run as far as a moment (`LoadTest.upTo`) and one from there on
(`LoadTest.onward`), for every moment that its sizes provide for (`LoadTest.Moment.Occurs.splits`).
So a run that succeeds comes to all of them (`LoadTest.comes_to`), and goes on from each
(`LoadTest.runRounds_eq_onward`). At every moment that a run comes to it is sound
(`LoadTest.sound_at`).
-/

namespace ResolutionCache.LoadTest

open Attempt

variable {o : LoadTestOptions} {file : SymbolFile} {w w' : LoadTest}

/-! ### Moments -/

/-- A moment of a run at which neither a turn nor a collection is under way. -/
inductive Moment where
  /-- A mutator of a round has taken some of its turns, and is to take the next. -/
  | betweenTurns (number thread taken : Nat)
  /-- The lookups of a round are over, and its collection is next. -/
  | lookedUp (number : Nat)
  /-- The collection of a round is over, and its audit is next. -/
  | collected (number : Nat)
  /-- All rounds are over, and the figures are reported. -/
  | ended

/-- The run has the round, the mutator and the turns of the moment. -/
def Moment.Occurs (o : LoadTestOptions) : Moment → Prop
  | betweenTurns number thread taken =>
    number < o.rounds ∧ thread < o.threads ∧ taken ≤ o.iterations
  | lookedUp number => number < o.rounds
  | collected number => number < o.rounds
  | ended => True

/-! ### As far as a moment, and from there on -/

variable {number thread taken : Nat} {moment : Moment}

/-- A run as far as the beginning of a round. -/
def roundsBefore (o : LoadTestOptions) (number : Nat) : EStateM LoadTestError LoadTest Unit := do
  inspect fun _ => (checkFieldTable o.ids).mapError .fault
  forEach (round o) number 0

/-- A run from the beginning of a round on. -/
def roundsFrom (o : LoadTestOptions) (number : Nat) : EStateM LoadTestError LoadTest Unit := do
  forEach (round o) (o.rounds - number) number
  let w ← get
  report (.figures w.hits w.misses)

/-- One mutator of a round, as far as some number of turns. -/
def mutator (o : LoadTestOptions) (number taken thread : Nat) :
    EStateM LoadTestError LoadTest Unit :=
  stoppingWith (fun _ => .mutatorStopped) (turns taken (.ofSeed (seed o number thread)))

/-- What is reported when the lookups of a round are over. -/
def reportLookups (number : Nat) : EStateM LoadTestError LoadTest Unit := do
  let live := (← get).heap.size
  report (.roundOver number live (← takeDirty))

/-- A round as far as its collection. -/
def lookUp (o : LoadTestOptions) (number : Nat) : EStateM LoadTestError LoadTest Unit := do
  turnsOfRound o number
  reportLookups number

/-- The audit of a round. -/
def verify (number : Nat) : EStateM LoadTestError LoadTest Unit := do
  let entries ← inspect audit
  report (.verified number entries)

/-- **A run as far as a moment.** -/
def upTo (o : LoadTestOptions) : Moment → EStateM LoadTestError LoadTest Unit
  | .betweenTurns number thread taken => do
    roundsBefore o number
    forEach (mutator o number o.iterations) thread 0
    mutator o number taken thread
  | .lookedUp number => do
    roundsBefore o number
    lookUp o number
  | .collected number => do
    roundsBefore o number
    lookUp o number
    collect
  | .ended => runRounds o

/-- **A run from a moment on.** If a mutator is at work, it goes on with a generator. -/
def onward (o : LoadTestOptions) : Moment → Generator → EStateM LoadTestError LoadTest Unit
  | .betweenTurns number thread taken, g => do
    stoppingWith (fun _ => .mutatorStopped) (turns (o.iterations - taken) g)
    forEach (mutator o number o.iterations) (o.threads - (thread + 1)) (thread + 1)
    reportLookups number
    collect
    verify number
    roundsFrom o (number + 1)
  | .lookedUp number, _ => do
    collect
    verify number
    roundsFrom o (number + 1)
  | .collected number, _ => do
    verify number
    roundsFrom o (number + 1)
  | .ended, _ => pure ()

/-- A round is its lookups, a collection and an audit. -/
theorem round_eq (o : LoadTestOptions) (number : Nat) :
    round o number = (do
      lookUp o number
      collect
      verify number) := by
  unfold round lookUp reportLookups verify
  simp only [bind_assoc]

/-- A run is the rounds before one of them, this one, and those behind. -/
theorem runRounds_eq (below : number < o.rounds) :
    runRounds o = (do
      roundsBefore o number
      lookUp o number
      collect
      verify number
      roundsFrom o (number + 1)) := by
  unfold runRounds roundsBefore roundsFrom
  rw [forEach_split below, Nat.zero_add, round_eq]
  simp only [bind_assoc]

/-- The lookups of a round are those of the mutators before one of them, of this one, and of those
behind. -/
theorem lookUp_eq (below : thread < o.threads) :
    lookUp o number = (do
      forEach (mutator o number o.iterations) thread 0
      mutator o number o.iterations thread
      forEach (mutator o number o.iterations) (o.threads - (thread + 1)) (thread + 1)
      reportLookups number) := by
  have turns : turnsOfRound o number = forEach (mutator o number o.iterations) o.threads 0 := rfl
  rw [lookUp, turns, forEach_split below, Nat.zero_add]
  simp only [bind_assoc]

/-- One mutator of a round, as far as some number of turns, with the generator that is left. -/
def mutatorThen (o : LoadTestOptions) (number taken thread : Nat) :
    EStateM LoadTestError LoadTest Generator :=
  stoppingWith (fun _ => .mutatorStopped) (turnsThen taken (.ofSeed (seed o number thread)))

theorem mutator_eq (o : LoadTestOptions) (number taken thread : Nat) :
    mutator o number taken thread = (do let _ ← mutatorThen o number taken thread) := by
  unfold mutator mutatorThen
  rw [turns_eq, stoppingWith_bind]
  rfl

/-- A mutator is some of its turns and the others. -/
theorem mutator_split (le : taken ≤ o.iterations) :
    mutator o number o.iterations thread = (do
      let g ← mutatorThen o number taken thread
      stoppingWith (fun _ => .mutatorStopped) (turns (o.iterations - taken) g)) := by
  unfold mutator mutatorThen
  rw [← stoppingWith_bind, ← turns_add, Nat.add_sub_cancel' le]

/-- **A run is a run as far as a moment, and one from there on.** What they have in common, apart
from the load test, is the generator of the mutator at work. -/
def Moment.Splits (o : LoadTestOptions) (moment : Moment) : Prop :=
  ∃ before : EStateM LoadTestError LoadTest Generator,
    upTo o moment = (do let _ ← before) ∧
    runRounds o = (do
      let g ← before
      onward o moment g)

/-- At the moments at which no mutator is at work any generator will do. -/
theorem Moment.Splits.of_eq (g : Generator) (all : runRounds o = (do
      upTo o moment
      onward o moment g)) : moment.Splits o := by
  refine ⟨upTo o moment >>= fun _ => pure g, ?_, ?_⟩
  · simp only [bind_assoc, pure_bind, bind_pure_unit]
  · simp only [all, bind_assoc, pure_bind]

/-- **A run splits at every moment** that its sizes provide for. -/
theorem Moment.Occurs.splits (occurs : moment.Occurs o) : moment.Splits o := by
  cases moment with
  | betweenTurns number thread taken =>
    obtain ⟨in_rounds, in_threads, in_turns⟩ := occurs
    refine ⟨do
      roundsBefore o number
      forEach (mutator o number o.iterations) thread 0
      mutatorThen o number taken thread, ?_, ?_⟩
    · simp only [upTo, mutator_eq, bind_assoc]
    · rw [runRounds_eq in_rounds, lookUp_eq in_threads, mutator_split in_turns]
      simp only [onward, bind_assoc]
  | lookedUp number =>
    refine .of_eq (.ofSeed 0) ?_
    rw [runRounds_eq occurs]
    simp only [upTo, onward, bind_assoc]
  | collected number =>
    refine .of_eq (.ofSeed 0) ?_
    rw [runRounds_eq occurs]
    simp only [upTo, onward, bind_assoc]
  | ended => exact .of_eq (.ofSeed 0) bind_pure_unit.symm

/-- **A run that succeeds comes to every moment.** -/
theorem comes_to (ran : runRounds o w = .ok () w') (occurs : moment.Occurs o) :
    ∃ mid, upTo o moment w = .ok () mid := by
  obtain ⟨before, as_far, all⟩ := occurs.splits
  rw [all] at ran
  obtain ⟨g, mid, first, -⟩ := of_bind_ok ran
  exact ⟨mid, by rw [as_far, bind_ok first]; rfl⟩

/-- **A run goes on from every moment that it comes to.** -/
theorem runRounds_eq_onward (occurs : moment.Occurs o) (reached : upTo o moment w = .ok () w') :
    ∃ g, runRounds o w = onward o moment g w' := by
  obtain ⟨before, as_far, all⟩ := occurs.splits
  rw [as_far] at reached
  obtain ⟨g, mid, first, done⟩ := of_bind_ok reached
  cases done
  exact ⟨g, by rw [all, bind_ok first]⟩

/-- When the collection of a round is over, its lookups were over before. -/
theorem of_upTo_collected_ok (ran : upTo o (.collected number) w = .ok () w') :
    ∃ mid, upTo o (.lookedUp number) w = .ok () mid ∧ collect mid = .ok () w' := by
  have split : upTo o (.collected number) = (do
      upTo o (.lookedUp number)
      collect) := by
    simp only [upTo, bind_assoc]
  rw [split] at ran
  obtain ⟨_, mid, looked, moved⟩ := of_bind_ok ran
  exact ⟨mid, looked, moved⟩

/-! ### Every moment is sound -/

/-- A turn that ends leaves a sound load test sound. -/
theorem turn_sound (sound : w.Sound o.file) {g g' : Generator} (ran : turn g w = .ok g' w') :
    w'.Sound o.file := by
  by_cases none : o.file.strings = 0
  · rw [turn_error (by rwa [sound.stocked.serves])] at ran
    cases ran
  · exact (turn_within ⟨none, rfl, rfl⟩ sound g).of_ran ran

theorem turns_sound (sound : w.Sound o.file) {iterations : Nat} {g : Generator}
    (ran : turns iterations g w = .ok () w') : w'.Sound o.file := by
  induction iterations generalizing w g with
  | zero =>
    cases ran
    exact sound
  | succ iterations ih =>
    obtain ⟨g', mid, turned, rest⟩ := of_bind_ok ran
    exact ih (turn_sound sound turned) rest

theorem mutator_sound (sound : w.Sound o.file)
    (ran : mutator o number taken thread w = .ok () w') : w'.Sound o.file :=
  turns_sound sound (of_stoppingWith_ok ran)

theorem lookUp_sound (sound : w.Sound o.file) (ran : lookUp o number w = .ok () w') :
    w'.Sound o.file := by
  obtain ⟨_, turned, mutators, ran⟩ := of_bind_ok ran
  have sound := forEach_invariant sound (fun _ _ _ sound ran => mutator_sound sound ran) mutators
  cases ran
  exact sound.congr rfl rfl rfl rfl

theorem collect_sound (sound : w.Sound file) (ran : collect w = .ok () w') : w'.Sound file :=
  (collect_within sound).of_ran ran

theorem round_sound (sound : w.Sound o.file) (ran : round o number w = .ok () w') :
    w'.Sound o.file := by
  rw [round_eq] at ran
  obtain ⟨_, mid, looked, ran⟩ := of_bind_ok ran
  obtain ⟨_, after, moved, ran⟩ := of_bind_ok ran
  obtain ⟨entries, _, asked, ran⟩ := of_bind_ok ran
  obtain ⟨-, rfl⟩ := of_inspect_ok asked
  cases ran
  exact (collect_sound (lookUp_sound sound looked) moved).congr rfl rfl rfl rfl

theorem roundsBefore_sound (sound : w.Sound o.file)
    (ran : roundsBefore o number w = .ok () w') : w'.Sound o.file := by
  obtain ⟨_, _, table, rounds⟩ := of_bind_ok ran
  obtain ⟨-, rfl⟩ := of_inspect_ok table
  exact forEach_invariant sound (fun _ _ _ sound ran => round_sound sound ran) rounds

/-- **At every moment that it comes to, a run is sound.** -/
theorem sound_at (sound : w.Sound o.file) (ran : upTo o moment w = .ok () w') :
    w'.Sound o.file := by
  cases moment with
  | betweenTurns number thread taken =>
    obtain ⟨_, begun, before, ran⟩ := of_bind_ok ran
    obtain ⟨_, mid, earlier, own⟩ := of_bind_ok ran
    have begun_sound := roundsBefore_sound sound before
    have mid_sound := forEach_invariant begun_sound
      (fun _ _ _ sound ran => mutator_sound sound ran) earlier
    exact mutator_sound mid_sound own
  | lookedUp number =>
    obtain ⟨_, begun, before, looked⟩ := of_bind_ok ran
    exact lookUp_sound (roundsBefore_sound sound before) looked
  | collected number =>
    obtain ⟨mid, reached, moved⟩ := of_upTo_collected_ok ran
    obtain ⟨_, begun, before, looked⟩ := of_bind_ok reached
    exact collect_sound (lookUp_sound (roundsBefore_sound sound before) looked) moved
  | ended =>
    have begin : runRounds o = (do
        roundsBefore o o.rounds
        let w ← get
        report (.figures w.hits w.misses)) := by
      unfold runRounds roundsBefore
      simp only [bind_assoc]
    rw [show upTo o .ended = runRounds o from rfl, begin] at ran
    obtain ⟨_, last, rounds, ran⟩ := of_bind_ok ran
    cases ran
    exact (roundsBefore_sound sound rounds).congr rfl rfl rfl rfl

end ResolutionCache.LoadTest
