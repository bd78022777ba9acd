import ResolutionCache.Attempt

/-!
# Running attempts

How the pieces of an attempt run from a given state, so that a longer one is run by rewriting with
what its pieces do; what an attempt keeps even if it stops (`Keeps`, `Preserves`); what attempts
lead to that run one after another, as a fact that all of them keep (`forM_invariant`,
`forEach_invariant`) or that one of them was the last to decide (`forM_lastOf`, `foldl_lastOf`); and
how two attempts that run side by side agree, piece by piece (`Agree`).
-/

namespace ResolutionCache.Attempt

variable {ε σ α β : Type}

theorem bind_ok {action : EStateM ε σ α} {next : α → EStateM ε σ β} {s s' : σ} {a : α}
    (ran : action s = .ok a s') : (action >>= next) s = next a s' := by
  simp only [bind, EStateM.bind, ran]

theorem bind_error {action : EStateM ε σ α} {next : α → EStateM ε σ β} {s s' : σ} {e : ε}
    (stopped : action s = .error e s') : (action >>= next) s = .error e s' := by
  simp only [bind, EStateM.bind, stopped]

/-- An attempt that ended with an answer had its first piece end with one. -/
theorem of_bind_ok {action : EStateM ε σ α} {next : α → EStateM ε σ β} {s s' : σ} {b : β}
    (ran : (action >>= next) s = .ok b s') :
    ∃ a mid, action s = .ok a mid ∧ next a mid = .ok b s' := by
  simp only [bind, EStateM.bind] at ran
  split at ran
  · exact ⟨_, _, ‹_›, ran⟩
  · cases ran

@[simp] theorem get_apply (s : σ) : (MonadState.get : EStateM ε σ σ) s = .ok s s := rfl

theorem require_apply (condition : Bool) (e : ε) (s : σ) :
    require condition e s = if condition then .ok () s else .error e s := by
  unfold require
  split <;> rfl

theorem require_bind (condition : Bool) (e : ε) (next : Unit → EStateM ε σ α) (s : σ) :
    (require condition e >>= next) s = if condition then next () s else .error e s := by
  cases condition <;> rfl

/-- A check that passed changed nothing. -/
theorem of_require_ok {condition : Bool} {e : ε} {s s' : σ}
    (passed : require condition e s = .ok () s') : condition = true ∧ s = s' := by
  rw [require_apply] at passed
  split at passed
  · cases passed
    exact ⟨‹_›, rfl⟩
  · cases passed

/-- A question that was answered changed nothing. -/
theorem of_inspect_ok {question : σ → Except ε α} {s s' : σ} {a : α}
    (answered : inspect question s = .ok a s') : question s = .ok a ∧ s = s' := by
  unfold inspect at answered
  split at answered
  · cases answered
    exact ⟨‹_›, rfl⟩
  · cases answered

theorem inspect_ok {question : σ → Except ε α} {s : σ} {a : α} (answered : question s = .ok a) :
    inspect question s = .ok a s := by
  simp only [inspect, answered]

theorem inspect_error {question : σ → Except ε α} {s : σ} {e : ε}
    (refused : question s = .error e) : inspect question s = .error e s := by
  simp only [inspect, refused]

/-- Whether an attempt ends with an answer. -/
def ends (action : EStateM ε σ α) (s : σ) : Bool :=
  match action s with
  | .ok _ _ => true
  | .error _ _ => false

theorem of_ends {action : EStateM ε σ α} {s : σ} (done : ends action s = true) :
    ∃ a s', action s = .ok a s' := by
  unfold ends at done
  split at done
  · exact ⟨_, _, ‹_›⟩
  · cases done

/-! ### Whether it ends or stops -/

/-- The state that an attempt leaves, whether it ended or stopped. -/
def left : EStateM.Result ε σ α → σ
  | .ok _ s => s
  | .error _ s => s

/-- **The attempt keeps a part of the state,** whether it ends or stops. -/
def Keeps (part : σ → β) (action : EStateM ε σ α) : Prop := ∀ s, part (left (action s)) = part s

section

variable {γ : Type} {part : σ → γ}

theorem keeps_pure (a : α) : Keeps part (pure a : EStateM ε σ α) := fun _ => rfl

theorem keeps_get : Keeps part (MonadState.get : EStateM ε σ σ) := fun _ => rfl

theorem keeps_modify {f : σ → σ} (kept : ∀ s, part (f s) = part s) :
    Keeps part (modify f : EStateM ε σ PUnit) := kept

theorem keeps_require (condition : Bool) (e : ε) : Keeps part (require condition e) := by
  intro s
  rw [require_apply]
  split <;> rfl

/-- A question changes nothing, whether or not it is answered. -/
theorem left_inspect (question : σ → Except ε α) (s : σ) : left (inspect question s) = s := by
  unfold inspect
  cases question s <;> rfl

theorem keeps_inspect (question : σ → Except ε α) : Keeps part (inspect question) :=
  fun s => congrArg part (left_inspect question s)

theorem left_bind {action : EStateM ε σ α} {next : α → EStateM ε σ β} {s : σ} {c : γ}
    (first : part (left (action s)) = c)
    (rest : ∀ a mid, action s = .ok a mid → part (left (next a mid)) = c) :
    part (left ((action >>= next) s)) = c := by
  cases ran : action s with
  | ok a mid =>
    rw [bind_ok ran]
    exact rest a mid ran
  | error e mid =>
    rw [ran] at first
    rw [bind_error ran]
    exact first

/-- Dropping the answer does not change what is left. -/
theorem left_drop (action : EStateM ε σ α) (b : β) (s : σ) :
    left ((action >>= fun _ => pure b) s) = left (action s) := by
  cases ran : action s with
  | ok a mid =>
    rw [bind_ok ran]
    rfl
  | error e mid =>
    rw [bind_error ran]
    rfl

theorem Keeps.bind {action : EStateM ε σ α} {next : α → EStateM ε σ β}
    (first : Keeps part action) (rest : ∀ a, Keeps part (next a)) :
    Keeps part (action >>= next) := by
  intro s
  refine left_bind (first s) fun a mid ran => ?_
  have kept := first s
  rw [ran] at kept
  exact (rest a mid).trans kept

/-- **The attempt preserves a property of the state,** whether it ends or stops. -/
def Preserves (P : σ → Prop) (action : EStateM ε σ α) : Prop := ∀ s, P s → P (left (action s))

theorem Preserves.bind {P : σ → Prop} {action : EStateM ε σ α} {next : α → EStateM ε σ β}
    (first : Preserves P action) (rest : ∀ a, Preserves P (next a)) :
    Preserves P (action >>= next) := by
  intro s before
  have between := first s before
  cases ran : action s with
  | ok a mid =>
    rw [ran] at between
    rw [bind_ok ran]
    exact rest a mid between
  | error e mid =>
    rw [ran] at between
    rw [bind_error ran]
    exact between

end

/-! ### One after another -/

section

universe u

variable {γ : Type u} {act : γ → EStateM ε σ Unit} {s s' : σ} {event : γ} {Spares : γ → Prop}
  {steps : List γ}

theorem of_forM_cons {c : γ} {rest : List γ} (ran : (c :: rest).forM act s = .ok () s') :
    ∃ mid, act c s = .ok () mid ∧ rest.forM act mid = .ok () s' := by
  obtain ⟨_, mid, first, later⟩ := of_bind_ok ran
  exact ⟨mid, first, later⟩

theorem of_forM_append {before after : List γ}
    (ran : (before ++ after).forM act s = .ok () s') :
    ∃ mid, before.forM act s = .ok () mid ∧ after.forM act mid = .ok () s' := by
  induction before generalizing s with
  | nil => exact ⟨s, rfl, ran⟩
  | cons c rest ih =>
    obtain ⟨mid, first, later⟩ := of_forM_cons ran
    obtain ⟨mid', ran₁, ran₂⟩ := ih later
    refine ⟨mid', ?_, ran₂⟩
    show (act c >>= fun _ => rest.forM act) s = _
    rw [bind_ok first, ran₁]

/-- What every step keeps holds in the end. -/
theorem forM_invariant {I : σ → Prop} (start : I s)
    (keep : ∀ c ∈ steps, ∀ s s', I s → act c s = .ok () s' → I s')
    (ran : steps.forM act s = .ok () s') : I s' := by
  induction steps generalizing s with
  | nil =>
    cases ran
    exact start
  | cons c rest ih =>
    obtain ⟨mid, first, later⟩ := of_forM_cons ran
    exact ih (keep c List.mem_cons_self s mid start first)
      (fun c mem => keep c (List.mem_cons_of_mem _ mem)) later

/-- The event is among the steps, and every step after it spares what it did. -/
def LastOf (event : γ) (Spares : γ → Prop) (steps : List γ) : Prop :=
  ∃ before after, steps = before ++ event :: after ∧ ∀ c ∈ after, Spares c

theorem not_lastOf_nil : ¬ LastOf event Spares [] := by
  rintro ⟨before, after, split, -⟩
  exact List.append_ne_nil_of_right_ne_nil before (List.cons_ne_nil _ after) split.symm

theorem lastOf_cons {c : γ} {rest : List γ} :
    LastOf event Spares (c :: rest) ↔
      LastOf event Spares rest ∨ (c = event ∧ ∀ c ∈ rest, Spares c) := by
  constructor
  · rintro ⟨before, after, split, spared⟩
    rcases List.cons_eq_append_iff.mp split with ⟨rfl, same⟩ | ⟨before', rfl, same⟩
    · obtain ⟨rfl, rfl⟩ := List.cons.inj same
      exact .inr ⟨rfl, spared⟩
    · exact .inl ⟨before', after, same, spared⟩
  · rintro (⟨before, after, rfl, spared⟩ | ⟨rfl, spared⟩)
    · exact ⟨c :: before, after, rfl, spared⟩
    · exact ⟨[], rest, rfl, spared⟩

theorem LastOf.mem (last : LastOf event Spares steps) : event ∈ steps := by
  obtain ⟨before, after, rfl, -⟩ := last
  exact List.mem_append_right _ List.mem_cons_self

/-- The first step before the rest: it is the event, or spares what was there. -/
theorem lastOf_or_spared_cons {c : γ} {rest : List γ} {had : Prop} :
    LastOf event Spares (c :: rest) ∨ ((∀ x ∈ c :: rest, Spares x) ∧ had) ↔
      LastOf event Spares rest ∨
        ((∀ x ∈ rest, Spares x) ∧ (c = event ∨ (Spares c ∧ had))) := by
  rw [lastOf_cons, List.forall_mem_cons]
  constructor
  · rintro ((last | ⟨rfl, spared⟩) | ⟨⟨spares, spared⟩, had⟩)
    · exact .inl last
    · exact .inr ⟨spared, .inl rfl⟩
    · exact .inr ⟨spared, .inr ⟨spares, had⟩⟩
  · rintro (last | ⟨spared, rfl | ⟨spares, had⟩⟩)
    · exact .inl (.inl last)
    · exact .inl (.inr ⟨rfl, spared⟩)
    · exact .inr ⟨⟨spares, spared⟩, had⟩

/-- **A fact that one event brings about** and that some steps spare holds in the end if the event
happened and was spared from then on, or if it held before and was spared by all. -/
theorem forM_lastOf {I P : σ → Prop} (start : I s)
    (step : ∀ c ∈ steps, ∀ s s', I s → act c s = .ok () s' →
      I s' ∧ (P s' ↔ c = event ∨ (Spares c ∧ P s)))
    (ran : steps.forM act s = .ok () s') :
    P s' ↔ LastOf event Spares steps ∨ ((∀ c ∈ steps, Spares c) ∧ P s) := by
  induction steps generalizing s with
  | nil =>
    cases ran
    simp [not_lastOf_nil]
  | cons c rest ih =>
    obtain ⟨mid, first, later⟩ := of_forM_cons ran
    obtain ⟨kept, now⟩ := step c List.mem_cons_self s mid start first
    rw [ih kept (fun c mem => step c (List.mem_cons_of_mem _ mem)) later, now,
      lastOf_or_spared_cons]

/-- The same of steps that always go on, also past one that stopped. -/
theorem foldl_lastOf {next : σ → γ → σ} {I P : σ → Prop} (start : I s)
    (step : ∀ c ∈ steps, ∀ s, I s →
      I (next s c) ∧ (P (next s c) ↔ c = event ∨ (Spares c ∧ P s))) :
    P (steps.foldl next s) ↔ LastOf event Spares steps ∨ ((∀ c ∈ steps, Spares c) ∧ P s) := by
  induction steps generalizing s with
  | nil => simp [not_lastOf_nil]
  | cons c rest ih =>
    obtain ⟨kept, now⟩ := step c List.mem_cons_self s start
    rw [List.foldl_cons, ih kept (fun c mem => step c (List.mem_cons_of_mem _ mem)), now,
      lastOf_or_spared_cons]

end

/-! ### Numbers one after another -/

section

variable {action : Nat → EStateM ε σ Unit} {s s' : σ} {first count : Nat}

/-- What the work on every number keeps holds in the end. -/
theorem forEach_invariant {I : σ → Prop} (start : I s)
    (keep : ∀ n s s', I s → action n s = .ok () s' → I s')
    (ran : forEach action count first s = .ok () s') : I s' := by
  induction count generalizing first s with
  | zero =>
    cases ran
    exact start
  | succ count ih =>
    obtain ⟨_, mid, now, later⟩ := of_bind_ok ran
    exact ih (keep first s mid start now) later

/-- Work on numbers is the work on those before one of them, on this one, and on those behind. -/
theorem forEach_split {n : Nat} (below : n < count) :
    forEach action count first = (do
      forEach action n first
      action (first + n)
      forEach action (count - (n + 1)) (first + n + 1)) := by
  induction n generalizing count first with
  | zero =>
    obtain ⟨count, rfl⟩ := Nat.exists_eq_add_one_of_ne_zero (Nat.ne_of_gt below)
    rfl
  | succ n ih =>
    obtain ⟨count, rfl⟩ := Nat.exists_eq_add_one_of_ne_zero (Nat.ne_of_gt (Nat.zero_lt_of_lt below))
    have rest : forEach action count (first + 1) = _ := ih (Nat.lt_of_succ_lt_succ below)
    rw [Nat.add_right_comm first 1 n] at rest
    rw [Nat.add_sub_add_right, forEach, forEach, rest, bind_assoc]
    rfl

/-- What the work on every number keeps, the work on all of them keeps. -/
theorem keeps_forEach {γ : Type} {part : σ → γ} (kept : ∀ n, Keeps part (action n))
    (count first : Nat) : Keeps part (forEach action count first) := by
  induction count generalizing first with
  | zero => exact keeps_pure ()
  | succ count ih => exact (kept first).bind fun _ => ih (first + 1)

end

/-! ### Two attempts side by side -/

/-- Both questions are answered, and the answers are related, or both are refused alike. -/
inductive SameAnswer (answers : α → β → Prop) : Except ε α → Except ε β → Prop where
  | ok {a : α} {b : β} : answers a b → SameAnswer answers (.ok a) (.ok b)
  | error (e : ε) : SameAnswer answers (.error e) (.error e)

theorem SameAnswer.of_eq {x y : Except ε α} (same : x = y) : SameAnswer Eq x y := by
  subst same
  cases x with
  | ok a => exact .ok rfl
  | error e => exact .error e

/-- Questions have the same answer if their first pieces do and the rest has from there. -/
theorem SameAnswer.bind {γ δ : Type} {answers : α → β → Prop} {further : γ → δ → Prop}
    {x : Except ε α} {y : Except ε β} {f : α → Except ε γ} {g : β → Except ε δ}
    (first : SameAnswer answers x y)
    (next : ∀ a b, answers a b → SameAnswer further (f a) (g b)) :
    SameAnswer further (x >>= f) (y >>= g) := by
  cases first with
  | ok ab => exact next _ _ ab
  | error e => exact .error e

/-- Both attempts end with related answers, or both stop with the same fault; the states that they
leave are related. -/
inductive Agree {τ : Type} (states : σ → τ → Prop) (answers : α → β → Prop) :
    EStateM.Result ε σ α → EStateM.Result ε τ β → Prop where
  | ok {a : α} {b : β} {s : σ} {t : τ} :
    answers a b → states s t → Agree states answers (.ok a s) (.ok b t)
  | error (e : ε) {s : σ} {t : τ} :
    states s t → Agree states answers (.error e s) (.error e t)

section

variable {τ γ δ : Type} {states : σ → τ → Prop} {answers : α → β → Prop}

theorem Agree.mono {further : σ → τ → Prop} {x : EStateM.Result ε σ α} {y : EStateM.Result ε τ β}
    (agree : Agree states answers x y) (weaker : ∀ s t, states s t → further s t) :
    Agree further answers x y := by
  cases agree with
  | ok ab st => exact .ok ab (weaker _ _ st)
  | error e st => exact .error e (weaker _ _ st)

/-- What they leave is related, however they end. -/
theorem Agree.left {x : EStateM.Result ε σ α} {y : EStateM.Result ε τ β}
    (agree : Agree states answers x y) : states (left x) (left y) := by
  cases agree with
  | ok _ st => exact st
  | error _ st => exact st

/-- If one of them ends with an answer, so does the other. -/
theorem Agree.of_ok {a : α} {s : σ} {y : EStateM.Result ε τ β}
    (agree : Agree states answers (.ok a s : EStateM.Result ε σ α) y) :
    ∃ b t, y = .ok b t ∧ answers a b ∧ states s t := by
  cases agree with
  | ok ab st => exact ⟨_, _, rfl, ab, st⟩

/-- Attempts agree if their first pieces do and the rest agrees from there. -/
theorem Agree.bind {x : EStateM ε σ α} {y : EStateM ε τ β} {f : α → EStateM ε σ γ}
    {g : β → EStateM ε τ δ} {further : γ → δ → Prop} {s : σ} {t : τ}
    (first : Agree states answers (x s) (y t))
    (next : ∀ a b s t, answers a b → states s t → Agree states further (f a s) (g b t)) :
    Agree states further ((x >>= f) s) ((y >>= g) t) := by
  generalize ran : x s = left at first
  generalize ran' : y t = right at first
  cases first with
  | ok ab st =>
    rw [bind_ok ran, bind_ok ran']
    exact next _ _ _ _ ab st
  | error e st =>
    rw [bind_error ran, bind_error ran']
    exact .error e st

/-- A piece whose result is known has no counterpart on the other side. -/
theorem Agree.after {x : EStateM ε σ γ} {f : γ → EStateM ε σ α} {y : EStateM.Result ε τ β}
    {s s' : σ} {c : γ} (ran : x s = .ok c s') (rest : Agree states answers (f c s') y) :
    Agree states answers ((x >>= f) s) y := by
  rw [bind_ok ran]
  exact rest

theorem agree_require {c c' : Bool} {e : ε} {s : σ} {t : τ} (same : c = c') (st : states s t) :
    Agree states (fun _ _ => True) (require c e s) (require c' e t) := by
  subst same
  rw [require_apply, require_apply]
  split
  · exact .ok trivial st
  · exact .error e st

theorem agree_inspect {q : σ → Except ε α} {q' : τ → Except ε β} {s : σ} {t : τ}
    (same : SameAnswer answers (q s) (q' t)) (st : states s t) :
    Agree states answers (inspect q s) (inspect q' t) := by
  generalize asked : q s = left at same
  generalize asked' : q' t = right at same
  cases same with
  | ok ab =>
    rw [inspect_ok asked, inspect_ok asked']
    exact .ok ab st
  | error e =>
    rw [inspect_error asked, inspect_error asked']
    exact .error e st

theorem agree_modify {f : σ → σ} {g : τ → τ} {s : σ} {t : τ} (st : states (f s) (g t)) :
    Agree states (fun _ _ => True) ((modify f : EStateM ε σ PUnit) s)
      ((modify g : EStateM ε τ PUnit) t) :=
  .ok trivial st

end

end ResolutionCache.Attempt
