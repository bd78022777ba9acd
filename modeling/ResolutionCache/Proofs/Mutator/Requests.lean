import ResolutionCache.Proofs.Mutator
import ResolutionCache.Proofs.Mutator.Renaming

/-!
# Requests of matched sessions

Two sessions of one mutator are *matched* if their caches are similar up to a renaming of references
(`Session.Matched`). A request of both is answered alike, and leaves them matched
(`Session.carryOut_agree`): all that a request asks of a reference is whether it is null and whether
it equals another, and a renaming keeps both.
-/

namespace ResolutionCache.Session

open Attempt

/-- **Two sessions of one mutator, matched by a renaming:** their caches are similar, their hosts
equal, and what lookups have answered is related as far back as both still have it. The left session
has `n` answers, the right one `m`. -/
structure Matched (R : Ref → Ref → Prop) (n m : Nat) (x y : Session) : Prop where
  left : x.heap.WellFormed
  right : y.heap.WellFormed
  naming : Renaming R x.heap y.heap
  resolver : x.resolver.Similar (OrNull R) y.resolver
  leftHandles : x.handles.length = n
  rightHandles : y.handles.length = m
  handles : ∀ (k : Nat) (p q : Option Ref), x.handles[k]? = some p → y.handles[k]? = some q →
    Option.Rel R p q

variable {R : Ref → Ref → Prop} {n m : Nat} {x y : Session} {α β : Type}

theorem Matched.symm (matched : Matched R n m x y) : Matched (fun b a => R a b) m n y x where
  left := matched.right
  right := matched.left
  naming := matched.naming.symm
  resolver :=
    ⟨matched.resolver.cache.symm.mono (fun _ related => related.symm)
        fun _ _ _ related => related.symm,
      matched.resolver.host.symm⟩
  leftHandles := matched.rightHandles
  rightHandles := matched.leftHandles
  handles k q p there here := by
    cases matched.handles k p q here there with
    | none => exact .none
    | some ab => exact .some ab

/-- Matched sessions stay matched when a lookup of each is kept. -/
theorem Matched.remember (matched : Matched R n m x y) {p q : Option Ref} (pq : Option.Rel R p q) :
    Matched R (n + 1) (m + 1) { x with handles := p :: x.handles }
      { y with handles := q :: y.handles } where
  left := matched.left
  right := matched.right
  naming := matched.naming
  resolver := matched.resolver
  leftHandles := by rw [List.length_cons, matched.leftHandles]
  rightHandles := by rw [List.length_cons, matched.rightHandles]
  handles k p' q' here there := by
    cases k with
    | zero =>
      cases here
      cases there
      exact pq
    | succ k => exact matched.handles k p' q' here there

/-- What resolvers agree on, sessions agree on. -/
theorem onCache_agree {answers : α → β → Prop} (matched : Matched R n m x y)
    {action : Attempt Resolver α} {action' : Attempt Resolver β}
    (same : Agree (Resolver.Similar (OrNull R)) answers (action x.resolver) (action' y.resolver)) :
    Agree (Matched R n m) answers (onCache action x) (onCache action' y) := by
  unfold onCache
  generalize action x.resolver = left at same
  generalize action' y.resolver = right at same
  cases same with
  | ok ab st => exact .ok ab { matched with resolver := st }
  | error e st => exact .error e { matched with resolver := st }

/-- One reply, and the object that it tells of is there. -/
def SameReply (p q : Reply) : Prop := p = q ∧ p.Live

/-- An operation of the resolver that has no reply. -/
theorem done_agree (matched : Matched R n m x y) {action action' : Attempt Resolver Unit}
    (same : Agree (Resolver.Similar (OrNull R)) (fun _ _ => True) (action x.resolver)
      (action' y.resolver)) :
    Agree (Matched R n m) SameReply ((do onCache action; return .done : Attempt Session Reply) x)
      ((do onCache action'; return .done : Attempt Session Reply) y) :=
  Agree.bind (onCache_agree matched same) fun _ _ _ _ _ st => .ok ⟨rfl, trivial⟩ st

/-! ### Requests -/

/-- The object behind related references is there, and it is the same. -/
theorem Matched.object_eq (matched : Matched R n m x y) {a b : Ref} (ab : R a b) :
    x.heap.objects[a]? = y.heap.objects[b]? ∧ x.heap.objects[a]?.isSome := by
  obtain ⟨object, here, there⟩ := matched.naming.same ab
  rw [here, there]
  exact ⟨rfl, rfl⟩

theorem find_agree (matched : Matched R n m x y) (kind : ReferenceKind) (index : UInt32) :
    Agree (Matched R (n + 1) (m + 1)) SameReply (find kind index x) (find kind index y) := by
  have found := Resolver.find_agree (orNull_linking R) matched.resolver kind index
  unfold find
  generalize x.resolver.find kind index = left at found
  generalize y.resolver.find kind index = right at found
  cases found with
  | error e => exact .error e (matched.remember .none)
  | ok answers =>
    cases answers with
    | none => exact .ok ⟨rfl, trivial⟩ (matched.remember .none)
    | some related =>
      have ab := related.of_orNull
      obtain ⟨same, live⟩ := matched.object_eq ab
      exact .ok ⟨by rw [same], live⟩ (matched.remember (.some ab))

/-- The state of each side, when both ask for it. -/
theorem asking (matched : Matched R n m x y) :
    Agree (Matched R n m) (fun s t => x = s ∧ y = t)
      ((MonadState.get : Attempt Session Session) x)
      ((MonadState.get : Attempt Session Session) y) :=
  .ok ⟨rfl, rfl⟩ matched

theorem wins_eq {r r' : Resolver} (similar : r.Similar (OrNull R) r') (index : UInt32) {a b : Ref}
    (ab : OrNull R a b) : wins r index a = wins r' index b := by
  have outcomes := ClaimTable.outcome_related (orNull_linking R) similar.cache.callSites
    index.toNat ab
  unfold wins
  generalize r.cache.callSites.outcome index.toNat a = p at outcomes
  generalize r'.cache.callSites.outcome index.toNat b = q at outcomes
  cases outcomes with
  | error e => rfl
  | ok results => cases results <;> rfl

theorem claim_agree (matched : Matched R n m x y) (index : UInt32) {a b : Ref} (ab : R a b) :
    Agree (Matched R n m) SameReply (claim index a x) (claim index b y) := by
  have related := matched.naming.orNull matched.left matched.right ab
  unfold claim
  refine Agree.bind (asking matched) ?_
  rintro _ _ s t ⟨rfl, rfl⟩ st
  refine Agree.bind (onCache_agree st (Resolver.setCallSite_agree (orNull_linking R) st.resolver
    index related)) fun standing standing' s t same st => ?_
  refine Agree.bind (.ok st st) fun u v s t uv st => .ok ?_ st
  -- whether the candidate is the one that stands is told by comparing references
  have own : (decide (standing = a)) = decide (standing' = b) :=
    decide_eq_decide.mpr (matched.naming.eq_iff same.of_orNull ab)
  obtain ⟨object, live⟩ := uv.object_eq same.of_orNull
  rw [wins_eq matched.resolver index related, own, object]
  exact ⟨rfl, object ▸ live⟩

theorem store_agree (matched : Matched R n m x y) (kind : ReferenceKind) (index : UInt32)
    {a b : Ref} (ab : R a b) :
    Agree (Matched R n m) SameReply (store kind index a x) (store kind index b y) := by
  have related := matched.naming.orNull matched.left matched.right ab
  have slotted (kind : SlotKind) {p q : Address kind.width}
      (pq : kind.Related (OrNull R) p q) :
      Agree (Matched R n m) SameReply
        ((do onCache (Resolver.set kind index p); return .done : Attempt Session Reply) x)
        ((do onCache (Resolver.set kind index q); return .done : Attempt Session Reply) y) :=
    done_agree matched (Resolver.set_agree (orNull_linking R) matched.resolver kind index pq)
  cases kind with
  | string => exact slotted .string related
  | type => exact slotted .type related
  | methodType => exact slotted .methodType related
  | callSite => exact claim_agree matched index ab

/-! ### Supplies -/

/-- Matched by some renaming. -/
def SomehowMatched (n m : Nat) (x y : Session) : Prop := ∃ R, Matched R n m x y

/-- The session does not ask for a place in vain. -/
def Fits (action : Attempt Session α) (x : Session) : Prop :=
  ∀ x', action x ≠ .error .spaceExhausted x'

/-- **Two sessions supplied alike** have references to one object, or neither has any; unless one of
them asked for a place in vain. -/
theorem supply_agree (matched : Matched R n m x y) {source : Source} (left : source.Available n)
    (right : source.Available m)
    (fits : Fits (supply source) x) (fits' : Fits (supply source) y) :
    ∃ S p q x' y', supply source x = .ok p x' ∧ supply source y = .ok q y' ∧
      Option.Rel S p q ∧ Matched S n m x' y' := by
  cases source with
  | held back =>
    -- both sides still have the answer, for no collection has come in between
    have here : back < x.handles.length := by rwa [matched.leftHandles]
    have there : back < y.handles.length := by rwa [matched.rightHandles]
    refine ⟨R, x.handles[back], y.handles[back], x, y, ?_, ?_, ?_, matched⟩
    · show EStateM.Result.ok x.handles[back]?.join x = _
      rw [List.getElem?_eq_getElem here]
      rfl
    · show EStateM.Result.ok y.handles[back]?.join y = _
      rw [List.getElem?_eq_getElem there]
      rfl
    · exact matched.handles back _ _ (List.getElem?_eq_getElem here)
        (List.getElem?_eq_getElem there)
  | fresh object =>
    have allocated {z : Session} (wf : z.heap.WellFormed)
        (fits : Fits (supply (.fresh object)) z) :
        0 < z.heap.room ∧ supply (.fresh object) z =
          .ok (some z.heap.place) { z with heap := z.heap.withNew object } := by
      rcases Nat.eq_zero_or_pos z.heap.room with full | room
      · have stopped : onHeap (Heap.allocate object) z =
            .error .spaceExhausted { z with heap := z.heap.advance } := by
          simp only [onHeap, wf.allocate_error full]
        exact absurd (bind_error stopped) (fits _)
      · have ran : onHeap (Heap.allocate object) z =
            .ok z.heap.place { z with heap := z.heap.withNew object } := by
          simp only [onHeap, wf.allocate_ok room]
        exact ⟨room, bind_ok ran⟩
    obtain ⟨room, ran⟩ := allocated matched.left fits
    obtain ⟨room', ran'⟩ := allocated matched.right fits'
    refine ⟨Renaming.Extended R x.heap.place y.heap.place, _, _, _, _, ran, ran',
      .some (.inr ⟨rfl, rfl⟩), ?_⟩
    -- the renaming grows by the new pair; what was related stays related
    have extend {a b : Ref} (ab : OrNull R a b) :
        OrNull (Renaming.Extended R x.heap.place y.heap.place) a b := by
      rcases ab with nulls | ⟨full, full', ab⟩
      · exact .inl nulls
      · exact .inr ⟨full, full', .inl ab⟩
    exact
      { left := matched.left.withNew room object
        right := matched.right.withNew room' object
        naming := matched.naming.withNew matched.left matched.right object
        resolver := ⟨matched.resolver.cache.mono (fun _ => extend) (fun _ _ _ => extend),
          matched.resolver.host⟩
        leftHandles := matched.leftHandles
        rightHandles := matched.rightHandles
        handles := fun k p q here there => by
          cases matched.handles k p q here there with
          | none => exact .none
          | some ab => exact .some (.inl ab) }

theorem storing_agree (matched : Matched R n m x y) {source : Source} (left : source.Available n)
    (right : source.Available m) {action : Ref → Attempt Session Reply}
    (fits : Fits (supply source) x) (fits' : Fits (supply source) y)
    (agree : ∀ {S : Ref → Ref → Prop} {a b : Ref} {x y : Session}, Matched S n m x y → S a b →
      Agree (Matched S n m) SameReply (action a x) (action b y)) :
    Agree (SomehowMatched n m) SameReply (storing source action x) (storing source action y) := by
  obtain ⟨S, p, q, x', y', ran, ran', pq, matched'⟩ := supply_agree matched left right fits fits'
  unfold storing
  rw [bind_ok ran, bind_ok ran']
  cases pq with
  | none => exact .ok ⟨rfl, trivial⟩ ⟨S, matched'⟩
  | some ab => exact (agree matched' ab).mono fun _ _ st => ⟨S, st⟩

/-- Where a request has a reference from, if it stores one. -/
def Request.source? : Request → Option Source
  | .store _ _ source => some source
  | .storeOverlay _ source => some source
  | _ => none

/-- The session does not ask in vain for what the request stores. -/
def Supplied (q : Request) (x : Session) : Prop :=
  ∀ source, q.source? = some source → Fits (supply source) x

theorem Fits.supplied {q : Request} (fits : Fits (carryOut q) x) : Supplied q x := by
  intro source stores x' stopped
  cases q with
  | store kind index | storeOverlay index =>
    cases stores
    exact fits x' (bind_error stopped)
  | _ => cases stores

/-- What a request stores asks for a place only if it is a new object. -/
theorem supplied_of_not_fresh {q : Request} (old : ∀ object, q.source? ≠ some (.fresh object))
    (x : Session) : Supplied q x := by
  intro source stores
  cases source with
  | fresh object => exact absurd stores (old object)
  | held back => exact fun x' => nofun

/-- **One request of matched sessions** is answered alike and leaves them matched. -/
theorem carryOut_agree (matched : Matched R n m x y) (q : Request) (left : q.Allowed n)
    (right : q.Allowed m) (supplied : Supplied q x) (supplied' : Supplied q y) :
    Agree (SomehowMatched (n + q.lookups) (m + q.lookups)) SameReply (carryOut q x)
      (carryOut q y) := by
  have link := orNull_linking R
  have somehow {n m : Nat} {s t : Session} (st : Matched R n m s t) : SomehowMatched n m s t :=
    ⟨R, st⟩
  cases q with
  | find kind index => exact (find_agree matched kind index).mono fun _ _ => somehow
  | store kind index source =>
    exact storing_agree matched left right (supplied source rfl) (supplied' source rfl)
      fun st ab => store_agree st kind index ab
  | clear kind index =>
    exact (done_agree matched (Resolver.clear_agree link matched.resolver kind index)).mono
      fun _ _ => somehow
  | offerOverlay =>
    exact (done_agree matched (Resolver.offerOverlay_agree link matched.resolver)).mono
      fun _ _ => somehow
  | withdrawOverlay =>
    exact (done_agree matched (Resolver.withdrawOverlay_agree matched.resolver)).mono
      fun _ _ => somehow
  | storeOverlay index source =>
    refine storing_agree matched left right (supplied source rfl) (supplied' source rfl)
      fun {S a b s t} st ab => ?_
    exact done_agree st (Resolver.setOverlay_agree (orNull_linking S) st.resolver index
      (st.naming.orNull st.left st.right ab))
  | begin =>
    exact (done_agree matched (Resolver.begin_agree matched.resolver)).mono fun _ _ => somehow
  | commit =>
    exact (done_agree matched (Resolver.commit_agree matched.resolver)).mono fun _ _ => somehow
  | rollback =>
    exact (done_agree matched (Resolver.rollback_agree link matched.resolver)).mono
      fun _ _ => somehow

end ResolutionCache.Session
