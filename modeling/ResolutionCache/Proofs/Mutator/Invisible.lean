import ResolutionCache.Proofs.Mutator.Requests

/-!
# Collections are invisible

A mutator cannot tell where collections fell: two runs of the same requests, with collections
wherever the mutator's rule allows them, show it the same (`Session.collections_invisible`).

The addresses of the two runs differ. What carries the proof is a renaming under which the two
sessions are matched. It is another one after each step: a request may add a new object to it, and
a collection of either side composes it with where the roots went.
-/

namespace ResolutionCache.Session

open Attempt

variable {R : Ref → Ref → Prop} {n m : Nat} {x y : Session}

/-! ### Collections -/

/-- **A collection of the right session** leaves the sessions matched, by another renaming. -/
theorem collect_right (matched : Matched R n m x y) (s : Shuffle) (fits : Fits (collect s) y) :
    ∃ y', collect s y = .ok () y' ∧ SomehowMatched n 0 x y' := by
  have roots : y.estate.roots = y.resolver.cache.roots := List.append_nil _
  have related {r : Ref} (root : r ∈ y.estate.roots) : ∃ a, R a r := by
    rw [roots, Cache.mem_roots] at root
    obtain ⟨a, ar⟩ := matched.resolver.cache.exists_left root.1
    exact ⟨a, ar.of_full root.2⟩
  -- every root is related to a live reference, so it is live itself
  have held : y.estate.Held := by
    intro r root
    obtain ⟨a, ar⟩ := related root
    exact (matched.naming.same ar).mem
  rcases Nat.lt_or_ge y.estate.heap.room y.estate.survivors.length with short | enough
  · obtain ⟨e', stopped, -⟩ := Estate.collect_error s matched.right short
    exact absurd (by simp only [collect, stopped]) (fits (y.collected e'))
  · obtain ⟨f, count, e', ran, done⟩ := Estate.collect_ok s matched.right held enough
    have cache : (y.collected e').resolver.cache = y.resolver.cache.sent f := by
      show e'.caches.headD y.resolver.cache = _
      rw [done.caches]
      rfl
    refine ⟨y.collected e', by simp only [collect, ran], Renaming.Sent R y.estate f, ?_⟩
    constructor
    case left => exact matched.left
    case right => exact done.wellFormed
    case naming => exact matched.naming.collected done
    case resolver =>
      refine ⟨?_, matched.resolver.host⟩
      rw [cache]
      -- the roots of the right side are where the collection has sent them
      refine matched.resolver.cache.sent_right ?_ ?_
      · intro a related
        exact .inl ⟨((orNull_linking R).null_iff related).mpr rfl, rfl⟩
      · intro a b root ab
        have root' : b ∈ y.estate.roots := by rwa [roots]
        have full := (Cache.mem_roots.mp root).2
        exact .inr ⟨fun a_null => full (((orNull_linking R).null_iff ab).mp a_null),
          (done.followed held root').1, b, root', ab.of_full full, rfl⟩
    case leftHandles => exact matched.leftHandles
    case rightHandles => rfl
    case handles =>
      intro k p q _ there
      cases there

/-! ### Runs -/

theorem perform_collection (s : Shuffle) (x : Session) :
    perform (.collection s) x =
      match collect s x with
      | .ok _ y => .ok none y
      | .error f y => .error f y := by
  simp only [perform, bind, EStateM.bind]
  cases collect s x <;> rfl

theorem perform_request (q : Request) (x : Session) :
    perform (.request q) x =
      match carryOut q x with
      | .ok reply y => .ok (some reply) y
      | .error f y => .error f y := by
  simp only [perform, bind, EStateM.bind]
  cases carryOut q x <;> rfl

theorem SomehowMatched.symm (matched : SomehowMatched n m x y) : SomehowMatched m n y x := by
  obtain ⟨R, matched⟩ := matched
  exact ⟨_, matched.symm⟩

/-- A collection on the right is skipped. -/
theorem skip_right (matched : SomehowMatched n m x y) {s : Shuffle} {rest : List Step}
    (fits : Spacious (.collection s :: rest) y) :
    ∃ y', trace (.collection s :: rest) y = trace rest y' ∧ Spacious rest y' ∧
      SomehowMatched n 0 x y' := by
  obtain ⟨R, matched⟩ := matched
  simp only [Spacious, perform_collection] at fits
  have in_time : Fits (collect s) y := by
    intro z stopped
    rw [stopped] at fits
    exact fits.1 rfl
  obtain ⟨y', ran, matched'⟩ := collect_right matched s in_time
  rw [ran] at fits
  exact ⟨y', by simp only [trace, perform_collection, ran], fits, matched'⟩

/-- A collection on the left is skipped. -/
theorem skip_left (matched : SomehowMatched n m x y) {s : Shuffle} {rest : List Step}
    (fits : Spacious (.collection s :: rest) x) :
    ∃ x', trace (.collection s :: rest) x = trace rest x' ∧ Spacious rest x' ∧
      SomehowMatched 0 m x' y := by
  obtain ⟨x', traced, fits', matched'⟩ := skip_right matched.symm fits
  exact ⟨x', traced, fits', matched'.symm⟩

/-- What the mutator sees is the same, and the objects that it is told of are there. -/
structure SameTrace (left right : List Observation) : Prop where
  same : left = right
  live : ∀ o ∈ left, ∀ reply, o.reply = .ok reply → reply.Live

theorem SameTrace.nil : SameTrace [] [] := ⟨rfl, by simp⟩

theorem SameTrace.cons {o : Observation} {left right : List Observation}
    (live : ∀ reply, o.reply = .ok reply → reply.Live) (rest : SameTrace left right) :
    SameTrace (o :: left) (o :: right) where
  same := by rw [rest.same]
  live p mem := by
    rcases List.mem_cons.mp mem with rfl | mem
    · exact live
    · exact rest.live p mem

/-- **One request on both sides** is seen alike, and the rest is as far as it goes. -/
theorem trace_request (matched : SomehowMatched n m x y) {q : Request} {rest rest' : List Step}
    (left : q.Allowed n) (right : q.Allowed m) (fits : Spacious (.request q :: rest) x)
    (fits' : Spacious (.request q :: rest') y)
    (further : ∀ x' y', SomehowMatched (n + q.lookups) (m + q.lookups) x' y' →
      Spacious rest x' → Spacious rest' y' → SameTrace (trace rest x') (trace rest' y')) :
    SameTrace (trace (.request q :: rest) x) (trace (.request q :: rest') y) := by
  obtain ⟨R, matched⟩ := matched
  simp only [Spacious, perform_request] at fits fits'
  have in_time : Fits (carryOut q) x := by
    intro z stopped
    rw [stopped] at fits
    exact fits.1 rfl
  have in_time' : Fits (carryOut q) y := by
    intro z stopped
    rw [stopped] at fits'
    exact fits'.1 rfl
  have agree := carryOut_agree matched q left right in_time.supplied in_time'.supplied
  simp only [trace, perform_request]
  generalize carryOut q x = p at agree fits
  generalize carryOut q y = p' at agree fits'
  cases agree with
  | @ok reply reply' x' y' same matched' =>
    obtain ⟨rfl, live⟩ := same
    have host : x'.resolver.host = y'.resolver.host := by
      obtain ⟨S, matched'⟩ := matched'
      exact matched'.resolver.host
    simp only [host]
    refine .cons ?_ (further x' y' matched' fits fits')
    rintro _ ⟨⟩
    exact live
  | @error f x' y' matched' =>
    have host : x'.resolver.host = y'.resolver.host := by
      obtain ⟨S, matched'⟩ := matched'
      exact matched'.resolver.host
    simp only [host]
    refine .cons ?_ (further x' y' matched' fits.2 fits'.2)
    rintro _ ⟨⟩

/-- **Runs of the same requests** from matched sessions are seen alike. The induction goes along
both runs: a collection on either side is skipped, and a request is met on both. -/
theorem trace_agree {steps steps' : List Step} (same : requests steps = requests steps')
    (left : Disciplined n steps) (right : Disciplined m steps') (fits : Spacious steps x)
    (fits' : Spacious steps' y) (matched : SomehowMatched n m x y) :
    SameTrace (trace steps x) (trace steps' y) := by
  induction steps generalizing steps' n m x y with
  | nil =>
    -- the left run is over: only collections can be left on the right
    induction steps' generalizing m y with
    | nil => exact .nil
    | cons step rest ih =>
      cases step with
      | request q => cases same
      | collection s =>
        obtain ⟨y', traced, fits', matched'⟩ := skip_right matched fits'
        rw [traced]
        exact ih same right fits' matched'
  | cons step rest ih =>
    cases step with
    | collection s =>
      obtain ⟨x', traced, fits, matched'⟩ := skip_left matched fits
      rw [traced]
      exact ih same left right fits fits' matched'
    | request q =>
      induction steps' generalizing m y with
      | nil => cases same
      | cons step' rest' ih' =>
        cases step' with
        | collection s =>
          obtain ⟨y', traced, fits', matched'⟩ := skip_right matched fits'
          rw [traced]
          exact ih' right fits' matched' same
        | request q' =>
          obtain ⟨rfl, rest_same⟩ := List.cons.inj same
          exact trace_request matched left.1 right.1 fits fits' fun x' y' matched' fits fits' =>
            ih rest_same left.2 right.2 fits fits' matched'

/-- **Requests that make no new object** run out of places on neither side or on both. So after a
collection they never do if they would not have done without it. -/
theorem spacious_agree {qs : List Request}
    (old : ∀ q ∈ qs, ∀ object, q.source? ≠ some (.fresh object))
    (left : Disciplined n (qs.map .request)) (right : Disciplined m (qs.map .request))
    (matched : SomehowMatched n m x y) (fits : Spacious (qs.map .request) x) :
    Spacious (qs.map .request) y := by
  induction qs generalizing n m x y with
  | nil => exact fits
  | cons q rest ih =>
    obtain ⟨old, others⟩ := List.forall_mem_cons.mp old
    obtain ⟨R, matched⟩ := matched
    have agree := carryOut_agree matched q left.1 right.1 (supplied_of_not_fresh old x)
      (supplied_of_not_fresh old y)
    simp only [List.map_cons, Spacious, perform_request] at fits ⊢
    generalize carryOut q x = p at agree fits
    generalize carryOut q y = p' at agree ⊢
    cases agree with
    | ok _ matched' => exact ih others left.2 right.2 matched' fits
    | error f matched' => exact ⟨fits.1, ih others left.2 right.2 matched' fits.2⟩

/-- **A session is matched with itself** if its roots and what its lookups have answered are
live. -/
theorem matched_self (wf : x.heap.WellFormed) (held : x.estate.Held)
    (live : ∀ r, some r ∈ x.handles → r ∈ x.heap.objects) :
    SomehowMatched x.handles.length x.handles.length x x := by
  refine ⟨fun a b => a = b ∧ a ∈ x.heap.objects, wf, wf, ⟨?_, ?_, ?_⟩, ⟨?_, rfl⟩, rfl, rfl, ?_⟩
  · rintro a b ⟨rfl, there⟩
    exact ⟨_, Std.HashMap.getElem?_eq_some_getElem there,
      Std.HashMap.getElem?_eq_some_getElem there⟩
  · rintro a b b' ⟨rfl, -⟩ ⟨rfl, -⟩
    rfl
  · rintro a a' b ⟨rfl, -⟩ ⟨rfl, -⟩
    rfl
  · refine (Cache.Similar.refl x.resolver.cache).mono ?_ ?_
    · rintro a rfl
      exact .inl ⟨rfl, rfl⟩
    · rintro a b root rfl
      have full := (Cache.mem_roots.mp root).2
      exact .inr ⟨full, full, rfl, held _ (List.mem_append_left _ root)⟩
  · intro k p q here there
    obtain rfl := Option.some.inj (here.symm.trans there)
    cases p with
    | none => exact .none
    | some r => exact .some ⟨rfl, live r (List.mem_of_getElem? here)⟩

/-- A session with a new cache is matched with itself. -/
theorem matched_start {heap : Heap} (wf : heap.WellFormed) {location : Ref}
    (placed : location = .null ∨ location ∈ heap.objects) {id : CacheId} {file : SymbolFile}
    {overrides : Overrides} {cache : Cache}
    (created : Cache.create id file location overrides = .ok cache) (host : Host)
    (dirty : Option DirtySet) :
    SomehowMatched 0 0 { heap, resolver := { cache, host, dirty } }
      { heap, resolver := { cache, host, dirty } } := by
  refine matched_self (x := { heap, resolver := { cache, host, dirty } }) wf (fun r root => ?_)
    fun r mem => by cases mem
  -- the one root of a new cache is its location
  have root : r ∈ cache.roots := by simpa [estate, Estate.roots] using root
  have full := (Cache.mem_roots.mp root).2
  obtain rfl := (Cache.of_create_ok created).2.2.eq_location root
  exact placed.resolve_left full

/-- **Collections are invisible to mutators.** Take a heap that was reached without running out of
places, a new cache on it whose location is null or live, and any host. Two runs of the same
requests, each with full collections wherever the rule for mutators allows them and each with its
objects moving in whatever order, neither running out of places, show the mutator the same: the same
faults, hits and misses, the same outcomes of claims, equal objects, and the same flags and logs
after every request. -/
theorem collections_invisible {heap : Heap} (reachable : heap.Reachable) {location : Ref}
    (placed : location = .null ∨ location ∈ heap.objects) {id : CacheId} {file : SymbolFile}
    {overrides : Overrides} {cache : Cache}
    (created : Cache.create id file location overrides = .ok cache) (host : Host)
    (dirty : Option DirtySet) {steps steps' : List Step} (same : requests steps = requests steps')
    (disciplined : Disciplined 0 steps) (disciplined' : Disciplined 0 steps')
    (fits : Spacious steps { heap, resolver := { cache, host, dirty } })
    (fits' : Spacious steps' { heap, resolver := { cache, host, dirty } }) :
    trace steps { heap, resolver := { cache, host, dirty } } =
      trace steps' { heap, resolver := { cache, host, dirty } } ∧
    ∀ o ∈ trace steps { heap, resolver := { cache, host, dirty } },
      ∀ reply, o.reply = .ok reply → reply.Live := by
  have matched := matched_start reachable.wellFormed placed created host dirty
  obtain ⟨seen, live⟩ := trace_agree same disciplined disciplined' fits fits' matched
  exact ⟨seen, live⟩

/-- A new cache of one string, on an empty heap and with the compiler as its host. -/
def blank : Session where
  heap := {}
  resolver :=
    { host := .ofCompiler
      cache :=
        { id := ⟨1⟩
          file := { location := "core.jar", strings := 1 }
          settings := {}
          location := .null
          strings := .fresh 1
          types := .fresh 0
          methodTypes := .fresh 0
          fields := .fresh 0
          methods := .fresh 0
          callSites := .fresh 0
          overlay := .ofSize 1 } }

/-- The same with its string resolved and looked up. -/
def written : Session where
  heap := blank.heap.withNew (.string "a")
  resolver :=
    { host := .ofCompiler
      cache := { blank.resolver.cache with strings := ⟨#[.ofEntry ⟨blank.heap.place, 0⟩]⟩ } }
  handles := [some blank.heap.place]

/-- Resolves the string, looks it up, and goes on with further steps. -/
def writing (further : List Step) : List Step :=
  .request (.store .string 0 (.fresh (.string "a"))) :: .request (.find .string 0) :: further

/-- Looks the string up again and stores the answer where it was, in a transaction. -/
def restoring : List Request :=
  [.find .string 0, .begin, .store .string 0 (.held 0), .commit, .find .string 0]

theorem collections_invisible_written :
    let plain := writing (restoring.map .request)
    let collected := writing (.collection .reversed :: restoring.map .request)
    Disciplined 0 collected ∧ Disciplined 0 plain ∧ Spacious collected blank ∧
      Spacious plain blank ∧ trace collected blank = trace plain blank := by
  intro plain collected
  have roots : written.estate.roots = [blank.heap.place] := by decide +kernel
  have wf : written.heap.WellFormed := Heap.wellFormed_empty.withNew (by decide) _
  have live : blank.heap.place ∈ written.heap.objects := Std.HashMap.mem_insert_self
  have held : written.estate.Held := by
    intro r root
    rw [roots, List.mem_singleton] at root
    rwa [root]
  have enough : written.estate.survivors.length ≤ written.heap.room := by
    have size : written.heap.objects.size = 1 := Heap.wellFormed_empty.size_withNew _
    refine Nat.le_trans written.estate.length_survivors_le ?_
    rw [show written.estate.heap = written.heap from rfl, size]
    decide
  have disciplined : Disciplined 0 collected := by
    simp [collected, writing, restoring, Disciplined, Request.Allowed, Source.Available,
      Request.lookups]
  have disciplined' : Disciplined 0 plain := by
    simp [plain, writing, restoring, Disciplined, Request.Allowed, Source.Available,
      Request.lookups]
  have fits' : Spacious plain blank := ⟨⟩
  have fits : Spacious collected blank := by
    show Spacious (.collection .reversed :: restoring.map .request) written
    obtain ⟨f, count, e', ran, -⟩ :=
      Estate.collect_ok (e := written.estate) .reversed wf held enough
    have matched : SomehowMatched 1 1 written written :=
      matched_self wf held fun r mem => by
        obtain rfl := Option.some.inj (List.mem_singleton.mp mem)
        exact live
    obtain ⟨R, matched⟩ := matched
    obtain ⟨y, moved, matched'⟩ := collect_right matched .reversed fun z stopped => by
      simp only [collect, ran] at stopped
      cases stopped
    simp only [Spacious, perform_collection, moved]
    have old : ∀ q ∈ restoring, ∀ object, q.source? ≠ some (.fresh object) := by
      simp [restoring, Request.source?]
    exact spacious_agree old disciplined'.2.2 disciplined.2.2 matched'
      (show Spacious (restoring.map .request) written from ⟨⟩)
  have created : Cache.create ⟨1⟩ blank.resolver.cache.file .null {} = .ok blank.resolver.cache :=
    rfl
  have same : requests collected = requests plain := rfl
  have invisible := collections_invisible .empty (.inl rfl) created .ofCompiler none same
    disciplined disciplined' fits fits'
  exact ⟨disciplined, disciplined', fits, fits', invisible.1⟩

end ResolutionCache.Session
