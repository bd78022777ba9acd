import ResolutionCache.Proofs.LoadTest.Run
import ResolutionCache.Proofs.Resolver.Larger

/-!
# Load tests of larger caches

A mutator stores only what it misses, so two load tests whose caches differ in capacity store
different things. But as long as one of them is ahead of the other (`LoadTest.Ahead`), what it
misses the other misses too. Then either both fill the index in, or the one behind does so alone;
in both cases the one ahead stays ahead (`LoadTest.use_keepsUp`). So it misses at most as often, and
takes at most as many places (`LoadTest.turns_keepUp`).

With what is true of any stores (`Resolver.covers_leaveStores`, `Resolver.held_leaveStores`) this
says that a larger cache never loses a hit (`larger_caches_keep_hits`).
-/

namespace ResolutionCache

namespace Resolver

variable {r : Resolver} {index : UInt32} {callSite : Ref}

/-- Binding a call site leaves the tables of symbols alone. -/
theorem held_withCallSite (r : Resolver) (index : UInt32) (callSite : Ref) (kind : SlotKind) :
    (r.withCallSite index callSite).cache.held kind = r.cache.held kind := by
  cases kind <;> rfl

/-- A call site in range is bound once something has been bound there, and the others are bound if
they were before. -/
theorem isSome_callSiteAt_withCallSite (full : callSite ≠ .null) (i : Nat) :
    ((r.withCallSite index callSite).cache.callSiteAt i).isSome =
      if index.toNat = i ∧ i < r.cache.callSites.entries.size then true
      else (r.cache.callSiteAt i).isSome := by
  show ((r.cache.callSites.entries.setIfInBounds index.toNat callSite)[i]? >>=
    Address.nonNull).isSome = _
  rw [Array.getElem?_setIfInBounds]
  by_cases here : index.toNat = i
  · subst here
    by_cases range : index.toNat < r.cache.callSites.entries.size
    · rw [if_pos rfl, if_pos range, if_pos ⟨rfl, range⟩]
      show callSite.nonNull.isSome = true
      rw [Address.nonNull_eq_some_iff.mpr ⟨rfl, full⟩]
      rfl
    · rw [if_pos rfl, if_neg range, if_neg fun both => range both.2, Cache.callSiteAt,
        Array.getElem?_eq_none (Nat.le_of_not_lt range)]
  · rw [if_neg here, if_neg fun both => here both.1]
    rfl

end Resolver

namespace LoadTest

open Attempt

variable {file : SymbolFile} {w w' v v' : LoadTest} {kind : SlotKind} {index : UInt32}

/-! ### Two load tests side by side -/

/-- The kinds whose lookups a mutator counts. -/
def lookedUp : List SlotKind := [.string, .type, .field]

/-- **A load test is ahead of another** for the same file: its capacities are as large, it holds
something wherever the other does, both have bound the same call sites, and it has as many places
left. -/
structure Ahead (file : SymbolFile) (w' w : LoadTest) : Prop where
  sound : w.Sound file
  sound' : w'.Sound file
  larger : ∀ kind ∈ lookedUp,
    w.resolver.cache.settings.capacity kind ≤ w'.resolver.cache.settings.capacity kind
  covers : ∀ kind ∈ lookedUp, Holdings.Covers (fun _ _ => True) (w'.resolver.cache.held kind)
    (w.resolver.cache.held kind)
  callSites : ∀ i, (w'.resolver.cache.callSiteAt i).isSome = (w.resolver.cache.callSiteAt i).isSome
  room : w.heap.room ≤ w'.heap.room

namespace Filled

variable {cost : Nat}

theorem settings (filled : Filled file kind index cost w v) :
    v.resolver.cache.settings = w.resolver.cache.settings := by
  obtain ⟨slot, payload, -, -, cache⟩ := filled.entry
  rw [cache, Resolver.settings_withEntry]

theorem held (filled : Filled file kind index cost w v) : ∃ payload, v.resolver.cache.held kind =
    Holdings.store (w.resolver.cache.settings.capacity kind) index payload
      (w.resolver.cache.held kind) := by
  obtain ⟨slot, payload, full, at_slot, cache⟩ := filled.entry
  exact ⟨payload, by rw [cache, Resolver.held_withEntry_store at_slot full]⟩

theorem held_of_ne (filled : Filled file kind index cost w v) {other : SlotKind}
    (ne : other ≠ kind) : v.resolver.cache.held other = w.resolver.cache.held other := by
  obtain ⟨slot, payload, -, -, cache⟩ := filled.entry
  funext i
  rw [cache, Resolver.held_withEntry_of_ne ne]

theorem callSiteAt (filled : Filled file kind index cost w v) (i : Nat) :
    v.resolver.cache.callSiteAt i = w.resolver.cache.callSiteAt i := by
  obtain ⟨slot, payload, -, -, cache⟩ := filled.entry
  rw [cache]
  cases kind <;> rfl

end Filled

namespace Ahead

theorem congr (ahead : Ahead file w' w) (sound : v.Sound file) (sound' : v'.Sound file)
    (resolver : v.resolver.cache = w.resolver.cache)
    (resolver' : v'.resolver.cache = w'.resolver.cache)
    (room : v.heap.room ≤ v'.heap.room) : Ahead file v' v where
  sound := sound
  sound' := sound'
  larger := by rw [resolver, resolver']; exact ahead.larger
  covers := by rw [resolver, resolver']; exact ahead.covers
  callSites := by rw [resolver, resolver']; exact ahead.callSites
  room := room

theorem counted (ahead : Ahead file w' w) (hit hit' : Bool) :
    Ahead file (w'.counted hit') (w.counted hit) := by
  refine ahead.congr (ahead.sound.counted hit) (ahead.sound'.counted hit') ?_ ?_ ?_
  · rw [resolver_counted]
  · rw [resolver_counted]
  · rw [heap_counted, heap_counted]
    exact ahead.room

/-- An index is filled in that the load test ahead has already. -/
theorem filled_behind {cost : Nat} (ahead : Ahead file w' w)
    (filled : Filled file kind index cost w v)
    (there : (w'.resolver.cache.held kind index).isSome) : Ahead file w' v where
  sound := filled.sound
  sound' := ahead.sound'
  larger := by rw [filled.settings]; exact ahead.larger
  covers := by
    intro other mem
    by_cases same : other = kind
    · subst same
      obtain ⟨payload, held⟩ := filled.held
      obtain ⟨a', there⟩ := Option.isSome_iff_exists.mp there
      rw [held]
      exact (ahead.covers other mem).store_covered there trivial _
    · rw [filled.held_of_ne same]
      exact ahead.covers other mem
  callSites i := by rw [filled.callSiteAt, ahead.callSites]
  room := by
    have := filled.room
    have := ahead.room
    omega

/-- An index is filled in by both. -/
theorem filled {cost : Nat} (ahead : Ahead file w' w) (behind : Filled file kind index cost w v)
    (front : Filled file kind index cost w' v') : Ahead file v' v where
  sound := behind.sound
  sound' := front.sound
  larger := by rw [behind.settings, front.settings]; exact ahead.larger
  covers := by
    intro other mem
    by_cases same : other = kind
    · subst same
      obtain ⟨payload, held⟩ := behind.held
      obtain ⟨payload', held'⟩ := front.held
      rw [held, held']
      exact (ahead.covers other mem).store (ahead.sound.stocked.usable other)
        (ahead.sound'.stocked.usable other) (ahead.larger other mem) trivial index
    · rw [behind.held_of_ne same, front.held_of_ne same]
      exact ahead.covers other mem
  callSites i := by rw [behind.callSiteAt, front.callSiteAt, ahead.callSites]
  room := by
    have := behind.room
    have := front.room
    have := ahead.room
    omega

/-- A call site is bound by both. -/
theorem claimed (ahead : Ahead file w' w) (behind : Claimed file index w v)
    (front : Claimed file index w' v') : Ahead file v' v := by
  obtain ⟨r, full, cache⟩ := behind.binding
  obtain ⟨r', full', cache'⟩ := front.binding
  have size : w.resolver.cache.callSites.entries.size = file.callSites.toNat :=
    ahead.sound.stocked.callSites
  have size' : w'.resolver.cache.callSites.entries.size = file.callSites.toNat :=
    ahead.sound'.stocked.callSites
  constructor
  case sound => exact behind.sound
  case sound' => exact front.sound
  case larger =>
    rw [cache, cache']
    exact ahead.larger
  case covers =>
    intro kind mem
    rw [cache, cache', Resolver.held_withCallSite, Resolver.held_withCallSite]
    exact ahead.covers kind mem
  case callSites =>
    intro i
    rw [cache, cache', Resolver.isSome_callSiteAt_withCallSite full,
      Resolver.isSome_callSiteAt_withCallSite full', size, size', ahead.callSites]
  case room =>
    have := behind.room
    have := front.room
    have := ahead.room
    omega

end Ahead

/-! ### Steps -/

/-- **A step keeps up:** if the load test behind ends it, so does the load test ahead, with the same
answer and at most as many misses; it is still ahead. The misses are counted in words of 64 bits,
so there is a limit to them. -/
def KeepsUp {α : Type} (file : SymbolFile) (limit : Nat) (w' w : LoadTest)
    (x' x : EStateM.Result Fault LoadTest α) : Prop :=
  ∀ a v, x = .ok a v → ∃ v' misses misses', x' = .ok a v' ∧ Ahead file v' v ∧
    v.misses = w.misses + .ofNat misses ∧ v'.misses = w'.misses + .ofNat misses' ∧
    misses' ≤ misses ∧ misses ≤ limit

namespace KeepsUp

variable {α β : Type} {n m : Nat}

theorem of_ok (ahead : Ahead file v' v) (misses : v.misses = w.misses)
    (misses' : v'.misses = w'.misses) (a : α) : KeepsUp file 0 w' w (.ok a v') (.ok a v) := by
  intro _ _ ran
  cases ran
  exact ⟨v', 0, 0, rfl, ahead, misses.trans (UInt64.add_zero _).symm,
    misses'.trans (UInt64.add_zero _).symm, Nat.le_refl 0, Nat.le_refl 0⟩

theorem mono {x x' : EStateM.Result Fault LoadTest α} (keeps : KeepsUp file n w' w x' x)
    (le : n ≤ m) : KeepsUp file m w' w x' x := by
  intro a v ran
  obtain ⟨v', misses, misses', ran', ahead, missed, missed', fewer, most⟩ := keeps a v ran
  exact ⟨v', misses, misses', ran', ahead, missed, missed', fewer, Nat.le_trans most le⟩

/-- A step that changes nothing comes first. -/
theorem after {x x' : Attempt LoadTest α} {f f' : α → Attempt LoadTest β} {a a' : α}
    (ran' : x' w' = .ok a' w') (ran : x w = .ok a w)
    (rest : KeepsUp file n w' w (f' a' w') (f a w)) :
    KeepsUp file n w' w ((x' >>= f') w') ((x >>= f) w) := by
  rw [bind_ok ran, bind_ok ran']
  exact rest

/-- Steps in a row keep up. -/
theorem bind {x x' : Attempt LoadTest α} {f f' : α → Attempt LoadTest β}
    (first : KeepsUp file n w' w (x' w') (x w))
    (next : ∀ a v v', Ahead file v' v → KeepsUp file m v' v (f' a v') (f a v)) :
    KeepsUp file (n + m) w' w ((x' >>= f') w') ((x >>= f) w) := by
  intro b u ran
  obtain ⟨a, v, now, later⟩ := of_bind_ok ran
  obtain ⟨v', i, i', now', ahead, missed, missed', fewer, most⟩ := first a v now
  obtain ⟨u', j, j', later', ahead, missed₂, missed₂', fewer₂, most₂⟩ := next a v v' ahead b u later
  exact ⟨u', i + j, i' + j', (bind_ok now').trans later', ahead, count_add missed missed₂,
    count_add missed' missed₂', by omega, by omega⟩

end KeepsUp

/-- **A symbol is used** in both. If the load test behind hits, so does the one ahead. -/
theorem use_keepsUp (ahead : Ahead file w' w) (mem : kind ∈ lookedUp)
    (range : index < file.count kind.space) {cost : Nat} {resolve : Attempt LoadTest Unit}
    (resolves : Resolves file kind index cost resolve) :
    KeepsUp file 1 w' w
      ((do unless ← isCached kind index do resolve : Attempt LoadTest Unit) w')
      ((do unless ← isCached kind index do resolve : Attempt LoadTest Unit) w) := by
  rw [bind_ok (ahead.sound.isCached kind range), bind_ok (ahead.sound'.isCached kind range)]
  cases hit : (w.resolver.cache.held kind index).isSome with
  | true =>
    obtain ⟨a, held⟩ := Option.isSome_iff_exists.mp hit
    obtain ⟨a', held', -⟩ := ahead.covers kind mem index a held
    rw [held']
    exact (KeepsUp.of_ok (ahead.counted true true) rfl rfl ()).mono (Nat.zero_le 1)
  | false =>
    intro _ v ran
    have behind := (resolves _ (ahead.sound.counted false)).of_ran ran
    have missed : v.misses = w.misses + .ofNat 1 := behind.misses
    cases hit' : (w'.resolver.cache.held kind index).isSome with
    | true =>
      refine ⟨_, 1, 0, rfl, ?_, missed, (UInt64.add_zero _).symm, Nat.zero_le 1, Nat.le_refl 1⟩
      exact (ahead.counted false true).filled_behind behind (by rwa [resolver_counted])
    | false =>
      -- the load test ahead has as many places left, so it does not run out of them either
      have enough : cost ≤ (w'.counted false).heap.room := by
        have := behind.room
        have := ahead.room
        rw [heap_counted] at *
        omega
      obtain ⟨_, v', ran', front⟩ := (resolves _ (ahead.sound'.counted false)).ends enough
      exact ⟨v', 1, 1, ran', (ahead.counted false false).filled behind front, missed, front.misses,
        Nat.le_refl 1, Nat.le_refl 1⟩

/-- **A call site is used** in both. Both find it bound, or neither does. -/
theorem useCallSite_keepsUp (ahead : Ahead file w' w) (range : index < file.callSites) :
    KeepsUp file 0 w' w (useCallSite index w') (useCallSite index w) := by
  refine .after (ahead.sound'.inspect_getCallSite range) (ahead.sound.inspect_getCallSite range) ?_
  have alike := ahead.callSites index.toNat
  cases unbound : w.resolver.cache.callSiteAt index.toNat with
  | some r =>
    rw [unbound] at alike
    obtain ⟨r', bound⟩ := Option.isSome_iff_exists.mp alike
    rw [bound]
    exact .of_ok ahead rfl rfl ()
  | none =>
    rw [unbound] at alike
    have unbound' := Option.not_isSome_iff_eq_none.mp (Bool.eq_false_iff.mp alike)
    rw [unbound']
    intro _ v ran
    have behind := (bind_within ahead.sound range unbound).of_ran ran
    have enough : 1 ≤ w'.heap.room := by
      have := behind.room
      have := ahead.room
      omega
    obtain ⟨_, v', ran', front⟩ := (bind_within ahead.sound' range unbound').ends enough
    exact ⟨v', 0, 0, ran', ahead.claimed behind front,
      behind.misses.trans (UInt64.add_zero _).symm, front.misses.trans (UInt64.add_zero _).symm,
      Nat.le_refl 0, Nat.le_refl 0⟩

/-- **A turn** is taken by both with the same indices. -/
theorem turn_keepsUp (ahead : Ahead file w' w) (types : file.types = file.strings)
    (fields : file.fields = file.strings) (g : Generator) :
    KeepsUp file 3 w' w (turn g w') (turn g w) := by
  by_cases none : file.strings = 0
  · have stopped := turn_error (w := w) (by rwa [ahead.sound.stocked.serves]) g
    intro _ _ ran
    rw [stopped] at ran
    cases ran
  · obtain ⟨index, g', drawn, range, -⟩ := g.next_ok none
    refine .after (get_apply w') (get_apply w) ?_
    rw [ahead.sound.stocked.serves, ahead.sound'.stocked.serves]
    refine .after (inspect_ok drawn) (inspect_ok drawn) ?_
    have in_types : index < file.types := by rwa [types]
    have in_fields : index < file.fields := by rwa [fields]
    refine (use_keepsUp ahead (by decide) range (resolves_string range)).bind (m := 2)
      fun _ v v' ahead => ?_
    refine (use_keepsUp ahead (by decide) in_types (resolves_type in_types)).bind (m := 1)
      fun _ v v' ahead => ?_
    refine (use_keepsUp ahead (by decide) in_fields (resolves_field in_fields)).bind (m := 0)
      fun _ v v' ahead => ?_
    split
    · exact .of_ok ahead rfl rfl g'
    · obtain ⟨site, g'', drawn, range, -⟩ := g'.next_ok ‹_›
      refine .after (inspect_ok drawn) (inspect_ok drawn) ?_
      exact (useCallSite_keepsUp ahead range).bind (m := 0) fun _ v v' ahead =>
        .of_ok ahead rfl rfl g''

/-! ### Mutators -/

/-- **How often a mutator misses.** The counter of a load test is a word of 64 bits that may come
round; this number is not. -/
def missesOf : (iterations : Nat) → Generator → LoadTest → Nat
  | 0, _, _ => 0
  | iterations + 1, g, w =>
    match turn g w with
    | .ok g w' => (w'.misses - w.misses).toNat + missesOf iterations g w'
    | .error _ w' => (w'.misses - w.misses).toNat

theorem missesOf_succ {g g' : Generator} (ran : turn g w = .ok g' v) {misses : Nat}
    (missed : v.misses = w.misses + .ofNat misses) (few : misses ≤ 3) (iterations : Nat) :
    missesOf (iterations + 1) g w = misses + missesOf iterations g' v := by
  have same : v.misses - w.misses = .ofNat misses := by
    rw [missed, UInt64.add_comm, UInt64.add_sub_cancel]
  rw [missesOf, ran]
  dsimp only
  rw [same, UInt64.toNat_ofNat_of_lt' (by show misses < 2 ^ 64; omega)]

/-- **A mutator** of the load test ahead ends if that of the other does, with as few misses. -/
theorem turns_keepUp (ahead : Ahead file w' w) (types : file.types = file.strings)
    (fields : file.fields = file.strings) {iterations : Nat} {g : Generator}
    (ran : turns iterations g w = .ok () v) :
    ∃ v', turns iterations g w' = .ok () v' ∧
      missesOf iterations g w' ≤ missesOf iterations g w ∧
      missesOf iterations g w ≤ 3 * iterations ∧
      v.misses = w.misses + .ofNat (missesOf iterations g w) ∧
      v'.misses = w'.misses + .ofNat (missesOf iterations g w') := by
  induction iterations generalizing w w' g with
  | zero =>
    cases ran
    exact ⟨w', rfl, Nat.le_refl 0, Nat.le_refl 0, (UInt64.add_zero _).symm,
      (UInt64.add_zero _).symm⟩
  | succ iterations ih =>
    obtain ⟨g', u, turned, rest⟩ := of_bind_ok ran
    obtain ⟨u', misses, misses', turned', ahead, missed, missed', fewer, most⟩ :=
      turn_keepsUp ahead types fields g g' u turned
    obtain ⟨v', rest', fewer₂, most₂, missed₂, missed₂'⟩ := ih ahead rest
    rw [missesOf_succ turned missed most, missesOf_succ turned' missed' (by omega)]
    exact ⟨v', (bind_ok turned').trans rest', by omega, by omega, count_add missed missed₂,
      count_add missed' missed₂'⟩

/-- **In the beginning** a load test with larger capacities is ahead, whatever the surroundings. -/
theorem ahead_of_start {o o' : LoadTestOptions} {s s' : Surroundings} (ids : o'.ids = o.ids)
    (callSites : o'.callSites = o.callSites) (started : start o s = .ok w)
    (started' : start o' s' = .ok w')
    (larger : ∀ kind ∈ lookedUp,
      w.resolver.cache.settings.capacity kind ≤ w'.resolver.cache.settings.capacity kind) :
    Ahead o.file w' w := by
  have files : o'.file = o.file := by rw [LoadTestOptions.file, ids, callSites]; rfl
  have sound := start_sound started
  have sound' := start_sound started'
  have room := (room_start started).trans (room_start started').symm
  obtain ⟨cache, created, rfl⟩ := of_start_ok started
  obtain ⟨cache', created', rfl⟩ := of_start_ok started'
  obtain ⟨-, -, new⟩ := Cache.of_create_ok created
  obtain ⟨-, -, new'⟩ := Cache.of_create_ok created'
  refine ⟨sound, files ▸ sound', larger, fun kind mem i a held => ?_, fun i => ?_,
    Nat.le_of_eq room⟩
  · rw [new.held_eq_none] at held
    cases held
  · show (cache'.callSiteAt i).isSome = (cache.callSiteAt i).isSome
    unfold Cache.callSiteAt
    rw [new.callSites, new'.callSites, files]

end LoadTest

/-- **A larger cache never loses a hit.**

Two new caches of one file are given the same stores of one kind, and the one has at least the
capacity of the other for the kind. Then whatever the smaller finds, the larger finds too, and the
same. A cache with a capacity for every index forgets nothing: it is the finite map that the stores
build.

Two new load tests have the same numbers of indices and of call sites, whatever their surroundings,
and the one has at least the capacities of the other. Then a mutator of the same seed misses at most
as often in the one as in the other, and it ends if it ends in the other. -/
theorem larger_caches_keep_hits :
    (∀ {kind : SlotKind} {file : SymbolFile} {id id' : CacheId} {location location' : Ref}
        {overrides overrides' : Overrides} {c c' : Cache} (host : Host)
        (dirty dirty' : Option DirtySet) (stores : List (Store kind)),
      Cache.create id file location overrides = .ok c →
      Cache.create id' file location' overrides' = .ok c' →
      c.settings.capacity kind ≤ c'.settings.capacity kind →
      let r := Resolver.leaveStores { cache := c, host, dirty } stores
      let r' := Resolver.leaveStores { cache := c', host, dirty := dirty' } stores
      (∀ index payload, r.get kind index = .ok (some payload) →
        r'.get kind index = .ok (some payload)) ∧
      ((file.count kind.space).toNat ≤ (c'.settings.capacity kind).toNat →
        (kind = .methodType → host.flags.methodHandles = true) →
        ∀ index, index < file.count kind.space →
          r'.get kind index = .ok (Store.build host.flags stores index))) ∧
    (∀ {o o' : LoadTestOptions} {s s' : Surroundings} {w w' v : LoadTest} (seed : UInt64)
        (iterations : Nat),
      o'.ids = o.ids → o'.callSites = o.callSites →
      LoadTest.start o s = .ok w → LoadTest.start o' s' = .ok w' →
      (∀ kind ∈ [SlotKind.string, .type, .field],
        w.resolver.cache.settings.capacity kind ≤ w'.resolver.cache.settings.capacity kind) →
      LoadTest.turns iterations (.ofSeed seed) w = .ok () v →
      ∃ v', LoadTest.turns iterations (.ofSeed seed) w' = .ok () v' ∧
        LoadTest.missesOf iterations (.ofSeed seed) w' ≤
          LoadTest.missesOf iterations (.ofSeed seed) w ∧
        v.misses = .ofNat (LoadTest.missesOf iterations (.ofSeed seed) w) ∧
        v'.misses = .ofNat (LoadTest.missesOf iterations (.ofSeed seed) w') ∧
        (3 * iterations < 2 ^ 64 → v'.misses ≤ v.misses)) := by
  refine ⟨?_, ?_⟩
  · intro kind file id id' location location' overrides overrides' c c' host dirty dirty' stores
      created created' larger r r'
    have fresh := Resolver.Serving.of_created created host dirty kind
    have fresh' := Resolver.Serving.of_created created' host dirty' kind
    obtain ⟨-, -, new⟩ := Cache.of_create_ok created
    obtain ⟨-, -, new'⟩ := Cache.of_create_ok created'
    have serving := Resolver.serving_leaveStores fresh stores
    have serving' := Resolver.serving_leaveStores fresh' stores
    refine ⟨fun index payload hit => ?_, fun enough handles index range => ?_⟩
    · obtain ⟨located, held⟩ := serving.get_eq_some_iff.mp hit
      have nothing : Holdings.Covers Eq (c'.held kind) (c.held kind) := fun i a found => by
        rw [new.held_eq_none] at found
        cases found
      obtain ⟨_, held', rfl⟩ :=
        Resolver.covers_leaveStores fresh fresh' larger nothing stores index payload held
      exact serving'.get_eq_some_iff.mpr ⟨located, held'⟩
    · rw [serving'.get handles range, Resolver.held_leaveStores fresh' enough handles
        (fun i _ => new'.held_eq_none kind i) stores range]
      rfl
  · intro o o' s s' w w' v seed iterations ids callSites started started' larger ran
    have ahead := LoadTest.ahead_of_start ids callSites started started' larger
    obtain ⟨v', ran', fewer, most, missed, missed'⟩ := LoadTest.turns_keepUp ahead rfl rfl ran
    rw [(LoadTest.counts_start started).2, UInt64.zero_add] at missed
    rw [(LoadTest.counts_start started').2, UInt64.zero_add] at missed'
    refine ⟨v', ran', fewer, missed, missed', fun below => ?_⟩
    rw [missed, missed', UInt64.le_iff_toNat_le,
      UInt64.toNat_ofNat_of_lt' (by show _ < 2 ^ 64; omega),
      UInt64.toNat_ofNat_of_lt' (by show _ < 2 ^ 64; omega)]
    exact fewer

/-- Two strings that compete for a slot of two, but not for one of four. -/
def rivals : List (Store .string) := [.set 0 ⟨8⟩, .set 2 ⟨16⟩]

/-- The smaller cache has the second of the rivals, the larger one has both. A load test whose
string cache has two slots misses as often as one of the usual sizes, or more often. -/
theorem larger_caches_keep_hits_rivals :
    (∃ c c', Cache.create ⟨1⟩ Resolver.fourStrings .null { string := some 2 } = .ok c ∧
      Cache.create ⟨2⟩ Resolver.fourStrings .null { string := some 4 } = .ok c' ∧
      (Resolver.leaveStores { cache := c, host := .ofCompiler } rivals).get .string 2 =
        .ok (some ⟨16⟩) ∧
      (Resolver.leaveStores { cache := c', host := .ofCompiler } rivals).get .string 2 =
        .ok (some ⟨16⟩) ∧
      (Resolver.leaveStores { cache := c', host := .ofCompiler } rivals).get .string 0 =
        .ok (some ⟨8⟩)) ∧
    ∃ w w' v v', LoadTest.start { capacities := { string := some 2 } } = .ok w ∧
      LoadTest.start {} = .ok w' ∧
      LoadTest.turns 1000 (.ofSeed 1) w = .ok () v ∧
      LoadTest.turns 1000 (.ofSeed 1) w' = .ok () v' ∧ v'.misses ≤ v.misses := by
  obtain ⟨stores, load_tests⟩ := larger_caches_keep_hits
  constructor
  · obtain ⟨c, created⟩ : ∃ c,
      Cache.create ⟨1⟩ Resolver.fourStrings .null { string := some 2 } = .ok c := ⟨_, rfl⟩
    obtain ⟨c', created'⟩ : ∃ c',
      Cache.create ⟨2⟩ Resolver.fourStrings .null { string := some 4 } = .ok c' := ⟨_, rfl⟩
    have capacity : c.settings.capacity .string = 2 := by
      cases created
      rfl
    have capacity' : c'.settings.capacity .string = 4 := by
      cases created'
      rfl
    obtain ⟨kept, all⟩ := stores .ofCompiler none none rivals created created'
      (by rw [capacity, capacity']; decide)
    have hit : (Resolver.leaveStores { cache := c, host := .ofCompiler } rivals).get .string 2 =
        .ok (some ⟨16⟩) := by
      cases created
      rfl
    refine ⟨c, c', created, created', hit, kept 2 ⟨16⟩ hit, ?_⟩
    exact all (by rw [capacity']; decide) nofun 0 (by decide)
  · obtain ⟨w, started⟩ := LoadTest.start_ok (o := { capacities := { string := some 2 } })
      fun kind capacity given => by
        cases kind <;> cases given
        exact ⟨1, Nat.le_refl 1, rfl⟩
    obtain ⟨w', started'⟩ := LoadTest.start_ok (o := {}) fun kind _ given => by
      cases kind <;> cases given
    have larger : ∀ kind ∈ [SlotKind.string, .type, .field],
        w.resolver.cache.settings.capacity kind ≤ w'.resolver.cache.settings.capacity kind := by
      rw [LoadTest.settings_start started, LoadTest.settings_start started']
      decide
    have within := LoadTest.turns_within ⟨by decide, rfl, rfl⟩ (LoadTest.start_sound started) 1000
      (.ofSeed 1)
    obtain ⟨_, v, ran, -⟩ := within.ends (by rw [LoadTest.room_start started]; decide)
    obtain ⟨v', ran', -, -, -, fewer⟩ :=
      load_tests 1 1000 (by rfl) (by rfl) started started' larger ran
    exact ⟨w, w', v, v', started, started', ran, ran', fewer (by decide)⟩

end ResolutionCache
