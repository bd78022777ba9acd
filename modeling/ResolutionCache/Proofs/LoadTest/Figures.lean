import Mathlib.Data.List.Induction
import ResolutionCache.Proofs.LoadTest.Moments

/-!
# The figures of a load test

In a cache in which everything is filed the lookups of all indices of a kind find every payload of
its table, and none twice (`Cache.Filed.perm_held`). So in a sound load test they find every root
but the location (`LoadTest.Sound.perm_found`), and after a collection the roots are the places of
the objects that are left.

Every turn looks up three times, a collection not at all (`LoadTest.LooksUp`). So the figures that a
load test reports can be told from its sizes, and in every round the audit counts what the
collection moved (`LoadTest.figures_balance`).
-/

namespace ResolutionCache

open Attempt

/-! ### What the lookups of all indices find -/

/-- Where a function gives nothing it need not be asked. -/
theorem perm_flatMap_of_nil {α β : Type} [DecidableEq α] {l l' : List α} {f : α → List β}
    (distinct : l.Nodup) (distinct' : l'.Nodup) (within : l' ⊆ l)
    (elsewhere : ∀ a ∈ l, a ∉ l' → f a = []) : (l.flatMap f).Perm (l'.flatMap f) := by
  have split := (List.filter_append_perm (· ∈ l') l).flatMap_right f
  have silent : (l.filter fun a => !decide (a ∈ l')).flatMap f = [] := by
    refine List.flatMap_eq_nil_iff.mpr fun a mem => ?_
    obtain ⟨there, out⟩ := List.mem_filter.mp mem
    exact elsewhere a there (by simpa using out)
  have asked : (l.filter (· ∈ l')).Perm l' := by
    rw [List.perm_ext_iff_of_nodup (distinct.filter _) distinct']
    intro a
    rw [List.mem_filter, decide_eq_true_eq]
    exact ⟨And.right, fun mem => ⟨within mem, mem⟩⟩
  rw [List.flatMap_append, silent, List.append_nil] at split
  exact split.symm.trans (asked.flatMap_right f)

/-- Asking for every member of a list by its number is asking for every member. -/
theorem flatMap_range_getElem? {α β : Type} (f : α → Option β) (l : List α) :
    (List.range l.length).flatMap (fun i => (l[i]? >>= f).toList) = l.filterMap f := by
  induction l using List.reverseRecOn with
  | nil => rfl
  | append_singleton l a ih =>
    have before : ∀ i ∈ List.range l.length,
        ((l ++ [a])[i]? >>= f).toList = (l[i]? >>= f).toList := by
      intro i mem
      rw [List.getElem?_append_left (List.mem_range.mp mem)]
    have last : ((l ++ [a])[l.length]? >>= f).toList = [a].filterMap f := by
      rw [List.getElem?_concat_length]
      show (f a).toList = _
      cases found : f a <;> simp [found]
    rw [List.length_append, List.length_singleton, List.range_succ, List.flatMap_append,
      List.flatMap_congr before, ih, List.filterMap_append, List.flatMap_singleton, last]

/-- The references that are not null. -/
theorem filterMap_nonNull {w : Nat} (l : List (Address w)) :
    l.filterMap Address.nonNull = l.filter (!·.isNull) := by
  rw [← List.filterMap_eq_filter]
  refine List.filterMap_congr fun a _ => ?_
  unfold Address.nonNull
  cases null : a.isNull <;> simp [Option.guard, null]

namespace DirectMap

variable {w : Nat} {m : DirectMap w} {capacity : UInt64} {ids : UInt32}

/-- The payloads in the occupied slots are all payloads but null. -/
theorem Filed.payloads_occupied (filed : m.Filed capacity ids) :
    m.occupied.map (fun p => p.2.payload) = m.payloads.filter (!·.isNull) := by
  have used (e : Entry w) (slot : Nat) (mem : (e, slot) ∈ m.entries.toList.zipIdx) :
      e = .vacant slot ↔ e.payload = .null := by
    rw [List.mem_zipIdx_iff_getElem?, Array.getElem?_toList] at mem
    constructor
    · rintro rfl
      rfl
    · exact fun empty => (filed.slots slot e mem).resolve_right fun full => full.1 empty
  have kept : m.occupied.map (fun p => p.2.payload) =
      m.entries.toList.zipIdx.filterMap fun p => p.1.payload.nonNull := by
    unfold occupied
    rw [List.map_filterMap]
    refine List.filterMap_congr fun (e, slot) mem => ?_
    unfold Address.nonNull
    by_cases null : e.payload = .null
    · obtain rfl := (used e slot mem).mpr null
      simp [Entry.vacant]
    · simp [null, mt (used e slot mem).mp null]
  have entries : m.entries.toList.zipIdx.filterMap (fun p => p.1.payload.nonNull) =
      m.payloads.filterMap Address.nonNull := by
    have first := congrArg (List.filterMap fun e : Entry w => e.payload.nonNull)
      (List.zipIdx_map_fst 0 m.entries.toList)
    rw [List.filterMap_map] at first
    rw [payloads, List.filterMap_map]
    exact first
  rw [kept, entries, filterMap_nonNull]

end DirectMap

namespace Cache

variable {c : Cache}

/-- What is held for the owner of an occupied slot. -/
theorem Filed.held_owner (filed : c.Filed) {kind : SlotKind} {slot : Nat} {e : Entry kind.width}
    (mem : (slot, e) ∈ (c.table kind).occupied) : c.held kind e.owner = some e.payload := by
  obtain ⟨full, -, here⟩ := (filed kind).of_mem_occupied mem
  obtain ⟨there, -⟩ := DirectMap.mem_occupied.mp mem
  unfold Cache.held
  rw [here, there]
  exact Entry.lookup_eq_some_iff.mpr ⟨rfl, rfl, full⟩

/-- **The lookups of all indices of a kind** find every payload of its table, and none twice. -/
theorem Filed.perm_held (filed : c.Filed) (kind : SlotKind) :
    ((List.range (c.ids kind).toNat).flatMap fun i => (c.held kind i.toUInt32).toList).Perm
      ((c.table kind).payloads.filter (!·.isNull)) := by
  have distinct : ((List.range (c.ids kind).toNat).map Nat.toUInt32).Nodup := by
    refine List.Nodup.map_on (fun i mem j mem' same => ?_) List.nodup_range
    have same := congrArg UInt32.toNat same
    rwa [(LoadTest.toNat_index (List.mem_range.mp mem)).1,
      (LoadTest.toNat_index (List.mem_range.mp mem')).1] at same
  -- the owners are the indices for which something is held
  have owned : (c.table kind).owners ⊆ (List.range (c.ids kind).toNat).map Nat.toUInt32 := by
    intro index mem
    obtain ⟨⟨slot, e⟩, occupied, rfl⟩ := List.mem_map.mp mem
    obtain ⟨-, below, -⟩ := (filed kind).of_mem_occupied occupied
    exact List.mem_map.mpr ⟨e.owner.toNat, List.mem_range.mpr (UInt32.lt_iff_toNat_lt.mp below),
      UInt32.ofNat_toNat⟩
  have unowned (index : UInt32) (out : index ∉ (c.table kind).owners) :
      (c.held kind index).toList = [] := by
    cases found : c.held kind index with
    | none => rfl
    | some a =>
      obtain ⟨e, there, looked⟩ := Option.bind_eq_some_iff.mp found
      obtain ⟨rfl, rfl, full⟩ := Entry.lookup_eq_some_iff.mp looked
      exact absurd ((filed kind).mem_owners_iff.mpr ⟨e, there, rfl, full⟩) out
  have found : (c.table kind).owners.flatMap (fun index => (c.held kind index).toList) =
      (c.table kind).occupied.map fun p => p.2.payload := by
    unfold DirectMap.owners
    rw [List.flatMap_map, List.map_eq_flatMap]
    refine List.flatMap_congr fun (slot, e) mem => ?_
    rw [filed.held_owner mem]
    rfl
  have asked := perm_flatMap_of_nil (f := fun index => (c.held kind index).toList) distinct
    (filed kind).nodup_owners owned fun index _ out => unowned index out
  rw [List.flatMap_map, found, (filed kind).payloads_occupied] at asked
  exact asked

end Cache

namespace LoadTest

variable {o : LoadTestOptions} {s : Surroundings} {file : SymbolFile} {w w' : LoadTest}

/-- The lookups of all indices of a kind find what is in its table. -/
theorem Sound.perm_hits (sound : w.Sound file) (kind : SlotKind) :
    ((List.range (file.count kind.space).toNat).flatMap fun i =>
      hit (w.resolver.get kind i.toUInt32)).Perm
      ((w.resolver.cache.table kind).payloads.filter (!·.isNull)) := by
  have held := sound.filed.perm_held kind
  rw [Cache.ids, sound.stocked.serves] at held
  rwa [List.flatMap_congr fun i mem => show hit (w.resolver.get kind i.toUInt32) =
    (w.resolver.cache.held kind i.toUInt32).toList by
      rw [sound.get kind (toNat_index (List.mem_range.mp mem)).2]
      rfl]

/-- The lookups of all call sites find what is bound. -/
theorem Sound.hits_callSites (sound : w.Sound file) :
    ((List.range file.callSites.toNat).flatMap fun i =>
      hit (w.resolver.getCallSite i.toUInt32)) =
      w.resolver.cache.callSites.entries.toList.filter (!·.isNull) := by
  have size : w.resolver.cache.callSites.entries.toList.length = file.callSites.toNat :=
    sound.stocked.callSites
  rw [← filterMap_nonNull, ← flatMap_range_getElem?, size]
  refine List.flatMap_congr fun i mem => ?_
  obtain ⟨same, below⟩ := toNat_index (List.mem_range.mp mem)
  rw [sound.getCallSite below, same, Array.getElem?_toList]
  rfl

/-- **The lookups of a sound load test** and its location find every root, and none twice. -/
theorem Sound.perm_found (sound : w.Sound file) :
    (w.resolver.cache.location :: w.found).Perm w.resolver.cache.roots := by
  have stocked := sound.stocked
  have located : [w.resolver.cache.location].filter (!·.isNull) = [w.resolver.cache.location] := by
    have full := sound.wellFormed.ne_null_of_mem (Heap.mem_of_found stocked.location)
    rw [ne_eq, ← Address.isNull_iff, Bool.not_eq_true] at full
    simp [full]
  have methodTypes : w.resolver.cache.methodTypes.payloads = [] :=
    List.eq_nil_of_length_eq_zero ((DirectMap.length_payloads _).trans stocked.methodTypes)
  have overlay : w.resolver.cache.overlay.references = [] := by
    rw [Overlay.references, Overlay.entries?, stocked.overlay]
    rfl
  unfold found Cache.roots
  rw [stocked.serves, Cache.references_eq, methodTypes, overlay]
  simp only [List.filter_append, List.append_nil, located]
  rw [List.append_assoc, List.append_assoc, List.singleton_append, sound.hits_callSites]
  exact ((sound.perm_hits .string).append ((sound.perm_hits .type).append_right _)).cons _

/-! ### Counting lookups -/

/-- **From one load test to another there were so many lookups:** some hit and the others missed.
The counts are kept in words of 64 bits, which may come round. -/
def Counted (lookups : Nat) (w w' : LoadTest) : Prop :=
  ∃ hits misses : Nat, hits + misses = lookups ∧
    w'.hits = w.hits + .ofNat hits ∧ w'.misses = w.misses + .ofNat misses

/-- Without lookups the counts stay. -/
theorem Counted.none (hits : w'.hits = w.hits) (misses : w'.misses = w.misses) : Counted 0 w w' :=
  ⟨0, 0, rfl, hits.trans (UInt64.add_zero _).symm, misses.trans (UInt64.add_zero _).symm⟩

/-- Lookups add up. -/
theorem Counted.trans {n m : Nat} {w'' : LoadTest} (first : Counted n w w')
    (second : Counted m w' w'') : Counted (n + m) w w'' := by
  obtain ⟨hits, misses, sum, hit, missed⟩ := first
  obtain ⟨hits', misses', sum', hit', missed'⟩ := second
  exact ⟨hits + hits', misses + misses', by omega, count_add hit hit', count_add missed missed'⟩

/-- **The operation looks up so many times** whenever it ends. -/
def LooksUp {ε α : Type} (lookups : Nat) (action : EStateM ε LoadTest α) : Prop :=
  ∀ w a w', action w = .ok a w' → Counted lookups w w'

namespace LooksUp

variable {ε α β : Type} {n m : Nat}

theorem pure (a : α) : LooksUp 0 (Pure.pure a : EStateM ε LoadTest α) := by
  intro w b w' ran
  cases ran
  exact .none rfl rfl

theorem bind {action : EStateM ε LoadTest α} {next : α → EStateM ε LoadTest β}
    (first : LooksUp n action) (rest : ∀ a, LooksUp m (next a)) :
    LooksUp (n + m) (action >>= next) := by
  intro w b w' ran
  obtain ⟨a, mid, now, later⟩ := of_bind_ok ran
  exact (first w a mid now).trans (rest a mid b w' later)

/-- What does not look up comes first. -/
theorem after {action : EStateM ε LoadTest α} {next : α → EStateM ε LoadTest β}
    (first : LooksUp 0 action) (rest : ∀ a, LooksUp m (next a)) : LooksUp m (action >>= next) := by
  rw [← Nat.zero_add m]
  exact first.bind rest

theorem get : LooksUp 0 (MonadState.get : EStateM ε LoadTest LoadTest) := by
  intro w a w' ran
  cases ran
  exact .none rfl rfl

theorem inspect (question : LoadTest → Except ε α) : LooksUp 0 (Attempt.inspect question) := by
  intro w a w' ran
  obtain ⟨-, rfl⟩ := of_inspect_ok ran
  exact .none rfl rfl

theorem report (event : Event) : LooksUp 0 (LoadTest.report event : EStateM ε LoadTest Unit) := by
  intro w a w' ran
  cases ran
  exact .none rfl rfl

theorem onHeap (action : EStateM ε Heap α) : LooksUp 0 (LoadTest.onHeap action) := by
  intro w a w' ran
  simp only [LoadTest.onHeap] at ran
  split at ran
  · cases ran
    exact .none rfl rfl
  · cases ran

theorem onCache (action : EStateM ε Resolver α) : LooksUp 0 (LoadTest.onCache action) := by
  intro w a w' ran
  unfold LoadTest.onCache at ran
  split at ran
  · cases ran
    exact .none rfl rfl
  · cases ran

theorem stoppingWith {action : Attempt LoadTest α} (looks : LooksUp n action)
    (reason : Fault → ε) : LooksUp n (LoadTest.stoppingWith reason action) :=
  fun w a w' ran => looks w a w' (of_stoppingWith_ok ran)

theorem forEach {action : Nat → EStateM ε LoadTest Unit} (looks : ∀ i, LooksUp n (action i))
    (count first : Nat) : LooksUp (count * n) (Attempt.forEach action count first) := by
  induction count generalizing first with
  | zero =>
    rw [Nat.zero_mul]
    exact .pure ()
  | succ count ih =>
    rw [Nat.succ_mul, Nat.add_comm]
    exact (looks first).bind fun _ => ih (first + 1)

end LooksUp

theorem looksUp_isCached (kind : SlotKind) (index : UInt32) : LooksUp 1 (isCached kind index) := by
  refine (LooksUp.onCache _).after fun found => ?_
  intro w hit w' ran
  obtain ⟨_, mid, counted, ran⟩ := of_bind_ok ran
  cases ran
  cases found with
  | none =>
    cases counted
    exact ⟨0, 1, rfl, (UInt64.add_zero _).symm, rfl⟩
  | some a =>
    cases counted
    exact ⟨1, 0, rfl, rfl, (UInt64.add_zero _).symm⟩

theorem looksUp_use {kind : SlotKind} {index : UInt32} {resolve : Attempt LoadTest Unit}
    (silent : LooksUp 0 resolve) :
    LooksUp 1 (do unless ← isCached kind index do resolve : Attempt LoadTest Unit) := by
  refine (looksUp_isCached kind index).bind (m := 0) fun hit => ?_
  cases hit with
  | true => exact .pure ()
  | false => exact silent

theorem looksUp_useCallSite (index : UInt32) : LooksUp 0 (useCallSite index) := by
  refine (LooksUp.onCache _).after fun found => ?_
  cases found with
  | none =>
    exact (LooksUp.onHeap _).after fun callSite => (LooksUp.onCache _).after fun _ => .pure ()
  | some r => exact .pure ()

/-- **A turn** looks up a string, a type and a field. Lookups of call sites are not counted. -/
theorem looksUp_turn (g : Generator) : LooksUp 3 (turn g) := by
  refine LooksUp.get.after fun w => (LooksUp.inspect _).after fun (index, g) => ?_
  have string : LooksUp 1 (useString index) :=
    looksUp_use ((LooksUp.onHeap _).after fun _ => .onCache _)
  have type : LooksUp 1 (useType index) :=
    looksUp_use ((LooksUp.onHeap _).after fun _ => .onCache _)
  have field : LooksUp 1 (useField index) :=
    looksUp_use (LooksUp.get.after fun _ => .onCache _)
  refine string.bind (m := 2) fun _ => type.bind (m := 1) fun _ => field.bind (m := 0) fun _ => ?_
  split
  · exact .pure g
  · refine (LooksUp.inspect _).after fun (site, g) => ?_
    exact (looksUp_useCallSite site).after fun _ => .pure g

/-- **A mutator** looks up three times in each of its turns. -/
theorem looksUp_turns (iterations : Nat) (g : Generator) :
    LooksUp (iterations * 3) (turns iterations g) := by
  induction iterations generalizing g with
  | zero => exact .pure ()
  | succ iterations ih =>
    rw [Nat.succ_mul, Nat.add_comm]
    exact (looksUp_turn g).bind fun g => ih g

theorem looksUp_collect : LooksUp 0 collect := by
  have scan {σ : Type} (v : Visitor 32 σ) (state : σ) : LooksUp 0 (scan v state) :=
    LooksUp.get.after fun w => (LooksUp.onCache _).after fun _ =>
      (LooksUp.report _).after fun _ => .pure _
  refine LooksUp.after (LooksUp.stoppingWith ?_ _) fun (moved, sent) => ?_
  · refine (scan _ _).after fun marks => (LooksUp.onHeap _).after fun freed =>
      LooksUp.get.after fun w => (LooksUp.onHeap _).after fun moved =>
      (LooksUp.report _).after fun _ => LooksUp.get.after fun w => (scan _ _).after fun sent =>
      (LooksUp.onHeap _).after fun _ =>
      LooksUp.get.after fun w => (LooksUp.report _).after fun _ => .pure _
  · show LooksUp 0 (if sent ≠ moved then _ else _ : EStateM LoadTestError LoadTest Unit)
    split
    · intro w a w' ran
      cases ran
    · exact .pure ()

/-- **A round** looks up as often as its mutators do. -/
theorem looksUp_round (o : LoadTestOptions) (number : Nat) :
    LooksUp (o.threads * (o.iterations * 3)) (round o number) := by
  have mutators : LooksUp (o.threads * (o.iterations * 3)) (turnsOfRound o number) :=
    .forEach (fun thread => (looksUp_turns _ _).stoppingWith _) _ _
  have taken : LooksUp 0 takeDirty := by
    intro w a w' ran
    cases ran
    exact .none rfl rfl
  refine mutators.bind (m := 0) fun _ => LooksUp.get.after fun w => taken.after fun dirty =>
    (LooksUp.report _).after fun _ => looksUp_collect.after fun _ =>
    (LooksUp.inspect _).after fun entries => .report _

/-- **A run that succeeds** ends with the figures of all lookups. -/
theorem figures_of_run {ready : LoadTest} (started : start o s = .ok ready)
    (ran : runRounds o ready = .ok () w)
    (below : 3 * o.threads * o.iterations * o.rounds < 2 ^ 64) :
    ∃ hits misses : UInt64, w.journal.back? = some (.figures hits misses) ∧
      hits.toNat + misses.toNat = 3 * o.threads * o.iterations * o.rounds := by
  obtain ⟨_, _, table, ran⟩ := of_bind_ok ran
  obtain ⟨_, last, rounds, reported⟩ := of_bind_ok ran
  obtain ⟨-, rfl⟩ := of_inspect_ok table
  obtain ⟨hits, misses, sum, hit, missed⟩ := LooksUp.forEach (looksUp_round o) _ _ _ _ _ rounds
  obtain ⟨no_hits, no_misses⟩ := counts_start started
  have all : o.rounds * (o.threads * (o.iterations * 3)) =
      3 * o.threads * o.iterations * o.rounds := by
    ac_rfl
  cases reported
  refine ⟨last.hits, last.misses, Array.back?_push .., ?_⟩
  rw [hit, missed, no_hits, no_misses, UInt64.zero_add, UInt64.zero_add,
    UInt64.toNat_ofNat_of_lt' (by show _ < 2 ^ 64; omega),
    UInt64.toNat_ofNat_of_lt' (by show _ < 2 ^ 64; omega)]
  omega

/-! ### Whole runs -/

/-- **A collection of a sound load test** that ends leaves as many roots as objects. -/
theorem of_collect_ok (sound : w.Sound file) (ran : collect w = .ok () w') :
    ∃ moved sent, collectOnce w = .ok (moved, sent) w' ∧ Settled file (moved, sent) w' := by
  obtain ⟨⟨moved, sent⟩, mid, once, ran⟩ := of_bind_ok ran
  have once := of_stoppingWith_ok once
  change (if sent ≠ moved then _ else _ : EStateM LoadTestError LoadTest Unit) mid = _ at ran
  split at ran
  · cases ran
  · cases ran
    exact ⟨moved, sent, once, (collectOnce_within sound).of_ran once⟩

/-- **The figures of a load test balance.** When a load test succeeds, in whatever order its
collections move objects, the hits and the misses that it reports in the end are as many as its
lookups, three for each turn, if these are fewer than `2 ^ 64`. In every round the audit counts as
many entries as objects were moved by the collection before, the location apart; as many roots were
sent, and as many objects are left. For the lookups of all indices and the location lead to every
object on the heap, and to none twice. -/
theorem figures_balance (o : LoadTestOptions) (s : Surroundings) (ran : (run o s).1 = .ok ()) :
    (3 * o.threads * o.iterations * o.rounds < 2 ^ 64 → ∃ hits misses : UInt64,
      (run o s).2.back? = some (.figures hits misses) ∧
      hits.toNat + misses.toNat = 3 * o.threads * o.iterations * o.rounds) ∧
    ∃ ready, start o s = .ok ready ∧ ∀ number, number < o.rounds →
      ∃ before after moved sent entries,
        upTo o (.lookedUp number) ready = .ok () before ∧
        upTo o (.collected number) ready = .ok () after ∧
        collectOnce before = .ok (moved, sent) after ∧ audit after = .ok entries ∧
        entries + 1 = moved ∧ sent = moved ∧ after.heap.size = moved ∧
        (after.resolver.cache.location :: after.found).Perm after.heap.objects.keys := by
  cases started : start o s with
  | error e =>
    rw [run, started] at ran
    cases ran
  | ok ready =>
    cases rounds : runRounds o ready with
    | error e w =>
      rw [run, started] at ran
      simp only [rounds] at ran
      cases ran
    | ok _ w =>
      have journal : (run o s).2 = w.journal := by
        rw [run, started]
        simp only [rounds]
      rw [journal]
      refine ⟨figures_of_run started rounds, ready, rfl, fun number below => ?_⟩
      have occurs : (Moment.collected number).Occurs o := below
      obtain ⟨after, reached⟩ := comes_to rounds occurs
      obtain ⟨before, looked, collected⟩ := of_upTo_collected_ok reached
      have sound := sound_at (start_sound started) looked
      obtain ⟨moved, sent, once, settled⟩ := of_collect_ok sound collected
      have perm := settled.sound.perm_found
      have length := perm.length_eq
      rw [settled.roots, List.length_cons] at length
      exact ⟨before, after, moved, sent, _, looked, reached, once, settled.sound.audit rfl, length,
        settled.balanced, settled.size, perm.trans settled.perm_keys⟩

/-- The load test of one mutator with the usual sizes makes 180000 lookups. Objects move in the
opposite order. -/
theorem figures_balance_usual : (run { threads := 1 } { order := .reversed }).1 = .ok () ∧
    (∃ hits misses : UInt64,
      (run { threads := 1 } { order := .reversed }).2.back? = some (.figures hits misses) ∧
      hits.toNat + misses.toNat = 180000) ∧
    ∃ ready before after moved sent entries,
      start { threads := 1 } { order := .reversed } = .ok ready ∧
      upTo { threads := 1 } (.lookedUp 2) ready = .ok () before ∧
      collectOnce before = .ok (moved, sent) after ∧ audit after = .ok entries ∧
      entries + 1 = moved ∧ sent = moved := by
  have places : ¬ ({ threads := 1 } : LoadTestOptions).OutOfPlaces { order := .reversed } :=
    not_outOfPlaces (by decide) (by decide)
  obtain ⟨w, begun⟩ := start_ok (o := { threads := 1 }) fun kind _ given => by
    cases kind <;> cases given
  have ran := run_of_start_ok (by decide) places begun
  rw [if_neg (by decide)] at ran
  obtain ⟨figures, ready, started, rounds⟩ := figures_balance { threads := 1 } _ ran
  obtain ⟨before, after, moved, sent, entries, looked, -, once, audited, counted, balanced, -⟩ :=
    rounds 2 (by decide)
  exact ⟨ran, figures (by decide), ready, before, after, moved, sent, entries, started, looked,
    once, audited, counted, balanced⟩

end LoadTest

end ResolutionCache
