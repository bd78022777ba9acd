import ResolutionCache.LoadTest.Turn
import ResolutionCache.Proofs.LoadTest.Stocked
import ResolutionCache.Proofs.LoadTest.Within
import ResolutionCache.Proofs.Resolver.Filed

/-!
# Turns keep a load test sound

A mutator draws indices that are in range, so no lookup is refused. What misses is resolved to the
object that belongs to the index, at a place that is nobody's yet. So every turn ends, and leaves
the load test sound, unless places run out; it takes three of them at most
(`LoadTest.turn_within`). Between two turns a mutator has nothing but its generator
(`LoadTest.turns_add`).
-/

namespace ResolutionCache

/-- An index that is drawn is below the bound, and the register has made one step. -/
theorem Generator.next_ok (g : Generator) {bound : UInt32} (positive : bound ≠ 0) :
    ∃ index g', g.next bound = .ok (index, g') ∧ index < bound ∧
      g'.state = scramble g.state := by
  refine ⟨_, _, if_neg positive, ?_, rfl⟩
  rw [UInt32.lt_iff_toNat_lt, UInt64.toNat_toUInt32, UInt64.toNat_mod, UInt32.toNat_toUInt64]
  have below : 0 < bound.toNat := by
    rw [Nat.pos_iff_ne_zero]
    exact fun none => positive (UInt32.toNat_inj.mp none)
  have := Nat.mod_lt (scramble g.state).toNat below
  have := Nat.mod_le ((scramble g.state).toNat % bound.toNat) (2 ^ 32)
  omega

/-- A file that has as many strings as types and fields, and one at least. -/
structure SymbolFile.Even (file : SymbolFile) : Prop where
  strings : file.strings ≠ 0
  types : file.types = file.strings
  fields : file.fields = file.strings

namespace LoadTest

open Attempt

variable {file : SymbolFile} {w w' : LoadTest} {index : UInt32}

/-- **A sound load test:** its heap is in order, its cache holds what it should and everything in it
is filed, and its host is as it was in the beginning. -/
structure Sound (file : SymbolFile) (w : LoadTest) : Prop where
  wellFormed : w.heap.WellFormed
  stocked : w.resolver.cache.Stocked file w.surroundings.fields w.heap
  host : w.resolver.host = {}
  filed : w.resolver.cache.Filed

/-- Soundness is about the surroundings, the heap, the cache and the host. -/
theorem Sound.congr (sound : w.Sound file) (surroundings : w'.surroundings = w.surroundings)
    (heap : w'.heap = w.heap) (cache : w'.resolver.cache = w.resolver.cache)
    (host : w'.resolver.host = w.resolver.host) : w'.Sound file :=
  ⟨heap ▸ sound.wellFormed, by rw [surroundings, heap, cache]; exact sound.stocked,
    host.trans sound.host, by rw [cache]; exact sound.filed⟩

/-! ### Lookups -/

/-- An index in range has a slot. -/
theorem Sound.slot (sound : w.Sound file) (kind : SlotKind)
    (range : index < file.count kind.space) : ∃ slot, w.resolver.slot kind index = .ok slot := by
  have usable := sound.stocked.usable kind
  obtain ⟨k, -, power⟩ := id usable
  refine ⟨_, Resolver.slot_eq_ok_iff.mpr ⟨fun _ => by rw [sound.host], ?_, ?_, rfl, ?_⟩⟩
  · rw [Cache.ids, sound.stocked.serves]
    exact range
  · exact (isPowerOfTwo_iff _).mpr ⟨k, power⟩
  · rw [sound.stocked.slots kind]
    exact slotOf_lt_slotCount usable range

/-- Nothing is pre-resolved, so a lookup looks into the tables alone. -/
theorem Sound.get_eq_slotted (sound : w.Sound file) (kind : SlotKind) (index : UInt32) :
    w.resolver.get kind index = w.resolver.slotted kind index :=
  Resolver.get_eq_slotted (Overlay.lookup_of_off sound.stocked.overlay _) kind

/-- **A lookup of an index in range** answers what is held. -/
theorem Sound.get (sound : w.Sound file) (kind : SlotKind) (range : index < file.count kind.space) :
    w.resolver.get kind index = .ok (w.resolver.cache.held kind index) := by
  obtain ⟨slot, at_slot⟩ := sound.slot kind range
  rw [sound.get_eq_slotted, Resolver.slotted_of_ok at_slot]

/-- The load test with a lookup counted. -/
def counted (w : LoadTest) (hit : Bool) : LoadTest :=
  if hit then { w with hits := w.hits + 1 } else { w with misses := w.misses + 1 }

@[simp] theorem heap_counted (w : LoadTest) (hit : Bool) : (w.counted hit).heap = w.heap := by
  cases hit <;> rfl

@[simp] theorem surroundings_counted (w : LoadTest) (hit : Bool) :
    (w.counted hit).surroundings = w.surroundings := by
  cases hit <;> rfl

@[simp] theorem resolver_counted (w : LoadTest) (hit : Bool) :
    (w.counted hit).resolver = w.resolver := by
  cases hit <;> rfl

/-- Counts in words of 64 bits add up, also where they come round. -/
theorem count_add {a b c : UInt64} {n m : Nat} (first : b = a + .ofNat n)
    (second : c = b + .ofNat m) : c = a + .ofNat (n + m) := by
  rw [second, first, UInt64.ofNat_add, UInt64.add_assoc]

theorem Sound.counted (sound : w.Sound file) (hit : Bool) : (w.counted hit).Sound file :=
  sound.congr (surroundings_counted w hit) (heap_counted w hit) (by rw [resolver_counted])
    (by rw [resolver_counted])

/-- A lookup in a mutator tells whether something is held, and counts itself. -/
theorem Sound.isCached (sound : w.Sound file) (kind : SlotKind)
    (range : index < file.count kind.space) :
    isCached kind index w = .ok (w.resolver.cache.held kind index).isSome
      (w.counted (w.resolver.cache.held kind index).isSome) := by
  have asked : onCache (inspect (Resolver.get · kind index)) w =
      .ok (w.resolver.cache.held kind index) w := by
    unfold onCache
    rw [show inspect (Resolver.get · kind index) w.resolver = _ from
      inspect_ok (sound.get kind range)]
  unfold LoadTest.isCached
  rw [bind_ok asked]
  rfl

/-! ### Resolving what misses -/

/-- **An object has been put on the heap:** it took a place that nobody holds yet, and all else is
as it was. -/
structure Allocated (file : SymbolFile) (object : Object) (w : LoadTest) (r : Ref)
    (w' : LoadTest) : Prop where
  sound : w'.Sound file
  full : r ≠ .null
  new : r ∉ w'.resolver.cache.roots
  found : w'.heap.objects[r]? = some object
  resolver : w'.resolver = w.resolver
  room : w'.heap.room + 1 = w.heap.room
  misses : w'.misses = w.misses

/-- **An index of a kind has been filled in:** something is in its slot, and so many places were
taken. -/
structure Filled (file : SymbolFile) (kind : SlotKind) (index : UInt32) (cost : Nat)
    (w w' : LoadTest) : Prop where
  sound : w'.Sound file
  entry : ∃ (slot : Nat) (payload : Address kind.width), payload ≠ .null ∧
    w.resolver.slot kind index = .ok slot ∧
    w'.resolver.cache = (w.resolver.withEntry kind slot ⟨payload, index⟩).cache
  room : w'.heap.room + cost = w.heap.room
  misses : w'.misses = w.misses

/-- **A call site has been bound** to something. -/
structure Claimed (file : SymbolFile) (index : UInt32) (w w' : LoadTest) : Prop where
  sound : w'.Sound file
  binding : ∃ r : Ref, r ≠ .null ∧
    w'.resolver.cache = (w.resolver.withCallSite index r).cache
  room : w'.heap.room + 1 = w.heap.room
  misses : w'.misses = w.misses

/-- An allocation comes before what it is for. -/
theorem Filled.after {kind : SlotKind} {object : Object} {r : Ref} {w'' : LoadTest}
    (allocated : Allocated file object w r w') (filled : Filled file kind index 0 w' w'') :
    Filled file kind index 1 w w'' where
  sound := filled.sound
  entry := allocated.resolver ▸ filled.entry
  room := by
    rw [← allocated.room, ← filled.room]
  misses := filled.misses.trans allocated.misses

theorem onHeap_ok {ε α : Type} {action : EStateM ε Heap α} {a : α} {h : Heap}
    (ran : action w.heap = .ok a h) : onHeap action w = .ok a { w with heap := h } := by
  simp only [onHeap, ran]

theorem onHeap_error {ε α : Type} {action : EStateM ε Heap α} {e : ε} {h : Heap}
    (stopped : action w.heap = .error e h) : onHeap action w = .error e { w with heap := h } := by
  simp only [onHeap, stopped]

/-- **An allocation** takes a place, and nobody holds the object yet. -/
theorem allocate_within (sound : w.Sound file) (object : Object) :
    Within w.heap.room 1 (Allocated file object w) (onHeap (Heap.allocate object) w) := by
  have wf := sound.wellFormed
  rcases Nat.eq_zero_or_pos w.heap.room with full | room
  · rw [onHeap_error (wf.allocate_error full object)]
    exact .exhausted (wf.next_advance_eq_zero_iff.mpr full) (by omega)
  · rw [onHeap_ok (wf.allocate_ok room object)]
    have one : (w.heap.withNew object).room + 1 = w.heap.room := wf.room_advance room
    refine .ok
      { sound := ⟨wf.withNew room object, sound.stocked.withNew wf object, sound.host, sound.filed⟩
        full := wf.place_ne_null
        new := fun root => wf.place_not_mem (sound.stocked.held root)
        found := (Heap.getElem?_objects_withNew _ _ _).trans (if_pos rfl)
        resolver := rfl
        room := one
        misses := rfl } (Nat.le_of_eq one.symm)

/-- On this host a symbol that has a slot is stored. -/
theorem set_ok {r : Resolver} (host : r.host = {}) {kind : SlotKind} {slot : Nat}
    (at_slot : r.slot kind index = .ok slot) {payload : Address kind.width}
    (full : payload ≠ .null) :
    Resolver.set kind index payload r =
      .ok () (r.withEntry kind slot ⟨payload, index⟩).remembered := by
  have not_null : ¬ payload.isNull = true := mt (Address.isNull_iff payload).mp full
  -- the host of a load test is in no transaction
  have unlogged : Resolver.recordString index (r.withEntry kind slot ⟨payload, index⟩) =
      .ok () (r.withEntry kind slot ⟨payload, index⟩) := by
    rw [Resolver.recordString_eq, Resolver.host_withEntry, host]
    rfl
  rw [Resolver.set_eq, if_neg not_null, at_slot]
  simp only [unlogged, ite_self]

/-- Storing a symbol that has a slot takes no place. What is kept of the cache is for the caller to
say. -/
theorem store_within (sound : w.Sound file) (kind : SlotKind)
    (range : index < file.count kind.space) {payload : Address kind.width} (full : payload ≠ .null)
    (stocked : ∀ slot, slot < (w.resolver.cache.table kind).size →
      (w.resolver.cache.mapTable kind (·.replace slot ⟨payload, index⟩)).Stocked file
        w.surroundings.fields w.heap) :
    Within w.heap.room 0 (fun _ => Filled file kind index 0 w)
      (onCache (Resolver.set kind index payload) w) := by
  obtain ⟨slot, at_slot⟩ := sound.slot kind range
  have stored : onCache (Resolver.set kind index payload) w =
      .ok () { w with
        resolver := (w.resolver.withEntry kind slot ⟨payload, index⟩).remembered } := by
    unfold onCache
    rw [set_ok sound.host at_slot full]
  obtain ⟨-, below, -, here, -⟩ := Resolver.slot_eq_ok_iff.mp at_slot
  have filed := (sound.filed kind).replace (e := ⟨payload, index⟩) kind.wide
    (.inr ⟨full, below, here⟩)
  exact .of_ok stored rfl
    { sound := ⟨sound.wellFormed, stocked slot (Resolver.slot_lt at_slot), sound.host,
        sound.filed.mapTable filed⟩
      entry := ⟨slot, payload, full, at_slot, rfl⟩
      room := rfl
      misses := rfl }

/-- **A way to resolve an index of a kind** that takes a number of places. -/
def Resolves (file : SymbolFile) (kind : SlotKind) (index : UInt32) (cost : Nat)
    (resolve : Attempt LoadTest Unit) : Prop :=
  ∀ w : LoadTest, w.Sound file →
    Within w.heap.room cost (fun _ => Filled file kind index cost w) (resolve w)

/-- A symbol is looked up, and resolved if it misses. -/
theorem use_within (sound : w.Sound file) (kind : SlotKind) (range : index < file.count kind.space)
    {cost : Nat} {resolve : Attempt LoadTest Unit}
    (resolves : Resolves file kind index cost resolve) :
    Within w.heap.room cost (fun _ w' => w'.Sound file)
      ((do unless ← isCached kind index do resolve : Attempt LoadTest Unit) w) := by
  have asked := sound.isCached kind range
  rw [bind_ok asked]
  cases hit : (w.resolver.cache.held kind index).isSome with
  | true => exact .ok (sound.counted true) (by rw [heap_counted]; omega)
  | false =>
    rw [← heap_counted w false]
    exact (resolves _ (sound.counted false)).mono (Nat.le_refl _) fun _ _ filled => filled.sound

/-- A string takes a place. -/
theorem resolves_string (range : index < file.strings) :
    Resolves file .string index 1 (do
      let string ← onHeap (Heap.allocate (stringObject index))
      onCache (Resolver.set .string index string)) := by
  intro w sound
  refine (allocate_within sound (stringObject index)).bind_free fun r w' new => ?_
  have stored := store_within new.sound .string range new.full fun slot held =>
    new.sound.stocked.store_string held new.full new.new new.found
  exact stored.mono (Nat.le_refl _) fun _ _ filled => filled.after new

/-- A type takes a place. -/
theorem resolves_type (range : index < file.types) :
    Resolves file .type index 1 (do
      let type ← onHeap (Heap.allocate (typeObject index))
      onCache (Resolver.set .type index type)) := by
  intro w sound
  refine (allocate_within sound (typeObject index)).bind_free fun r w' new => ?_
  have stored := store_within new.sound .type range new.full fun slot held =>
    new.sound.stocked.store_type held new.full new.new new.found
  exact stored.mono (Nat.le_refl _) fun _ _ filled => filled.after new

/-- A field takes no place. -/
theorem resolves_field (range : index < file.fields) :
    Resolves file .field index 0 (do
      let w ← get
      onCache (Resolver.set .field index (w.surroundings.fields.address index))) := by
  intro w sound
  refine .after (get_apply w) ?_
  exact store_within sound .field range (w.surroundings.fields.ne_null index) fun slot _ =>
    sound.stocked.store_field index slot

/-! ### Call sites -/

theorem Sound.checkCallSite (sound : w.Sound file) (range : index < file.callSites) :
    w.resolver.checkCallSite index = .ok () := by
  unfold Resolver.checkCallSite
  rw [sound.host, sound.stocked.serves, if_neg (by decide), if_neg (UInt32.not_le.mpr range)]

/-- **A lookup of a call site in range** answers what is bound. -/
theorem Sound.lookup_callSite (sound : w.Sound file) (range : index < file.callSites) :
    w.resolver.cache.callSites.lookup index.toNat =
      .ok (w.resolver.cache.callSiteAt index.toNat) := by
  have held : index.toNat < w.resolver.cache.callSites.entries.size := by
    rw [show w.resolver.cache.callSites.entries.size = _ from sound.stocked.callSites]
    exact UInt32.lt_iff_toNat_lt.mp range
  unfold ClaimTable.lookup Cache.callSiteAt
  rw [dif_pos held, Array.getElem?_eq_getElem held]
  rfl

theorem Sound.getCallSite (sound : w.Sound file) (range : index < file.callSites) :
    w.resolver.getCallSite index = .ok (w.resolver.cache.callSiteAt index.toNat) := by
  unfold Resolver.getCallSite
  rw [sound.checkCallSite range]
  exact sound.lookup_callSite range

theorem Sound.inspect_getCallSite (sound : w.Sound file) (range : index < file.callSites) :
    onCache (inspect (Resolver.getCallSite · index)) w =
      .ok (w.resolver.cache.callSiteAt index.toNat) w := by
  unfold onCache
  rw [show inspect (Resolver.getCallSite · index) w.resolver = _ from
    inspect_ok (sound.getCallSite range)]

/-- A call site that nobody has bound is bound. -/
theorem Sound.setCallSite (sound : w.Sound file) (range : index < file.callSites)
    (unbound : w.resolver.cache.callSiteAt index.toNat = none) {r : Ref} (full : r ≠ .null) :
    onCache (Resolver.setCallSite index r) w =
      .ok r { w with resolver := (w.resolver.withCallSite index r).remembered } := by
  have not_null : ¬ r.isNull = true := mt (Address.isNull_iff r).mp full
  have taken : w.resolver.cache.callSites.outcome index.toNat r = .ok (.taken r) := by
    unfold ClaimTable.outcome
    rw [if_neg not_null, sound.lookup_callSite range, unbound]
    rfl
  unfold onCache
  rw [Resolver.setCallSite_eq, sound.checkCallSite range]
  simp only [taken]
  rfl

/-- A call site takes a place. -/
theorem bind_within (sound : w.Sound file) (range : index < file.callSites)
    (unbound : w.resolver.cache.callSiteAt index.toNat = none) :
    Within w.heap.room 1 (fun _ => Claimed file index w)
      ((do
        let callSite ← onHeap (Heap.allocate (callSiteObject index))
        let _ ← onCache (Resolver.setCallSite index callSite) : Attempt LoadTest Unit) w) := by
  refine (allocate_within sound (callSiteObject index)).bind_free fun r w' new => ?_
  -- nobody has bound the call site in the meantime
  have claimed := new.sound.setCallSite range (by rwa [new.resolver]) new.full
  have stocked := new.sound.stocked.bind range new.full new.new new.found
  have filed : (w'.resolver.withCallSite index r).cache.Filed :=
    new.sound.filed.congr rfl rfl fun kind => by cases kind <;> rfl
  refine .after claimed (.ok ?_ (Nat.le_refl w'.heap.room))
  exact
    { sound := ⟨new.sound.wellFormed, stocked, new.sound.host, filed⟩
      binding := ⟨r, new.full, by rw [← new.resolver]; rfl⟩
      room := new.room
      misses := new.misses }

/-- A call site is looked up, and takes a place at most. -/
theorem useCallSite_within (sound : w.Sound file) (range : index < file.callSites) :
    Within w.heap.room 1 (fun _ w' => w'.Sound file) (useCallSite index w) := by
  unfold useCallSite
  rw [bind_ok (sound.inspect_getCallSite range)]
  cases unbound : w.resolver.cache.callSiteAt index.toNat with
  | some r => exact .ok sound (by omega)
  | none =>
    exact (bind_within sound range unbound).mono (Nat.le_refl _) fun _ _ claimed => claimed.sound

/-! ### Turns -/

/-- Without an index to be drawn there is no turn. -/
theorem turn_error (none : w.resolver.cache.file.strings = 0) (g : Generator) :
    turn g w = .error .zeroDivisor w := by
  unfold turn
  rw [bind_ok (get_apply w)]
  exact bind_error (inspect_error (if_pos none))

/-- **A turn** takes three places at most. -/
theorem turn_within (even : file.Even) (sound : w.Sound file) (g : Generator) :
    Within w.heap.room 3 (fun _ w' => w'.Sound file) (turn g w) := by
  obtain ⟨index, g', drawn, range, -⟩ := g.next_ok even.strings
  unfold turn
  rw [bind_ok (get_apply w), sound.stocked.serves]
  refine .after (inspect_ok drawn) ?_
  show Within w.heap.room (1 + (1 + 1)) _ _
  refine (use_within sound .string range (resolves_string range)).bind fun _ w sound => ?_
  have in_types : index < file.types := by rwa [even.types]
  refine (use_within sound .type in_types (resolves_type in_types)).bind fun _ w sound => ?_
  have in_fields : index < file.fields := by rwa [even.fields]
  refine (use_within sound .field in_fields (resolves_field in_fields)).free_bind
    fun _ w sound => ?_
  by_cases none : file.callSites = 0
  · rw [if_pos none]
    exact .ok sound (by omega)
  · obtain ⟨site, g'', drawn, range, -⟩ := g'.next_ok none
    rw [if_neg none]
    refine .after (inspect_ok drawn) ?_
    exact (useCallSite_within sound range).bind_free fun _ w sound => .ok sound (by omega)

/-- **A mutator** takes three places at most for each of its turns. -/
theorem turns_within (even : file.Even) (sound : w.Sound file) (iterations : Nat) (g : Generator) :
    Within w.heap.room (iterations * 3) (fun _ w' => w'.Sound file) (turns iterations g w) := by
  induction iterations generalizing w g with
  | zero => exact .ok sound (by omega)
  | succ iterations ih =>
    rw [Nat.succ_mul, Nat.add_comm]
    exact (turn_within even sound g).bind fun g w sound => ih sound g

/-! ### Turns one after another -/

/-- The turns of a mutator, with the generator that the last one leaves. -/
def turnsThen : (iterations : Nat) → Generator → Attempt LoadTest Generator
  | 0, g => pure g
  | iterations + 1, g => do
    let g ← turn g
    turnsThen iterations g

/-- A mutator takes some of its turns, and the others with the generator that is left. -/
theorem turns_add (taken more : Nat) (g : Generator) :
    turns (taken + more) g = (do
      let g ← turnsThen taken g
      turns more g) := by
  induction taken generalizing g with
  | zero =>
    rw [Nat.zero_add]
    rfl
  | succ taken ih =>
    rw [Nat.succ_add, turns, turnsThen, bind_assoc]
    simp only [ih]

theorem turns_eq (iterations : Nat) (g : Generator) :
    turns iterations g = (do let _ ← turnsThen iterations g) :=
  turns_add iterations 0 g

end LoadTest

end ResolutionCache
