import Mathlib.Logic.Function.Basic
import ResolutionCache.Proofs.Resolver.LastWriter
import ResolutionCache.Proofs.Resolver.Preconditions
import ResolutionCache.Proofs.Resolver.Recorded

/-!
# Larger tables

A table is told by its *holdings*, what it has for each index. A store takes its slot away from the
rivals of the index, the indices with the same slot, and in a larger table an index has fewer of
them. So a larger table that is given the same stores covers the smaller one
(`Resolver.covered_leaveStores`), and a table with a slot for every index forgets nothing: its
holdings are the finite map that the stores build (`Resolver.held_leaveStores`).

Stores may be refused. The checks do not depend on the capacity, so both tables refuse the same.
-/

namespace ResolutionCache

/-! ### Rivals -/

/-- **A larger capacity has fewer rivals:** indices that have one slot with it have one slot with a
smaller capacity too. -/
theorem slotOf_eq_of_le {capacity larger : UInt64} (usable : UsableCapacity capacity)
    (usable' : UsableCapacity larger) (le : capacity ≤ larger) {i j : UInt32}
    (rivals : slotOf i larger = slotOf j larger) : slotOf i capacity = slotOf j capacity := by
  have divides : capacity.toNat ∣ larger.toNat := by
    obtain ⟨k, -, hk⟩ := id usable
    obtain ⟨l, -, hl⟩ := id usable'
    have le := UInt64.le_iff_toNat_le.mp le
    rw [hk, hl] at le ⊢
    exact Nat.pow_dvd_pow 2 ((Nat.pow_le_pow_iff_right (by decide)).mp le)
  rw [slotOf_eq_mod usable', slotOf_eq_mod usable'] at rivals
  rw [slotOf_eq_mod usable, slotOf_eq_mod usable, ← Nat.mod_mod_of_dvd _ divides, rivals,
    Nat.mod_mod_of_dvd _ divides]

/-- **Without rivals:** with a slot for every index no two indices have the same. -/
theorem slotOf_injOn {capacity : UInt64} (usable : UsableCapacity capacity) {ids i j : UInt32}
    (enough : ids.toNat ≤ capacity.toNat) (below : i < ids) (below' : j < ids)
    (same : slotOf i capacity = slotOf j capacity) : i = j := by
  have below := UInt32.lt_iff_toNat_lt.mp below
  have below' := UInt32.lt_iff_toNat_lt.mp below'
  rw [slotOf_eq_mod usable, slotOf_eq_mod usable, Nat.mod_eq_of_lt (by omega),
    Nat.mod_eq_of_lt (by omega)] at same
  exact UInt32.toNat_inj.mp same

/-! ### Holdings -/

/-- What a table has for each index. -/
abbrev Holdings (w : Nat) : Type := UInt32 → Option (Address w)

namespace Holdings

variable {w : Nat} {alike : Address w → Address w → Prop} {h h' : Holdings w}
  {capacity larger : UInt64} {index : UInt32} {a a' : Address w}

/-- A store: the index has the address, and its rivals have nothing. -/
def store (capacity : UInt64) (index : UInt32) (a : Address w) (h : Holdings w) : Holdings w :=
  fun i => if slotOf i capacity = slotOf index capacity then if index = i then some a else none
    else h i

/-- The index has nothing any more. -/
def forget (index : UInt32) (h : Holdings w) : Holdings w := Function.update h index none

theorem store_self (capacity : UInt64) (index : UInt32) (a : Address w) (h : Holdings w) :
    h.store capacity index a index = some a :=
  (if_pos rfl).trans (if_pos rfl)

/-- Another index that has something after a store is no rival, and had it before. -/
theorem of_store_eq_some {i : UInt32} {b : Address w} (ne : i ≠ index)
    (found : h.store capacity index a i = some b) :
    slotOf i capacity ≠ slotOf index capacity ∧ h i = some b := by
  unfold store at found
  split at found
  · rw [if_neg ne.symm] at found
    cases found
  · exact ⟨‹_›, found⟩

/-- **Some holdings cover others:** they have something alike wherever the others have something. -/
def Covers (alike : Address w → Address w → Prop) (h' h : Holdings w) : Prop :=
  ∀ i a, h i = some a → ∃ a', h' i = some a' ∧ alike a a'

namespace Covers

/-- **A store in both,** the larger covering the smaller. -/
theorem store (covers : h'.Covers alike h) (usable : UsableCapacity capacity)
    (usable' : UsableCapacity larger) (le : capacity ≤ larger) (same : alike a a')
    (index : UInt32) :
    (h'.store larger index a').Covers alike (h.store capacity index a) := by
  intro i b found
  by_cases own : i = index
  · subst own
    rw [store_self] at found
    cases found
    exact ⟨a', store_self .., same⟩
  · obtain ⟨apart, before⟩ := of_store_eq_some own found
    obtain ⟨b', there, same⟩ := covers i b before
    refine ⟨b', ?_, same⟩
    exact (if_neg fun rivals => apart (slotOf_eq_of_le usable usable' le rivals)).trans there

/-- A store in the one that is covered, of an index that the other has. -/
theorem store_covered (covers : h'.Covers alike h) (there : h' index = some a')
    (same : alike a a') (capacity : UInt64) : h'.Covers alike (h.store capacity index a) := by
  intro i b found
  by_cases own : i = index
  · subst own
    rw [store_self] at found
    cases found
    exact ⟨a', there, same⟩
  · exact covers i b (of_store_eq_some own found).2

/-- An index that both forget. -/
theorem forget (covers : h'.Covers alike h) (index : UInt32) :
    (h'.forget index).Covers alike (h.forget index) := by
  intro i b found
  unfold Holdings.forget at found ⊢
  by_cases own : i = index
  · subst own
    rw [Function.update_self] at found
    cases found
  · rw [Function.update_of_ne own] at found ⊢
    exact covers i b found

end Covers

end Holdings

namespace Resolver

open Attempt

variable {r r' : Resolver} {kind : SlotKind} {index i : UInt32} {slot : Nat}

/-- **An entry in its slot** is a store. -/
theorem held_withEntry_store {payload : Address kind.width} (at_slot : r.slot kind index = .ok slot)
    (full : payload ≠ .null) :
    (r.withEntry kind slot ⟨payload, index⟩).cache.held kind =
      Holdings.store (r.cache.settings.capacity kind) index payload (r.cache.held kind) := by
  funext i
  have same := (slot_eq_ok_iff.mp at_slot).2.2.2.1
  rw [held_withEntry (slot_lt_entries at_slot), ← same]
  unfold Holdings.store Entry.lookup
  rw [Address.nonNull_eq_some_iff.mpr ⟨rfl, full⟩]

end Resolver

/-! ### Stores -/

/-- A store of one kind sets an index or clears it. -/
inductive Store (kind : SlotKind) where
  | set (index : UInt32) (payload : Address kind.width)
  | clear (index : UInt32)

namespace Store

variable {kind : SlotKind}

/-- The store as an action. -/
def action : Store kind → Action
  | set index payload => .set kind index payload
  | clear index => .clear kind index

/-- **The store is accepted:** there is something to be set, only the compiler clears, method types
need method handles, and the index is one of the file's. -/
def Accepted (file : SymbolFile) (flags : HostFlags) : Store kind → Prop
  | set index payload =>
    payload ≠ .null ∧ (kind = .methodType → flags.methodHandles = true) ∧
      index < file.count kind.space
  | clear index =>
    flags.compiler = true ∧ (kind = .methodType → flags.methodHandles = true) ∧
      index < file.count kind.space

/-- What a store that is accepted does to a table with a capacity. -/
def apply (capacity : UInt64) : Store kind → Holdings kind.width → Holdings kind.width
  | set index payload, h => h.store capacity index payload
  | clear index, h => h.forget index

/-- **What a store does to a finite map,** which has no slots. -/
def note (flags : HostFlags) (map : Holdings kind.width) : Store kind → Holdings kind.width
  | set index payload =>
    if payload = .null then map else Function.update map index (some payload)
  | clear index => if flags.compiler then Function.update map index none else map

/-- A store that is refused is one of null, one by somebody who is not the compiler, or one of an
index that the file does not have. -/
theorem note_of_refused {file : SymbolFile} {flags : HostFlags} {store : Store kind}
    {map : Holdings kind.width} {i : UInt32}
    (handles : kind = .methodType → flags.methodHandles = true)
    (refused : ¬ store.Accepted file flags) (range : i < file.count kind.space) :
    note flags map store i = map i := by
  cases store with
  | set index payload =>
    rw [note]
    split
    · rfl
    · refine Function.update_of_ne ?_ _ _
      rintro rfl
      exact refused ⟨‹payload ≠ .null›, handles, range⟩
  | clear index =>
    rw [note]
    split
    · refine Function.update_of_ne ?_ _ _
      rintro rfl
      exact refused ⟨‹flags.compiler = true›, handles, range⟩
    · rfl

/-- **The finite map that stores build.** -/
def build (flags : HostFlags) (stores : List (Store kind)) : Holdings kind.width :=
  stores.foldl (note flags) fun _ => none

end Store

namespace Resolver

open Attempt

variable {r r' : Resolver} {kind : SlotKind} {index i : UInt32} {slot : Nat} {file : SymbolFile}
  {flags : HostFlags} {capacity larger : UInt64}

/-- What stores leave, one after another, also those that stop with a fault. -/
def leaveStores (r : Resolver) (stores : List (Store kind)) : Resolver :=
  stores.foldl (fun r store => left (store.action.run r)) r

/-- **A resolver at work for a file,** with a capacity for one kind and nothing pre-resolved. -/
structure Serving (r : Resolver) (kind : SlotKind) (file : SymbolFile) (flags : HostFlags)
    (capacity : UInt64) : Prop where
  laidOut : r.cache.LaidOut
  serves : r.cache.file = file
  flags : r.host.flags = flags
  capacity : r.cache.settings.capacity kind = capacity
  overlay : r.cache.overlay.offered = false

namespace Serving

theorem of_created {id : CacheId} {location : Ref} {overrides : Overrides} {c : Cache}
    (created : Cache.create id file location overrides = .ok c) (host : Host)
    (dirty : Option DirtySet) (kind : SlotKind) :
    ({ cache := c, host, dirty } : Resolver).Serving kind file host.flags
      (c.settings.capacity kind) := by
  obtain ⟨-, -, new⟩ := Cache.of_create_ok created
  refine ⟨Cache.laidOut_of_create_ok created, new.serves, rfl, rfl, ?_⟩
  show c.overlay.offered = false
  rw [new.overlay]
  rfl

theorem usable (serving : r.Serving kind file flags capacity) : UsableCapacity capacity :=
  serving.capacity ▸ serving.laidOut.usable kind

/-- **Which indices have a slot** does not depend on the capacity. -/
theorem slot_ok_iff (serving : r.Serving kind file flags capacity) :
    (∃ slot, r.slot kind index = .ok slot) ↔
      (kind = .methodType → flags.methodHandles = true) ∧ index < file.count kind.space := by
  rw [← serving.flags, ← serving.serves]
  constructor
  · rintro ⟨slot, at_slot⟩
    obtain ⟨handles, range, -⟩ := slot_eq_ok_iff.mp at_slot
    exact ⟨handles, range⟩
  · rintro ⟨handles, range⟩
    exact ⟨_, slot_of_laidOut serving.laidOut handles range⟩

/-- Lookups look into the table alone. -/
theorem get_eq_slotted (serving : r.Serving kind file flags capacity) (index : UInt32) :
    r.get kind index = r.slotted kind index :=
  Resolver.get_eq_slotted (Overlay.lookup_of_off serving.overlay _) kind

/-- **What a lookup answers.** -/
theorem get (serving : r.Serving kind file flags capacity)
    (handles : kind = .methodType → flags.methodHandles = true)
    (range : index < file.count kind.space) : r.get kind index = .ok (r.cache.held kind index) := by
  obtain ⟨slot, at_slot⟩ := serving.slot_ok_iff.mpr ⟨handles, range⟩
  rw [serving.get_eq_slotted, slotted_of_ok at_slot]

/-- **When a lookup hits.** -/
theorem get_eq_some_iff (serving : r.Serving kind file flags capacity)
    {payload : Address kind.width} :
    r.get kind index = .ok (some payload) ↔
      ((kind = .methodType → flags.methodHandles = true) ∧ index < file.count kind.space) ∧
        r.cache.held kind index = some payload := by
  rw [← serving.slot_ok_iff, serving.get_eq_slotted]
  constructor
  · exact of_slotted_ok
  · rintro ⟨⟨slot, at_slot⟩, held⟩
    rw [slotted_of_ok at_slot, held]

/-! ### One store -/

/-- A store leaves a resolver at work, also if it is refused. -/
theorem left (serving : r.Serving kind file flags capacity) (store : Store kind) :
    (left (store.action.run r)).Serving kind file flags capacity := by
  have effect := effect_run store.action r
  obtain ⟨-, file', settings⟩ := effect.kept
  have host : (Attempt.left (store.action.run r)).host.flags = r.host.flags := by
    rcases account_run store.action r with ⟨index, -, account⟩ | ⟨-, account⟩
    · exact congrArg (fun account => account.1.flags) account
    · exact congrArg (fun account => account.1.flags) account
  have overlay : (Attempt.left (store.action.run r)).cache.overlay = r.cache.overlay := by
    generalize (Attempt.left (store.action.run r)).cache = c' at effect
    cases store <;> cases effect <;> first | exact r.overlay_withEntry _ _ _ | rfl
  exact ⟨effect.laidOut serving.laidOut, file'.trans serving.serves, host.trans serving.flags,
    (congrArg (·.capacity kind) settings).trans serving.capacity, by rw [overlay, serving.overlay]⟩

/-- **A store that is accepted** changes the holdings of its table. -/
theorem held_left (serving : r.Serving kind file flags capacity) {store : Store kind}
    (accepted : store.Accepted file flags) :
    (Attempt.left (store.action.run r)).cache.held kind =
      store.apply capacity (r.cache.held kind) := by
  cases store with
  | set index payload =>
    obtain ⟨full, located⟩ := accepted
    obtain ⟨slot, at_slot⟩ := serving.slot_ok_iff.mpr located
    show (Attempt.left (Resolver.set kind index payload r)).cache.held kind = _
    rw [cache_left_set, if_neg full, at_slot]
    exact (held_withEntry_store at_slot full).trans (by rw [serving.capacity]; rfl)
  | clear index =>
    obtain ⟨compiler, located⟩ := accepted
    obtain ⟨slot, at_slot⟩ := serving.slot_ok_iff.mpr located
    have ran : ∃ r', Resolver.clear kind index r = .ok () r' := by
      rw [clear_eq, serving.flags, if_pos compiler, at_slot]
      exact ⟨_, rfl⟩
    obtain ⟨r', ran⟩ := ran
    show (Attempt.left (Resolver.clear kind index r)).cache.held kind = _
    rw [ran]
    funext i
    refine (held_clear ran i).trans ?_
    rw [Store.apply, Holdings.forget, Function.update_apply]
    exact if_congr eq_comm rfl rfl

/-- **A store that is refused** changes nothing in its table. -/
theorem held_left_of_refused (serving : r.Serving kind file flags capacity) {store : Store kind}
    (refused : ¬ store.Accepted file flags) :
    (Attempt.left (store.action.run r)).cache.held kind = r.cache.held kind := by
  cases store with
  | set index payload =>
    show (Attempt.left (Resolver.set kind index payload r)).cache.held kind = _
    rw [cache_left_set]
    split
    · rfl
    · cases at_slot : r.slot kind index with
      | error f => rfl
      | ok slot =>
        exact absurd ⟨‹payload ≠ .null›, serving.slot_ok_iff.mp ⟨slot, at_slot⟩⟩ refused
  | clear index =>
    show (Attempt.left (Resolver.clear kind index r)).cache.held kind = _
    rw [clear_eq, serving.flags]
    split
    · cases at_slot : r.slot kind index with
      | error f => rfl
      | ok slot =>
        exact absurd ⟨‹flags.compiler = true›, serving.slot_ok_iff.mp ⟨slot, at_slot⟩⟩ refused
    · rfl

end Serving

/-! ### Any number of stores -/

theorem serving_leaveStores (serving : r.Serving kind file flags capacity)
    (stores : List (Store kind)) : (r.leaveStores stores).Serving kind file flags capacity := by
  induction stores generalizing r with
  | nil => exact serving
  | cons store rest ih => exact ih (serving.left store)

/-- **A larger table covers a smaller one** that is given the same stores. -/
theorem covers_leaveStores (serving : r.Serving kind file flags capacity)
    (serving' : r'.Serving kind file flags larger) (le : capacity ≤ larger)
    (covers : Holdings.Covers Eq (r'.cache.held kind) (r.cache.held kind))
    (stores : List (Store kind)) :
    Holdings.Covers Eq ((r'.leaveStores stores).cache.held kind)
      ((r.leaveStores stores).cache.held kind) := by
  induction stores generalizing r r' with
  | nil => exact covers
  | cons store rest ih =>
    refine ih (serving.left store) (serving'.left store) ?_
    -- both accept the store or both refuse it
    by_cases accepted : store.Accepted file flags
    · rw [serving.held_left accepted, serving'.held_left accepted]
      cases store with
      | set index payload => exact covers.store serving.usable serving'.usable le rfl index
      | clear index => exact covers.forget index
    · rwa [serving.held_left_of_refused accepted, serving'.held_left_of_refused accepted]

/-- A store does to a table with a slot for every index what it does to a finite map. -/
theorem Serving.held_left_eq_note (serving : r.Serving kind file flags capacity)
    (enough : (file.count kind.space).toNat ≤ capacity.toNat)
    (handles : kind = .methodType → flags.methodHandles = true) {map : Holdings kind.width}
    (same : ∀ i, i < file.count kind.space → r.cache.held kind i = map i) (store : Store kind)
    (range : i < file.count kind.space) :
    (Attempt.left (store.action.run r)).cache.held kind i = Store.note flags map store i := by
  by_cases accepted : store.Accepted file flags
  · rw [serving.held_left accepted]
    cases store with
    | set index payload =>
      obtain ⟨full, -, there⟩ := accepted
      rw [Store.note, if_neg full]
      by_cases own : i = index
      · subst own
        rw [Function.update_self]
        exact Holdings.store_self ..
      · -- no other index has the slot
        have apart := mt (slotOf_injOn serving.usable enough range there) own
        rw [Function.update_of_ne own, ← same i range]
        exact if_neg apart
    | clear index =>
      rw [Store.note, if_pos accepted.1]
      by_cases own : i = index
      · subst own
        rw [Function.update_self]
        exact Function.update_self ..
      · rw [Function.update_of_ne own, ← same i range]
        exact Function.update_of_ne own ..
  · rw [serving.held_left_of_refused accepted, same i range,
      Store.note_of_refused handles accepted range]

/-- **A table with a slot for every index is a finite map,** the one that its stores build. -/
theorem held_leaveStores (serving : r.Serving kind file flags capacity)
    (enough : (file.count kind.space).toNat ≤ capacity.toNat)
    (handles : kind = .methodType → flags.methodHandles = true) {map : Holdings kind.width}
    (same : ∀ i, i < file.count kind.space → r.cache.held kind i = map i)
    (stores : List (Store kind)) (range : i < file.count kind.space) :
    (r.leaveStores stores).cache.held kind i = stores.foldl (Store.note flags) map i := by
  induction stores generalizing r map with
  | nil => exact same i range
  | cons store rest ih =>
    exact ih (serving.left store) fun i range =>
      serving.held_left_eq_note enough handles same store range

end Resolver

end ResolutionCache
