import ResolutionCache.Proofs.Capacities
import ResolutionCache.Proofs.Resolver.Similar
import ResolutionCache.Proofs.Resolver.Steps

/-!
# What tables hold for an index

`Cache.held` is what the table of a kind has for an index, without any of the checks that a lookup
makes. A lookup in a table passes its checks or does not, and then answers what is held
(`Resolver.slotted_of_ok`). Whether it passes them never changes while symbols are set and cleared,
because the checks look at the *layout* of the cache and at the host's flags alone
(`Resolver.SameLayout`).

What is held changes in two ways. Setting a symbol takes its slot away from every index that has the
same one; clearing a symbol empties the slot only for the index that owns it, so that no other index
loses anything. With a usable capacity two indices have the same slot if they agree modulo the
capacity.
-/

namespace ResolutionCache

/-- What the table of a kind has for an index. -/
def Cache.held (c : Cache) (kind : SlotKind) (index : UInt32) : Option (Address kind.width) :=
  (c.table kind).entries[slotOf index (c.settings.capacity kind)]? >>= (·.lookup index)

/-- What is held stands in an entry that the index owns. -/
theorem Cache.mem_of_held {c : Cache} {kind : SlotKind} {index : UInt32} {a : Address kind.width}
    (held : c.held kind index = some a) :
    ∃ e ∈ (c.table kind).entries, e.owner = index ∧ e.payload = a ∧ a ≠ .null := by
  obtain ⟨e, there, found⟩ := Option.bind_eq_some_iff.mp held
  exact ⟨e, Array.mem_of_getElem? there, Entry.lookup_eq_some_iff.mp found⟩

/-- An overlay that is off answers nothing. -/
theorem Overlay.lookup_of_off {o : Overlay} (off : o.offered = false) (index : Nat) :
    o.lookup index = none := by
  simp [Overlay.lookup, Overlay.reaches, off]

namespace Resolver

open Attempt

variable {r r' : Resolver} {kind other : SlotKind} {index i : UInt32} {slot : Nat}

/-- **A lookup whose checks pass answers what is held.** -/
theorem slotted_of_ok (at_slot : r.slot kind index = .ok slot) :
    r.slotted kind index = .ok (r.cache.held kind index) := by
  have entry := Array.getElem?_eq_getElem (slot_lt_entries at_slot)
  obtain ⟨-, -, -, same, -⟩ := slot_eq_ok_iff.mp at_slot
  unfold slotted Cache.held
  rw [at_slot, same, entry]
  show (r.cache.table kind).lookup slot index = _
  unfold DirectMap.lookup
  rw [DirectMap.load_of_lt (slot_lt_entries at_slot)]
  rfl

/-- A lookup that hit or missed passed its checks. -/
theorem of_slotted_ok {found : Option (Address kind.width)}
    (answered : r.slotted kind index = .ok found) :
    (∃ slot, r.slot kind index = .ok slot) ∧ r.cache.held kind index = found := by
  cases at_slot : r.slot kind index with
  | error f =>
    unfold slotted at answered
    rw [at_slot] at answered
    cases answered
  | ok slot =>
    rw [slotted_of_ok at_slot] at answered
    exact ⟨⟨slot, rfl⟩, Except.ok.inj answered⟩

/-- While the overlay answers nothing, a lookup looks into the tables alone. -/
theorem get_eq_slotted (silent : r.cache.overlay.lookup index.toNat = none) (kind : SlotKind) :
    r.get kind index = r.slotted kind index := by
  cases kind with
  | string => rw [get_string, silent]
  | type | methodType | field | method => rfl

/-! ### Layouts -/

/-- Two states of a resolver between which no lookup starts or ceases to pass its checks. -/
structure SameLayout (r r' : Resolver) : Prop where
  file : r'.cache.file = r.cache.file
  settings : r'.cache.settings = r.cache.settings
  sizes : ∀ kind, (r'.cache.table kind).size = (r.cache.table kind).size
  flags : r'.host.flags.methodHandles = r.host.flags.methodHandles

theorem SameLayout.refl (r : Resolver) : r.SameLayout r := ⟨rfl, rfl, fun _ => rfl, rfl⟩

theorem SameLayout.trans {r'' : Resolver} (first : r.SameLayout r') (second : r'.SameLayout r'') :
    r.SameLayout r'' where
  file := second.file.trans first.file
  settings := second.settings.trans first.settings
  sizes kind := (second.sizes kind).trans (first.sizes kind)
  flags := second.flags.trans first.flags

theorem SameLayout.slot_eq (same : r.SameLayout r') (kind : SlotKind) (index : UInt32) :
    r'.slot kind index = r.slot kind index := by
  unfold Resolver.slot Cache.ids
  rw [same.file, same.settings, same.flags, same.sizes]

/-- A lookup answers as before if its checks end as before and the same is held. -/
theorem SameLayout.slotted_eq (same : r.SameLayout r')
    (held : r'.cache.held kind index = r.cache.held kind index) :
    r'.slotted kind index = r.slotted kind index := by
  cases at_slot : r.slot kind index with
  | error f =>
    unfold slotted
    rw [same.slot_eq, at_slot]
    rfl
  | ok slot =>
    rw [slotted_of_ok at_slot, ← held]
    exact slotted_of_ok ((same.slot_eq kind index).trans at_slot)

theorem sameLayout_withEntry (r : Resolver) (kind : SlotKind) (slot : Nat)
    (e : Entry kind.width) : r.SameLayout (r.withEntry kind slot e) where
  file := by cases kind <;> rfl
  settings := by cases kind <;> rfl
  flags := rfl
  sizes other := by
    show ((r.cache.mapTable kind (·.replace slot e)).table other).size = _
    by_cases same : other = kind
    · subst same
      rw [Cache.table_mapTable, DirectMap.size_replace]
    · rw [Cache.table_mapTable_of_ne _ _ same]

/-! ### One entry replaced -/

theorem settings_withEntry (r : Resolver) (kind : SlotKind) (slot : Nat) (e : Entry kind.width) :
    (r.withEntry kind slot e).cache.settings = r.cache.settings :=
  (r.sameLayout_withEntry kind slot e).settings

theorem overlay_withEntry (r : Resolver) (kind : SlotKind) (slot : Nat) (e : Entry kind.width) :
    (r.withEntry kind slot e).cache.overlay = r.cache.overlay := by
  cases kind <;> rfl

/-- An entry answers for the indices of its slot; the others find what they found before. -/
theorem held_withEntry (held : slot < (r.cache.table kind).entries.size) (e : Entry kind.width)
    (index : UInt32) :
    (r.withEntry kind slot e).cache.held kind index =
      if slotOf index (r.cache.settings.capacity kind) = slot then e.lookup index
      else r.cache.held kind index := by
  unfold Cache.held
  rw [settings_withEntry]
  show ((r.cache.mapTable kind (·.replace slot e)).table kind).entries[_]? >>= _ = _
  rw [Cache.table_mapTable, DirectMap.entries_replace kind.wide, Array.getElem?_setIfInBounds,
    if_pos held]
  by_cases here : slotOf index (r.cache.settings.capacity kind) = slot
  · rw [if_pos here, if_pos here.symm]
    rfl
  · rw [if_neg here, if_neg (Ne.symm here)]

theorem held_withEntry_of_ne (ne : other ≠ kind) (slot : Nat) (e : Entry kind.width)
    (index : UInt32) :
    (r.withEntry kind slot e).cache.held other index = r.cache.held other index := by
  unfold Cache.held
  rw [settings_withEntry]
  show ((r.cache.mapTable kind (·.replace slot e)).table other).entries[_]? >>= _ = _
  rw [Cache.table_mapTable_of_ne _ _ ne]

/-! ### Setting and clearing -/

/-- **A symbol that was set** is in its slot; the host has logged it if it is a string and a
transaction is open. -/
theorem of_set_ok {payload : Address kind.width} (ran : set kind index payload r = .ok () r') :
    payload ≠ .null ∧ ∃ slot, r.slot kind index = .ok slot ∧
      r'.cache = (r.withEntry kind slot ⟨payload, index⟩).cache ∧
      r'.host = if kind = .string ∧ r.host.flags.transaction = true then
        r.host.record r.cache.id index else r.host := by
  rw [set_eq] at ran
  split at ran
  · cases ran
  · refine ⟨fun null => ‹¬ payload.isNull = true› ((Address.isNull_iff payload).mpr null), ?_⟩
    cases at_slot : r.slot kind index with
    | error f => rw [at_slot] at ran; cases ran
    | ok slot =>
      rw [at_slot] at ran
      refine ⟨slot, rfl, ?_⟩
      by_cases string : kind = .string
      · subst string
        simp only [if_true] at ran
        rw [recordString_eq, host_withEntry] at ran
        by_cases inside : r.host.flags.transaction = true
        · rw [if_pos inside] at ran
          cases compiler : r.host.flags.compiler with
          | false => simp [compiler] at ran
          | true =>
            simp only [compiler, if_true] at ran
            cases ran
            exact ⟨rfl, by rw [if_pos ⟨rfl, inside⟩]; rfl⟩
        · rw [if_neg inside] at ran
          cases ran
          exact ⟨rfl, by rw [if_neg fun both => inside both.2]; rfl⟩
      · simp only [string, if_false] at ran
        cases ran
        exact ⟨rfl, by rw [if_neg fun both => string both.1]; rfl⟩

/-- **A symbol that was cleared** is not in its slot any more. -/
theorem of_clear_ok (ran : clear kind index r = .ok () r') :
    r.host.flags.compiler = true ∧ ∃ slot, r.slot kind index = .ok slot ∧
      r' = if (r.cache.table kind).entries[slot]?.map Entry.owner = some index then
        r.withEntry kind slot (.vacant slot) else r := by
  rw [clear_eq] at ran
  split at ran
  · refine ⟨‹_›, ?_⟩
    cases at_slot : r.slot kind index with
    | error f => rw [at_slot] at ran; cases ran
    | ok slot =>
      rw [at_slot] at ran
      cases ran
      exact ⟨slot, rfl, rfl⟩
  · cases ran

/-- Claiming a call site changes the call sites alone. -/
theorem of_setCallSite_ok {candidate standing : Ref}
    (ran : setCallSite index candidate r = .ok standing r') :
    ∃ callSites, r'.cache = { r.cache with callSites } ∧ r'.host = r.host := by
  rw [setCallSite_eq] at ran
  cases checked : r.checkCallSite index with
  | error f => rw [checked] at ran; cases ran
  | ok _ =>
    rw [checked] at ran
    cases answered : r.cache.callSites.outcome index.toNat candidate with
    | error f => rw [answered] at ran; cases ran
    | ok outcome =>
      rw [answered] at ran
      cases outcome <;> cases ran <;> exact ⟨_, rfl, rfl⟩

/-- **Setting a symbol** makes its slot answer for it and for no other index. -/
theorem held_set {payload : Address kind.width} (ran : set kind index payload r = .ok () r')
    (i : UInt32) :
    r'.cache.held kind i =
      if slotOf i (r.cache.settings.capacity kind) = slotOf index (r.cache.settings.capacity kind)
      then if index = i then some payload else none
      else r.cache.held kind i := by
  obtain ⟨full, slot, at_slot, cache, -⟩ := of_set_ok ran
  have same := (slot_eq_ok_iff.mp at_slot).2.2.2.1
  rw [cache, held_withEntry (slot_lt_entries at_slot), same]
  congr 1
  unfold Entry.lookup
  rw [Address.nonNull_eq_some_iff.mpr ⟨rfl, full⟩]

/-- **Clearing a symbol** makes it unknown. Every other index finds what it found before, also one
that has the same slot. -/
theorem held_clear (ran : clear kind index r = .ok () r') (i : UInt32) :
    r'.cache.held kind i = if index = i then none else r.cache.held kind i := by
  obtain ⟨-, slot, at_slot, rfl⟩ := of_clear_ok ran
  have held := slot_lt_entries at_slot
  have entry := Array.getElem?_eq_getElem held
  have same := (slot_eq_ok_iff.mp at_slot).2.2.2.1
  simp only [entry, Option.map_some, Option.some.injEq]
  -- what an index finds in the slot, if it has this slot
  have found (here : slotOf i (r.cache.settings.capacity kind) = slot) :
      r.cache.held kind i = (r.cache.table kind).entries[slot].lookup i := by
    unfold Cache.held
    rw [here, entry]
    rfl
  by_cases owns : (r.cache.table kind).entries[slot].owner = index
  · rw [if_pos owns, held_withEntry held, Entry.lookup_vacant]
    by_cases here : slotOf i (r.cache.settings.capacity kind) = slot
    · rw [if_pos here, found here]
      split
      · rfl
      · -- the slot belongs to the index cleared, so another one found nothing in it
        symm
        exact if_neg (by rwa [owns])
    · rw [if_neg here, if_neg]
      rintro rfl
      exact here same
  · rw [if_neg owns]
    split
    · subst ‹index = i›
      rw [found same]
      exact if_neg owns
    · rfl

end Resolver

end ResolutionCache
