import ResolutionCache.Proofs.Cache.Visits
import ResolutionCache.Proofs.Resolver.Steps

/-!
# Resolvers in a transaction

The log of a host has the indices of the strings resolved, and not the slots; and slots are shared
by indices that collide. So that a rollback can undo what was resolved, every slot that was written
in the transaction has to be empty or belong to an index in the log: that is what
`Resolver.InTransaction` says. Any action of a cache that succeeds keeps it, evictions, repeated
sets, clears and passes of visitors included (`InTransaction.run`).

What clearing the logged strings leaves follows from it (`clearStrings_ok`).
-/

namespace ResolutionCache

/-- What can be done to a cache between the beginning and the end of a transaction. -/
inductive Action : Type 1 where
  | get (kind : SlotKind) (index : UInt32)
  | set (kind : SlotKind) (index : UInt32) (payload : Address kind.width)
  | clear (kind : SlotKind) (index : UInt32)
  | getCallSite (index : UInt32)
  | setCallSite (index : UInt32) (candidate : Ref)
  | setOverlay (index : UInt32) (string : Ref)
  | offerOverlay
  | withdrawOverlay
  | scan (withTables : Bool) {σ : Type} (v : Visitor 32 σ) (state : σ)

namespace Action

open Attempt

/-- The action as an operation of a resolver. -/
def run : Action → Attempt Resolver Unit
  | .get kind index => do let _ ← inspect (Resolver.get · kind index)
  | .set kind index payload => Resolver.set kind index payload
  | .clear kind index => Resolver.clear kind index
  | .getCallSite index => do let _ ← inspect (Resolver.getCallSite · index)
  | .setCallSite index candidate => do let _ ← Resolver.setCallSite index candidate
  | .setOverlay index string => Resolver.setOverlay index string
  | .offerOverlay => Resolver.offerOverlay
  | .withdrawOverlay => Resolver.withdrawOverlay
  | .scan withTables v state =>
    modify fun r => { r with cache := (r.cache.scan withTables v state).1 }

/-- The strings that the action resolves, none or one. -/
def resolved : Action → List UInt32
  | .set .string index _ => [index]
  | _ => []

end Action

namespace Resolver

open Attempt

variable {r r' : Resolver} {written : List UInt32}

/-! ### The invariant -/

/-- **A cache inside a transaction** in which the strings `written` were resolved, newest first:
its host has logged them, they have slots, and each of these slots is empty or belongs to one of
them. -/
structure InTransaction (r : Resolver) (written : List UInt32) : Prop where
  compiler : r.host.flags.compiler = true
  transaction : r.host.flags.transaction = true
  recorded : r.host.recorded r.cache.id = written
  slotted : ∀ index ∈ written, ∃ slot, r.slot .string index = .ok slot
  guarded : ∀ (slot : Nat) (e : Entry 32), r.cache.strings.entries[slot]? = some e →
    (∃ index ∈ written, r.slot .string index = .ok slot) →
    e = .vacant slot ∨ (e.owner ∈ written ∧ r.slot .string e.owner = .ok slot)

/-- The slots of strings are told by the file, the settings and the size of the table. -/
theorem slot_string_congr {r r' : Resolver} (file : r'.cache.file = r.cache.file)
    (settings : r'.cache.settings = r.cache.settings)
    (size : r'.cache.strings.entries.size = r.cache.strings.entries.size) (index : UInt32) :
    r'.slot .string index = r.slot .string index := by
  have table : (r'.cache.table .string).size = (r.cache.table .string).size := by
    rwa [DirectMap.size_entries, DirectMap.size_entries] at size
  -- the host has a say in the slots of method types only
  have always (r : Resolver) :
      ¬ (SlotKind.string = .methodType ∧ (!r.host.flags.methodHandles) = true) :=
    fun both => by cases both.1
  unfold Resolver.slot Cache.ids
  rw [if_neg (always r'), if_neg (always r), file, settings, table]

theorem entries_withEntry (r : Resolver) (slot : Nat) (e : Entry 32) :
    (r.withEntry .string slot e).cache.strings.entries =
      r.cache.strings.entries.setIfInBounds slot e :=
  DirectMap.entries_replace (Nat.le_refl 32) _ _ _

theorem slot_withEntry (r : Resolver) (slot : Nat) (e : Entry 32) (host : Host) (index : UInt32) :
    ({ r.withEntry .string slot e with host := host } : Resolver).slot .string index =
      r.slot .string index := by
  refine slot_string_congr ?_ ?_ ?_ index
  · rfl
  · rfl
  · show (r.withEntry .string slot e).cache.strings.entries.size = _
    rw [entries_withEntry, Array.size_setIfInBounds]

/-- **Whatever does not write strings** leaves a cache inside its transaction, as long as the host
has the same flags and the same entries for the cache. -/
theorem InTransaction.visited (inside : r.InTransaction written) (same : r.cache.Visited r'.cache)
    (flags : r'.host.flags = r.host.flags)
    (recorded : r'.host.recorded r.cache.id = r.host.recorded r.cache.id) :
    r'.InTransaction written := by
  have slots := slot_string_congr same.file same.settings same.strings.size_eq.symm
  constructor
  case compiler => rw [flags, inside.compiler]
  case transaction => rw [flags, inside.transaction]
  case recorded => rw [same.id, recorded, inside.recorded]
  case slotted =>
    intro index mem
    rw [slots]
    exact inside.slotted index mem
  case guarded =>
    rintro slot e' there ⟨index, mem, at_slot⟩
    rw [slots] at at_slot ⊢
    have entries := same.strings slot
    rw [there] at entries
    generalize before : r.cache.strings.entries[slot]? = x at entries
    cases entries with
    | some kept =>
      rcases inside.guarded slot _ before ⟨index, mem, at_slot⟩ with rfl | owned
      · exact .inl (kept.2 rfl)
      · rw [kept.1]
        exact .inr owned

/-- A resolved string is guarded by its own entry, and the log has it. -/
theorem InTransaction.resolve (inside : r.InTransaction written) {index : UInt32} {slot : Nat}
    (at_slot : r.slot .string index = .ok slot) (payload : Ref) :
    ({ r.withEntry .string slot ⟨payload, index⟩ with
        host := r.host.record r.cache.id index }).InTransaction (index :: written) := by
  have slots := r.slot_withEntry slot ⟨payload, index⟩ (r.host.record r.cache.id index)
  constructor
  case compiler => exact inside.compiler
  case transaction => exact inside.transaction
  case recorded =>
    show (r.host.record r.cache.id index).recorded r.cache.id = _
    rw [Host.recorded_record, if_pos rfl, inside.recorded]
    rfl
  case slotted =>
    intro other mem
    rw [slots]
    rcases List.mem_cons.mp mem with rfl | mem
    · exact ⟨slot, at_slot⟩
    · exact inside.slotted other mem
  case guarded =>
    rintro place e there ⟨other, mem, at_place⟩
    rw [slots] at at_place ⊢
    change (r.withEntry .string slot ⟨payload, index⟩).cache.strings.entries[place]? = _ at there
    rw [entries_withEntry, Array.getElem?_setIfInBounds] at there
    split at there
    · -- the slot just written belongs to the string just logged
      obtain rfl := ‹slot = place›
      split at there
      · cases there
        exact .inr ⟨List.mem_cons_self, at_slot⟩
      · cases there
    · rcases List.mem_cons.mp mem with rfl | mem
      · rw [at_slot] at at_place
        exact absurd (Except.ok.inj at_place) ‹¬ slot = place›
      · -- other slots have the guards that they had
        rcases inside.guarded place e there ⟨other, mem, at_place⟩ with vacant | ⟨owner, owned⟩
        · exact .inl vacant
        · exact .inr ⟨List.mem_cons_of_mem _ owner, owned⟩

/-- An emptied slot is guarded. -/
theorem InTransaction.vacate (inside : r.InTransaction written) (slot : Nat) :
    (r.withEntry .string slot (.vacant slot)).InTransaction written := by
  have slots : ∀ other, (r.withEntry .string slot (.vacant slot)).slot .string other = _ :=
    r.slot_withEntry slot (.vacant slot) r.host
  constructor
  case compiler => exact inside.compiler
  case transaction => exact inside.transaction
  case recorded => exact inside.recorded
  case slotted =>
    intro other mem
    rw [slots]
    exact inside.slotted other mem
  case guarded =>
    rintro place e there ⟨other, mem, at_place⟩
    rw [slots] at at_place ⊢
    rw [entries_withEntry, Array.getElem?_setIfInBounds] at there
    split at there
    · obtain rfl := ‹slot = place›
      split at there
      · cases there
        exact .inl rfl
      · cases there
    · exact inside.guarded place e there ⟨other, mem, at_place⟩

/-! ### Actions -/

/-- The resolver once a string is kept in its slot, with the log if a transaction is open. -/
def withString (r : Resolver) (slot : Nat) (index : UInt32) (payload : Ref) : Resolver :=
  { r.withEntry .string slot ⟨payload, index⟩ with
    host := if r.host.flags.transaction then r.host.record r.cache.id index else r.host }

/-- **What an action does to a cache.** If it succeeds, it either resolves a string, which is logged
if a transaction is open, or empties the slot of a string, or writes no string at all. -/
theorem run_cases {a : Action} (ran : a.run r = .ok () r') :
    (∃ index slot payload, a.resolved = [index] ∧ r.slot .string index = .ok slot ∧
      r' = (r.withString slot index payload).remembered) ∨
    (a.resolved = [] ∧ ∃ slot, r' = r.withEntry .string slot (.vacant slot)) ∨
    (a.resolved = [] ∧ r.cache.Visited r'.cache ∧ r'.host = r.host) := by
  cases a with
  | get kind index =>
    obtain ⟨_, _, asked, ran⟩ := of_bind_ok ran
    obtain ⟨-, rfl⟩ := of_inspect_ok asked
    cases ran
    exact .inr (.inr ⟨rfl, .of_strings rfl rfl rfl rfl, rfl⟩)
  | set kind index payload =>
    change Resolver.set kind index payload r = _ at ran
    rw [set_eq] at ran
    split at ran
    · cases ran
    · cases at_slot : r.slot kind index with
      | error f => rw [at_slot] at ran; cases ran
      | ok slot =>
        rw [at_slot] at ran
        cases kind with
        | string =>
          refine .inl ⟨index, slot, payload, rfl, at_slot, ?_⟩
          cases logged : recordString index (r.withEntry .string slot ⟨payload, index⟩) with
          | error f stored => simp only [if_true, logged] at ran; cases ran
          | ok _ stored =>
            simp only [if_true, logged] at ran
            cases ran
            rw [recordString_eq, host_withEntry] at logged
            unfold withString
            split at logged
            · rw [if_pos ‹_›]
              split at logged
              · cases logged
                rfl
              · cases logged
            · rw [if_neg ‹_›]
              cases logged
              rfl
        | type | methodType | field | method =>
          cases ran
          exact .inr (.inr ⟨rfl, .of_strings rfl rfl rfl rfl, rfl⟩)
  | clear kind index =>
    change Resolver.clear kind index r = _ at ran
    rw [clear_eq] at ran
    split at ran
    · cases at_slot : r.slot kind index with
      | error f => rw [at_slot] at ran; cases ran
      | ok slot =>
        rw [at_slot] at ran
        cases ran
        split
        · cases kind with
          | string => exact .inr (.inl ⟨rfl, slot, rfl⟩)
          | type | methodType | field | method =>
            exact .inr (.inr ⟨rfl, .of_strings rfl rfl rfl rfl, rfl⟩)
        · exact .inr (.inr ⟨rfl, .of_strings rfl rfl rfl rfl, rfl⟩)
    · cases ran
  | getCallSite index =>
    obtain ⟨_, _, asked, ran⟩ := of_bind_ok ran
    obtain ⟨-, rfl⟩ := of_inspect_ok asked
    cases ran
    exact .inr (.inr ⟨rfl, .of_strings rfl rfl rfl rfl, rfl⟩)
  | setCallSite index candidate =>
    obtain ⟨_, _, bound, ran⟩ := of_bind_ok ran
    cases ran
    rw [setCallSite_eq] at bound
    cases checked : r.checkCallSite index with
    | error f => rw [checked] at bound; cases bound
    | ok _ =>
      rw [checked] at bound
      cases answered : r.cache.callSites.outcome index.toNat candidate with
      | error f => rw [answered] at bound; cases bound
      | ok outcome =>
        rw [answered] at bound
        cases outcome <;> cases bound <;> exact .inr (.inr ⟨rfl, .of_strings rfl rfl rfl rfl, rfl⟩)
  | setOverlay index string =>
    obtain ⟨-, overlay, -, rfl⟩ := of_setOverlay_ok ran
    exact .inr (.inr ⟨rfl, .of_strings rfl rfl rfl rfl, rfl⟩)
  | offerOverlay =>
    obtain ⟨cache, host⟩ := of_offerOverlay_ok ran
    exact .inr (.inr ⟨rfl, by rw [cache]; exact .of_strings rfl rfl rfl rfl, host⟩)
  | withdrawOverlay =>
    cases ran
    exact .inr (.inr ⟨rfl, .of_strings rfl rfl rfl rfl, rfl⟩)
  | scan withTables v state =>
    cases ran
    exact .inr (.inr ⟨rfl, r.cache.scan_visited withTables v state, rfl⟩)

/-- No action gives a cache another identity. -/
theorem run_id {a : Action} (ran : a.run r = .ok () r') : r'.cache.id = r.cache.id := by
  rcases run_cases ran with ⟨_, _, _, -, -, rfl⟩ | ⟨-, _, rfl⟩ | ⟨-, same, -⟩
  · rfl
  · rfl
  · exact same.id

/-- No action changes the flags of the host, and its log grows by what is resolved. -/
theorem run_host {a : Action} (ran : a.run r = .ok () r') :
    r'.host.flags = r.host.flags ∧ (r.host.flags.transaction = true →
      r'.host.log = a.resolved.map (fun index => (r.cache.id, index)) ++ r.host.log) := by
  rcases run_cases ran with ⟨index, slot, payload, resolved, -, rfl⟩ | ⟨resolved, slot, rfl⟩ |
    ⟨resolved, -, host⟩
  · show (if _ then _ else _ : Host).flags = _ ∧ (_ → (if _ then _ else _ : Host).log = _)
    rw [resolved]
    split
    · exact ⟨rfl, fun _ => rfl⟩
    · exact ⟨rfl, fun inside => absurd inside ‹_›⟩
  · rw [resolved]
    exact ⟨rfl, fun _ => rfl⟩
  · rw [resolved, host]
    exact ⟨rfl, fun _ => rfl⟩

/-- **Every action of a cache keeps it inside its transaction,** with what it resolved on top. -/
theorem InTransaction.run (inside : r.InTransaction written) {a : Action}
    (ran : a.run r = .ok () r') : r'.InTransaction (a.resolved ++ written) := by
  rcases run_cases ran with ⟨index, slot, payload, resolved, at_slot, rfl⟩ | ⟨resolved, slot, rfl⟩ |
    ⟨resolved, same, host⟩
  · rw [resolved]
    have open_host : (r.withString slot index payload).host = r.host.record r.cache.id index :=
      if_pos inside.transaction
    refine (inside.resolve at_slot payload).visited (.of_strings rfl rfl rfl rfl) ?_ ?_
    · show (r.withString slot index payload).host.flags = _
      rw [open_host]
    · show (r.withString slot index payload).host.recorded _ = _
      rw [open_host]
  · rw [resolved]
    exact inside.vacate slot
  · rw [resolved]
    exact inside.visited same (by rw [host]) (by rw [host])

/-! ### Forgetting strings -/

/-- The slot of a string. -/
def stringSlot (r : Resolver) (index : UInt32) : Nat := slotOf index r.cache.settings.string

theorem stringSlot_of_ok {index : UInt32} {slot : Nat} (at_slot : r.slot .string index = .ok slot) :
    r.stringSlot index = slot :=
  (slot_eq_ok_iff.mp at_slot).2.2.2.1

/-- An entry once the strings in a list are forgotten. -/
def forgotten (r : Resolver) (strings : List UInt32) (slot : Nat) (e : Entry 32) : Entry 32 :=
  if e.owner ∈ strings ∧ r.stringSlot e.owner = slot then .vacant slot else e

@[simp] theorem forgotten_nil (r : Resolver) (slot : Nat) : r.forgotten [] slot = fun e => e := by
  funext e
  simp [forgotten]

@[simp] theorem forgotten_vacant (r : Resolver) (strings : List UInt32) (slot : Nat) :
    r.forgotten strings slot (.vacant slot) = .vacant slot := by
  unfold forgotten
  split <;> rfl

/-- Strings are forgotten one after the other. -/
theorem forgotten_cons (r : Resolver) (index : UInt32) (rest : List UInt32) (slot : Nat) :
    r.forgotten (index :: rest) slot = r.forgotten rest slot ∘ r.forgotten [index] slot := by
  funext e
  show _ = r.forgotten rest slot (r.forgotten [index] slot e)
  -- the first may empty the slot; after that there is nothing left to forget
  by_cases first : e.owner = index ∧ r.stringSlot e.owner = slot
  · have here : r.forgotten [index] slot e = .vacant slot :=
      if_pos ⟨List.mem_singleton.mpr first.1, first.2⟩
    rw [here, forgotten_vacant]
    exact if_pos ⟨List.mem_cons.mpr (.inl first.1), first.2⟩
  · have kept : r.forgotten [index] slot e = e :=
      if_neg fun both => first ⟨List.mem_singleton.mp both.1, both.2⟩
    rw [kept]
    unfold forgotten
    congr 1
    rw [eq_iff_iff, List.mem_cons]
    constructor
    · rintro ⟨owner | mem, same⟩
      · exact absurd ⟨owner, same⟩ first
      · exact ⟨mem, same⟩
    · rintro ⟨mem, same⟩
      exact ⟨.inr mem, same⟩

/-- The resolver with another table of strings. -/
def withStrings (r : Resolver) (strings : DirectMap 32) : Resolver :=
  { r with cache := { r.cache with strings } }

/-- Clearing a string forgets it. -/
theorem clear_string_ok {index : UInt32} {slot : Nat} (compiler : r.host.flags.compiler = true)
    (at_slot : r.slot .string index = .ok slot) :
    ∃ m, clear .string index r = .ok () (r.withStrings m) ∧
      ∀ place : Nat, m.entries[place]? =
        r.cache.strings.entries[place]?.map (r.forgotten [index] place) := by
  have slot_eq := stringSlot_of_ok at_slot
  have held : slot < r.cache.strings.entries.size := slot_lt_entries at_slot
  rw [clear_eq, if_pos compiler, at_slot]
  -- an index that was evicted finds a stranger in its slot and leaves it alone
  by_cases owned : r.cache.strings.entries[slot].owner = index
  · have owner : (r.cache.table .string).entries[slot]?.map Entry.owner = some index := by
      show (r.cache.strings.entries[slot]?).map Entry.owner = _
      rw [Array.getElem?_eq_getElem held, Option.map_some, owned]
    refine ⟨r.cache.strings.replace slot (.vacant slot), by simp only [owner, if_true]; rfl, ?_⟩
    intro place
    rw [DirectMap.entries_replace (Nat.le_refl 32), Array.getElem?_setIfInBounds]
    split
    · obtain rfl := ‹slot = place›
      rw [Array.getElem?_eq_getElem held, Option.map_some]
      congr 1
      symm
      refine if_pos ⟨List.mem_singleton.mpr owned, ?_⟩
      rw [owned, slot_eq]
    · have kept : r.forgotten [index] place = fun e => e := by
        funext e
        refine if_neg ?_
        rintro ⟨owner, same⟩
        rw [List.mem_singleton.mp owner, slot_eq] at same
        exact absurd same ‹¬ slot = place›
      rw [kept, Option.map_id']
  · have owner : ¬ (r.cache.table .string).entries[slot]?.map Entry.owner = some index := by
      show ¬ (r.cache.strings.entries[slot]?).map Entry.owner = _
      rw [Array.getElem?_eq_getElem held, Option.map_some, Option.some.injEq]
      exact owned
    refine ⟨r.cache.strings, by simp only [owner, if_false]; rfl, ?_⟩
    intro place
    cases there : r.cache.strings.entries[place]? with
    | none => rfl
    | some e =>
      rw [Option.map_some]
      congr 1
      symm
      refine if_neg ?_
      rintro ⟨mem, same⟩
      rw [List.mem_singleton.mp mem, slot_eq] at same
      subst same
      rw [Array.getElem?_eq_getElem held] at there
      exact owned (by rw [Option.some.inj there]; exact List.mem_singleton.mp mem)

/-- **Forgetting strings** that have slots succeeds. A slot that belongs to one of them is emptied;
nothing else changes. -/
theorem clearStrings_ok (strings : List UInt32) (compiler : r.host.flags.compiler = true)
    (slotted : ∀ index ∈ strings, ∃ slot, r.slot .string index = .ok slot) :
    ∃ m, clearStrings strings r = .ok () (r.withStrings m) ∧
      ∀ slot : Nat, m.entries[slot]? =
        r.cache.strings.entries[slot]?.map (r.forgotten strings slot) := by
  induction strings generalizing r with
  | nil =>
    refine ⟨r.cache.strings, rfl, fun slot => ?_⟩
    rw [forgotten_nil, Option.map_id']
  | cons index rest ih =>
    obtain ⟨slot, at_slot⟩ := slotted index List.mem_cons_self
    obtain ⟨m₁, cleared, first⟩ := clear_string_ok compiler at_slot
    have size : m₁.entries.size = r.cache.strings.entries.size :=
      Pointwise.size_eq (R := fun _ _ => True) fun place => by
        rw [first]
        cases r.cache.strings.entries[place]? with
        | none => exact .none
        | some e => exact .some trivial
    -- clearing moves no slot, so the rest can be cleared from here
    have slots : ∀ other, (r.withStrings m₁).slot .string other = r.slot .string other :=
      slot_string_congr rfl rfl size
    have slotted_rest : ∀ other ∈ rest,
        ∃ slot, (r.withStrings m₁).slot .string other = .ok slot := by
      intro other mem
      rw [slots]
      exact slotted other (List.mem_cons_of_mem _ mem)
    obtain ⟨m₂, ran, others⟩ := ih (r := r.withStrings m₁) compiler slotted_rest
    refine ⟨m₂, ?_, ?_⟩
    · show (clear .string index >>= fun _ => clearStrings rest) r = _
      rw [bind_ok cleared, ran]
      rfl
    · intro place
      rw [others, forgotten_cons, ← Option.map_map, ← first]
      rfl

/-- **A slot that was written in the transaction is empty** once what was written is forgotten,
whoever held it last. -/
theorem InTransaction.forgotten_written (inside : r.InTransaction written) {index : UInt32}
    {slot : Nat} (mem : index ∈ written) (at_slot : r.slot .string index = .ok slot) :
    r.cache.strings.entries[slot]?.map (r.forgotten written slot) = some (.vacant slot) := by
  have held : slot < r.cache.strings.entries.size := slot_lt_entries at_slot
  have there := Array.getElem?_eq_getElem held
  rw [there, Option.map_some]
  -- the string may have been evicted, but then by one that was logged as well
  rcases inside.guarded slot _ there ⟨index, mem, at_slot⟩ with vacant | ⟨owner, owned⟩
  · rw [vacant, forgotten_vacant]
  · rw [forgotten, if_pos ⟨owner, stringSlot_of_ok owned⟩]

/-- **A slot that was not written is not touched.** -/
theorem InTransaction.forgotten_other (inside : r.InTransaction written) {slot : Nat}
    (untouched : ∀ index ∈ written, r.slot .string index ≠ .ok slot) :
    r.cache.strings.entries[slot]?.map (r.forgotten written slot) =
      r.cache.strings.entries[slot]? := by
  have kept : r.forgotten written slot = fun e => e := by
    funext e
    refine if_neg ?_
    rintro ⟨mem, same⟩
    -- an owner that was logged has its own slot here, and that slot was written
    obtain ⟨slot', at_slot⟩ := inside.slotted e.owner mem
    rw [← stringSlot_of_ok at_slot, same] at at_slot
    exact untouched e.owner mem at_slot
  rw [kept, Option.map_id']

end Resolver

end ResolutionCache
