import ResolutionCache.Proofs.Resolver.Effects
import ResolutionCache.Proofs.Resolver.Preconditions
import ResolutionCache.Proofs.Resolver.Recorded

/-!
# Forgetting strings

What a cache forgets on the compiler depends on the cache and the strings alone, whatever else the
host is and has (`Resolver.left_clearStrings`): `Cache.cleared` is what is left, also if one of the
strings could not be forgotten. If the file has all of them, their order and repetitions make no
difference (`Cache.cleared_congr`). For an index that is forgotten empties its slot only while the
slot is its own, and then no other index owns it.
-/

namespace ResolutionCache

open Attempt

/-- What is left of a cache on the compiler that was made to forget strings, one after another. -/
def Cache.cleared (c : Cache) (strings : List UInt32) : Cache :=
  (left (Resolver.clearStrings strings { cache := c, host := .ofCompiler, dirty := none })).cache

namespace Resolver

variable {r r' : Resolver} {index : UInt32} {strings strings' : List UInt32}

/-! ### On any compiler -/

/-- Both work on the same cache, and both or neither are the compiler. -/
structure SameCache (r r' : Resolver) : Prop where
  cache : r.cache = r'.cache
  compiler : r.host.flags.compiler = r'.host.flags.compiler

theorem SameCache.clear (same : r.SameCache r') (index : UInt32) :
    Agree SameCache (fun _ _ => True) (clear .string index r) (clear .string index r') := by
  obtain ⟨cache, compiler⟩ := id same
  have slots : r.slot .string index = r'.slot .string index := by
    refine slot_string_congr ?_ ?_ ?_ index <;> rw [cache]
  rw [clear_eq, clear_eq, compiler, slots, cache]
  split
  · cases r'.slot .string index with
    | error f => exact .error f same
    | ok slot =>
      refine .ok trivial ?_
      split
      · exact ⟨congrArg (·.mapTable .string (·.replace slot (.vacant slot))) cache, compiler⟩
      · exact same
  · exact .error Fault.notCompiler same

theorem SameCache.clearStrings (same : r.SameCache r') (strings : List UInt32) :
    Agree SameCache (fun _ _ => True) (clearStrings strings r) (clearStrings strings r') := by
  induction strings generalizing r r' with
  | nil => exact .ok trivial same
  | cons index rest ih => exact (same.clear index).bind fun _ _ _ _ _ same => ih same

/-- **What forgetting strings leaves** is told by the cache: the host and the dirty set stay. -/
theorem left_clearStrings (compiler : r.host.flags.compiler = true) (strings : List UInt32) :
    left (clearStrings strings r) = { r with cache := r.cache.cleared strings } := by
  have same : r.SameCache { cache := r.cache, host := .ofCompiler, dirty := none } :=
    ⟨rfl, compiler⟩
  have cache : (left (Resolver.clearStrings strings r)).cache = r.cache.cleared strings :=
    (same.clearStrings strings).left.cache
  have host : (left (Resolver.clearStrings strings r)).host = r.host :=
    congrArg Prod.fst (keeps_clearStrings strings r)
  have dirty : (left (Resolver.clearStrings strings r)).dirty = r.dirty :=
    keeps_dirty_clearStrings strings r
  rw [← cache, ← host, ← dirty]

end Resolver

/-! ### Strings of the file -/

namespace Cache

variable {c : Cache} {strings strings' : List UInt32}

/-- **Strings of the file are forgotten slot by slot.** A slot that belongs to one of them is
emptied; the other slots, and all the rest of the cache, stay. -/
theorem exists_cleared_eq (laidOut : c.LaidOut)
    (range : ∀ index ∈ strings, index < c.file.strings) :
    ∃ table, c.cleared strings = { c with strings := table } ∧ ∀ slot : Nat,
      table.entries[slot]? = c.strings.entries[slot]?.map fun e =>
        if e.owner ∈ strings ∧ slotOf e.owner c.settings.string = slot then .vacant slot else e := by
  let r : Resolver := { cache := c, host := .ofCompiler, dirty := none }
  obtain ⟨table, ran, entries⟩ := Resolver.clearStrings_ok (r := r) strings rfl
    fun index mem => ⟨_, r.slot_of_laidOut laidOut nofun (range index mem)⟩
  refine ⟨table, ?_, entries⟩
  unfold cleared
  rw [ran]
  rfl

/-- **The order of strings of the file makes no difference,** nor do repetitions. -/
theorem cleared_congr (laidOut : c.LaidOut) (range : ∀ index ∈ strings, index < c.file.strings)
    (same : ∀ index, index ∈ strings ↔ index ∈ strings') :
    c.cleared strings = c.cleared strings' := by
  obtain ⟨table, left, entries⟩ := exists_cleared_eq laidOut range
  obtain ⟨table', left', entries'⟩ := exists_cleared_eq laidOut fun index mem =>
    range index ((same index).mpr mem)
  have one : table = table' := by
    refine DirectMap.eq_of_entries (Array.ext_getElem? fun slot => ?_)
    simp only [entries, entries', same]
  rw [left, left', one]

/-- Forgetting strings gives the cache no other identity. -/
theorem id_cleared (c : Cache) (strings : List UInt32) : (c.cleared strings).id = c.id :=
  congrArg Prod.snd (Resolver.keeps_clearStrings strings ⟨c, .ofCompiler, none⟩)

end Cache

end ResolutionCache
