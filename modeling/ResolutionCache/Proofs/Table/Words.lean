import Mathlib.Logic.ExistsUnique
import ResolutionCache.Proofs.Attempt
import ResolutionCache.Table.DirectMap

/-!
# The words of a table

A cell packs an entry into one word: the payload below, the index above, and nothing else
(`Cell.word_ofEntry`). Bit by bit (`Cell.getLsbD_ofEntry`) the two halves do not overlap, so an
entry comes back whole, and a word is the packing of an entry exactly if it is clear above the index
(`Cell.exists_ofEntry_iff`). For references there is nothing above the index, so every word is an
entry; for native records the top 32 bits have to be zero.

As both halves are read and replaced at once, a slot always holds the whole entry of one store, the
last one that was made to it (`DirectMap.load_leaveAccesses`). `Cell.words_lose_nothing` puts this
together.
-/

namespace ResolutionCache

namespace Cell

variable {w : Nat} {c : Cell w}

/-- The index is moved past the payload, which is as wide as half the word. -/
theorem word_ofEntry (e : Entry w) :
    (ofEntry e).word =
      e.owner.toBitVec.setWidth (w + w) <<< w ||| e.payload.bits.setWidth (w + w) := by
  ext i hi
  by_cases low : i < w
  · simp [ofEntry, BitVec.getElem_append, low]
  · -- above the payload, whose bits are all zero here
    have zero : e.payload.bits.getLsbD i = false :=
      BitVec.getLsbD_of_ge _ _ (Nat.le_of_not_lt low)
    simp [ofEntry, BitVec.getElem_append, low, zero]

/-- The lower half of the bits are the payload's, the others are the owner's. -/
theorem getLsbD_ofEntry (wide : 32 ≤ w) (e : Entry w) (i : Nat) :
    (ofEntry e).word.getLsbD i =
      if i < w then e.payload.bits.getLsbD i else e.owner.toBitVec.getLsbD (i - w) := by
  simp only [ofEntry, BitVec.getLsbD_append, BitVec.getLsbD_setWidth]
  split
  · rfl
  · by_cases inside : i - w < w
    · simp [inside]
    · -- past the word, and so past the owner
      have beyond : 32 ≤ i - w := by omega
      simp [inside, BitVec.getLsbD_of_ge _ _ beyond]

/-- **The word is clear above the index.** -/
def Clear (c : Cell w) : Prop := ∀ i, w + 32 ≤ i → c.word.getLsbD i = false

theorem clear_ofEntry (wide : 32 ≤ w) (e : Entry w) : (ofEntry e).Clear := by
  intro i above
  have past : ¬ i < w := by omega
  have beyond : 32 ≤ i - w := by omega
  rw [getLsbD_ofEntry wide, if_neg past, BitVec.getLsbD_of_ge _ _ beyond]

/-- With references, the index ends where the word ends. -/
theorem clear_of_refs (c : Cell 32) : c.Clear := fun i above => c.word.getLsbD_of_ge i above

theorem ofEntry_load_of_clear (wide : 32 ≤ w) (clear : c.Clear) : ofEntry c.load = c := by
  refine congrArg mk (BitVec.eq_of_getLsbD_eq (y := c.word) fun i _ => ?_)
  show (ofEntry c.load).word.getLsbD i = _
  rw [getLsbD_ofEntry wide]
  simp only [load, BitVec.getLsbD_setWidth, BitVec.getLsbD_ushiftRight]
  split
  · simp [*]
  · have back : w + (i - w) = i := by omega
    by_cases owner : i - w < 32
    · simp [owner, back]
    · have above : w + 32 ≤ i := by omega
      simp [owner, clear i above]

/-- Every word of twice the width of an index is an entry. -/
@[simp] theorem ofEntry_load (c : Cell 32) : ofEntry c.load = c :=
  ofEntry_load_of_clear (Nat.le_refl 32) c.clear_of_refs

/-- **The words that are entries** are those clear above the index. -/
theorem exists_ofEntry_iff (wide : 32 ≤ w) : (∃ e, ofEntry e = c) ↔ c.Clear := by
  constructor
  · rintro ⟨e, rfl⟩
    exact clear_ofEntry wide e
  · intro clear
    exact ⟨c.load, ofEntry_load_of_clear wide clear⟩

end Cell

/-! ### Stores and loads one after another -/

/-- One access to a table of entries. -/
inductive Access (w : Nat) where
  | store (slot : Nat) (e : Entry w)
  | load (slot : Nat)

namespace Access

variable {w : Nat}

/-- The access as an attempt on the table, with the entry that a load reads. A slot past the end
stops it. -/
def run : Access w → Attempt (DirectMap w) (Option (Entry w))
  | store slot e => do
    set (← Attempt.inspect (·.put slot e.owner e.payload))
    return none
  | load slot => return some (← Attempt.inspect (·.load slot))

/-- The table that the access leaves, whether it ends or stops. -/
def leave (a : Access w) (m : DirectMap w) : DirectMap w := Attempt.left (a.run m)

/-- The access stores nothing in the slot. -/
def Spares (slot : Nat) (a : Access w) : Prop := ∀ e, a ≠ store slot e

theorem leave_load (slot : Nat) (m : DirectMap w) : (load slot).leave m = m := by
  have keeps : Attempt.Keeps id (load slot : Access w).run :=
    (Attempt.keeps_inspect _).bind fun _ => Attempt.keeps_pure _
  exact keeps m

/-- A store past the end leaves the table as it is, like the replacement itself. -/
theorem leave_store (slot : Nat) (e : Entry w) (m : DirectMap w) :
    (store slot e).leave m = m.replace slot e := by
  let put (m : DirectMap w) := m.put slot e.owner e.payload
  by_cases held : slot < m.size
  · have stored : put m = .ok (m.replace slot e) := by
      simp only [put, DirectMap.put, DirectMap.check, if_pos held]
      rfl
    exact congrArg Attempt.left (Attempt.bind_ok (Attempt.inspect_ok stored))
  · have refused : put m = .error (.outOfBounds m.size slot) := by
      simp only [put, DirectMap.put, DirectMap.check, if_neg held]
      rfl
    have same : m.cells.setIfInBounds slot (Cell.ofEntry e) = m.cells :=
      Array.setIfInBounds_eq_of_size_le (Nat.le_of_not_lt held)
    calc (store slot e).leave m
        = m := congrArg Attempt.left (Attempt.bind_error (Attempt.inspect_error refused))
      _ = m.replace slot e := congrArg DirectMap.mk same.symm

end Access

namespace DirectMap

variable {w : Nat} {m : DirectMap w} {slot : Nat} {e : Entry w}

/-- The table that accesses leave, made one after another. -/
def leaveAccesses (m : DirectMap w) (accesses : List (Access w)) : DirectMap w :=
  accesses.foldl (fun m a => a.leave m) m

theorem load_eq_ok_iff : m.load slot = .ok e ↔ m.entries[slot]? = some e := by
  by_cases held : slot < m.entries.size
  · rw [load_of_lt held, Array.getElem?_eq_getElem held, Except.ok.injEq, Option.some.injEq]
  · have past : ¬ slot < m.cells.size := by simpa [entries] using held
    simp [load, past, Array.getElem?_eq_none (Nat.le_of_not_lt held)]

/-- **A table is what its entries are,** if the words are as wide as entries. -/
theorem eq_of_entries {m m' : DirectMap 32} (same : m.entries = m'.entries) : m = m' := by
  have repacked (m : DirectMap 32) : m = ⟨m.entries.map Cell.ofEntry⟩ := by
    simp [entries, Function.comp_def]
  rw [repacked m, repacked m', same]

/-- One access changes what a slot holds only by a store to it. -/
theorem load_leave (wide : 32 ≤ w) (a : Access w) (held : slot < m.size) :
    (a.leave m).load slot = .ok e ↔
      a = .store slot e ∨ (a.Spares slot ∧ m.load slot = .ok e) := by
  cases a with
  | load slot' =>
    rw [Access.leave_load]
    simp [Access.Spares]
  | store slot' e' =>
    rw [Access.leave_store, load_eq_ok_iff, entries_replace wide, Array.getElem?_setIfInBounds,
      load_eq_ok_iff]
    by_cases same : slot' = slot
    · subst same
      simp [Access.Spares, held]
    · simp [Access.Spares, same]

@[simp] theorem size_leave (a : Access w) (m : DirectMap w) : (a.leave m).size = m.size := by
  cases a with
  | load slot => rw [Access.leave_load]
  | store slot e => rw [Access.leave_store, size_replace]

@[simp] theorem size_leaveAccesses (m : DirectMap w) (accesses : List (Access w)) :
    (m.leaveAccesses accesses).size = m.size := by
  induction accesses generalizing m with
  | nil => rfl
  | cons a rest ih => exact (ih (a.leave m)).trans (size_leave a m)

/-- **The last store to a slot is what a load reads,** payload and owner, or what the slot held
before if there was none. -/
theorem load_leaveAccesses (wide : 32 ≤ w) (accesses : List (Access w)) (held : slot < m.size) :
    (m.leaveAccesses accesses).load slot = .ok e ↔
      Attempt.LastOf (.store slot e) (Access.Spares slot) accesses ∨
      ((∀ a ∈ accesses, a.Spares slot) ∧ m.load slot = .ok e) :=
  Attempt.foldl_lastOf (I := fun m : DirectMap w => slot < m.size)
    (P := fun m : DirectMap w => m.load slot = .ok e) held
    fun a _ m held => ⟨by rwa [size_leave], load_leave wide a held⟩

end DirectMap

/-- **The words of a table lose nothing.**
- A reference and an index are packed into 64 bits, the index above, and unpacking gives both back.
  Every word of 64 bits is the packing of exactly one pair.
- A pointer and an index are packed into 128 bits in the same way, and unpacking gives both back. A
  word of 128 bits is the packing of a pair exactly if it is clear from bit 96 on, and then packing
  what was unpacked gives the word again.
- After any stores and loads, in whatever slots and some of them past the end, a load of a slot
  reads the payload and the index of one and the same store, the last one to that slot. It reads
  what the slot held at first if there was none. -/
theorem words_lose_nothing :
    (∀ e : Entry 32,
      (Cell.ofEntry e).word = e.owner.toBitVec.setWidth 64 <<< 32 ||| e.payload.bits.setWidth 64 ∧
      (Cell.ofEntry e).load = e) ∧
    (∀ c : Cell 32, ∃! e, Cell.ofEntry e = c) ∧
    (∀ e : Entry 64,
      (Cell.ofEntry e).word = e.owner.toBitVec.setWidth 128 <<< 64 ||| e.payload.bits.setWidth 128 ∧
      (Cell.ofEntry e).load = e) ∧
    (∀ c : Cell 64,
      ((∃ e, Cell.ofEntry e = c) ↔ ∀ i, 96 ≤ i → c.word.getLsbD i = false) ∧
      ((∀ i, 96 ≤ i → c.word.getLsbD i = false) → Cell.ofEntry c.load = c)) ∧
    ∀ w, 32 ≤ w → ∀ (m : DirectMap w) (accesses : List (Access w)) (slot : Nat), slot < m.size →
      (∃ e, (m.leaveAccesses accesses).load slot = .ok e) ∧
      ∀ e, (m.leaveAccesses accesses).load slot = .ok e ↔
        Attempt.LastOf (.store slot e) (Access.Spares slot) accesses ∨
        ((∀ a ∈ accesses, a.Spares slot) ∧ m.load slot = .ok e) := by
  refine ⟨fun e => ⟨Cell.word_ofEntry e, Cell.load_ofEntry (by decide) e⟩, fun c => ?_,
    fun e => ⟨Cell.word_ofEntry e, Cell.load_ofEntry (by decide) e⟩,
    fun c => ⟨Cell.exists_ofEntry_iff (by decide), Cell.ofEntry_load_of_clear (by decide)⟩, ?_⟩
  · refine ⟨c.load, Cell.ofEntry_load c, ?_⟩
    rintro e rfl
    exact (Cell.load_ofEntry (by decide) e).symm
  · intro w wide m accesses slot held
    have inside : slot < (m.leaveAccesses accesses).entries.size := by
      rwa [DirectMap.size_entries, DirectMap.size_leaveAccesses]
    exact ⟨⟨_, DirectMap.load_of_lt inside⟩,
      fun e => DirectMap.load_leaveAccesses wide accesses held⟩

/-- The greatest pointer with the greatest index, then another pair in the same slot. The stores
that follow go to another slot and past the end. -/
def overwrites : List (Access 64) :=
  [.store 0 ⟨⟨18446744073709551615⟩, 4294967295⟩, .load 0, .store 0 ⟨⟨9223372036854775808⟩, 2⟩,
    .store 1 ⟨⟨5⟩, 1⟩, .load 0, .store 2 ⟨⟨7⟩, 4⟩]

theorem words_lose_nothing_overwritten :
    (32 ≤ 64 ∧ 0 < (DirectMap.fresh 2 : DirectMap 64).size ∧
      ((DirectMap.fresh 2).leaveAccesses overwrites).load 0 = .ok ⟨⟨9223372036854775808⟩, 2⟩) ∧
    (∀ i, 96 ≤ i → (0xFFFFFFFFFFFFFFFFFFFFFFFF : BitVec 128).getLsbD i = false) ∧
      Cell.ofEntry (Cell.load ⟨0xFFFFFFFFFFFFFFFFFFFFFFFF⟩ : Entry 64) =
        ⟨0xFFFFFFFFFFFFFFFFFFFFFFFF⟩ := by
  obtain ⟨-, -, -, image, last⟩ := words_lose_nothing
  have held : 0 < (DirectMap.fresh 2 : DirectMap 64).size := by decide
  obtain ⟨same, back⟩ := image ⟨0xFFFFFFFFFFFFFFFFFFFFFFFF⟩
  have clear := same.mp ⟨⟨⟨18446744073709551615⟩, 4294967295⟩, by decide⟩
  refine ⟨⟨by decide, held, ?_⟩, clear, back clear⟩
  refine ((last 64 (by decide) _ overwrites 0 held).2 _).mpr (.inl ?_)
  exact ⟨overwrites.take 2, overwrites.drop 3, rfl, by simp [overwrites, Access.Spares]⟩

/-- A bit above the index belongs to no entry, and is lost. -/
example : Cell.ofEntry (Cell.load ⟨1 <<< 96⟩ : Entry 64) = ⟨0⟩ := by decide

end ResolutionCache
