import ResolutionCache.Fault
import ResolutionCache.Table.Cell

/-!
# Direct mapped tables

A fixed number of slots, each holding an entry. A store always overwrites what the slot holds, so
the last writer of a slot wins; a lookup hits only if the slot still belongs to the index asked
for. There is no chaining: an index whose slot was taken by another is simply forgotten.

The table does not know how indices are given slots, it takes the slot with the index. A slot past
the end is the fault `outOfBounds`.
-/

namespace ResolutionCache

/-- A fixed array of cells, one for each slot. -/
structure DirectMap (w : Nat) where
  /-- The cells, in slot order. -/
  cells : Array (Cell w)
  deriving DecidableEq

namespace DirectMap

variable {w : Nat} {σ : Type}

/-- The table of `size` unused slots. -/
def fresh (size : Nat) : DirectMap w :=
  ⟨Array.ofFn fun slot : Fin size => Cell.ofEntry (Entry.vacant slot)⟩

/-- The number of slots. -/
def size (m : DirectMap w) : Nat := m.cells.size

/-- Whether the table has no slot at all. -/
def isEmpty (m : DirectMap w) : Bool := m.cells.isEmpty

/-- The entries in slot order. -/
def entries (m : DirectMap w) : Array (Entry w) := m.cells.map Cell.load

/-! ### Single slots -/

/-- The entry in a slot. -/
def load (m : DirectMap w) (slot : Nat) : Except Fault (Entry w) :=
  if h : slot < m.cells.size then .ok m.cells[slot].load
  else .error (.outOfBounds m.size slot)

/-- Passes if the table has the slot. -/
def check (m : DirectMap w) (slot : Nat) : Except Fault Unit :=
  if slot < m.size then .ok () else .error (.outOfBounds m.size slot)

/-- Replaces the entry in a slot, if the table has the slot. -/
def replace (m : DirectMap w) (slot : Nat) (e : Entry w) : DirectMap w :=
  ⟨m.cells.setIfInBounds slot (Cell.ofEntry e)⟩

/-- What `index` resolved to, if its slot still belongs to it. -/
def lookup (m : DirectMap w) (slot : Nat) (index : UInt32) : Except Fault (Option (Address w)) :=
  return (← m.load slot).lookup index

/-- Gives the slot to `index`, whoever held it. -/
def put (m : DirectMap w) (slot : Nat) (index : UInt32) (payload : Address w) :
    Except Fault (DirectMap w) := do
  m.check slot
  return m.replace slot ⟨payload, index⟩

/-- Whether a slot still belongs to an index. -/
def owns (m : DirectMap w) (slot : Nat) (index : UInt32) : Except Fault Bool :=
  return (← m.load slot).owner = index

/-- Empties a slot, if the table has the slot. -/
def vacate (m : DirectMap w) (slot : Nat) : DirectMap w := m.replace slot (.vacant slot)

/-- Empties the slot if it belongs to `index`, and says whether it did. A slot that another index
has taken since is left alone. -/
def release (m : DirectMap w) (slot : Nat) (index : UInt32) :
    Except Fault (DirectMap w × Bool) := do
  let owned ← m.owns slot index
  return (if owned then m.vacate slot else m, owned)

/-- The entries that differ from an unused slot's, with their slots in ascending order. -/
def occupied (m : DirectMap w) : List (Nat × Entry w) :=
  m.entries.toList.zipIdx.filterMap fun (e, slot) =>
    if e = .vacant slot then none else some (slot, e)

/-! ### Passes over all slots -/

/-- Shows every payload to a visitor, in slot order, and keeps its answers. -/
def scan (v : Visitor w σ) (m : DirectMap w) : StateM σ (DirectMap w) :=
  return ⟨← m.cells.mapM (Cell.scan v)⟩

/-- Copies every entry over a destination of the same size, each payload replaced by the visitor's
answer. The sizes are compared before anything is shown or copied. -/
def copyInto (m : DirectMap w) (v : Visitor w σ) (destination : Array (Entry w)) (state : σ) :
    Except Fault (Array (Entry w) × σ) :=
  if destination.size = m.size then .ok (m.cells.mapM (Cell.relocated v) state)
  else .error (.sizeMismatch destination.size m.size)

/-! ### The view by entries

A fresh table holds nothing but vacant entries, replacing an entry replaces it in the view, and
loading reads the view. -/

@[simp] theorem size_entries (m : DirectMap w) : m.entries.size = m.size := by
  simp [entries, size]

@[simp] theorem size_fresh (size : Nat) : (fresh size : DirectMap w).size = size := by
  simp [fresh, DirectMap.size]

@[simp] theorem size_replace (m : DirectMap w) (slot : Nat) (e : Entry w) :
    (m.replace slot e).size = m.size := by
  simp [replace, size]

theorem entries_fresh (h : 32 ≤ w) (size : Nat) :
    (fresh size : DirectMap w).entries = Array.ofFn fun slot : Fin size => Entry.vacant slot := by
  apply Array.ext
  · simp [entries, fresh]
  · intro slot _ _
    simp [entries, fresh, h]

theorem entries_replace (h : 32 ≤ w) (m : DirectMap w) (slot : Nat) (e : Entry w) :
    (m.replace slot e).entries = m.entries.setIfInBounds slot e := by
  simp [entries, replace, Array.map_setIfInBounds, h]

theorem load_of_lt {m : DirectMap w} {slot : Nat} (h : slot < m.entries.size) :
    m.load slot = .ok m.entries[slot] := by
  have held : slot < m.cells.size := by simpa [entries] using h
  simp [load, entries, held]

end DirectMap

end ResolutionCache
