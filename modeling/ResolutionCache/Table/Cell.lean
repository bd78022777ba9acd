import ResolutionCache.Table.Entry
import ResolutionCache.Visitor

/-!
# Cells

An entry is read and replaced as one unit, so that no reader can see the payload of one index
beside the number of another. To that end both halves share one machine word: the payload is the
low half, the owner, widened to the payload's width, the high half. For references the word has 64
bits and every word is an entry; for native records it has 128 bits and the topmost 32 stay zero.

`Cell.load_ofEntry` says that nothing is lost on the way.
-/

namespace ResolutionCache

/-- One slot of a direct mapped table: an entry packed into a word. -/
structure Cell (w : Nat) where
  /-- The owner in the high half, the payload in the low half. -/
  word : BitVec (w + w)
  deriving DecidableEq

namespace Cell

variable {w : Nat} {σ : Type}

/-- Packs an entry. -/
def ofEntry (e : Entry w) : Cell w := ⟨e.owner.toBitVec.setWidth w ++ e.payload.bits⟩

/-- Unpacks the entry. -/
def load (c : Cell w) : Entry w where
  payload := ⟨c.word.setWidth w⟩
  owner := ⟨(c.word >>> w).setWidth 32⟩

/-- Shows the payload to a visitor. The cell is stored again only if the visitor changed the
payload, and the owner stays. -/
def scan (v : Visitor w σ) (c : Cell w) : StateM σ (Cell w) := do
  let e := c.load
  let kept ← v.meet e.payload
  return if kept = e.payload then c else ofEntry { e with payload := kept }

/-- A copy of the entry with its payload replaced by what the visitor answers. -/
def relocated (v : Visitor w σ) (c : Cell w) : StateM σ (Entry w) := do
  let e := c.load
  return { e with payload := ← v.meet e.payload }

/-- **Nothing is lost.** A cell whose payload is at least as wide as an index gives back the entry
that was put into it. -/
@[simp] theorem load_ofEntry (h : 32 ≤ w) (e : Entry w) : (ofEntry e).load = e := by
  obtain ⟨⟨payload⟩, owner⟩ := e
  simp only [ofEntry, load, Entry.mk.injEq, Address.mk.injEq]
  constructor
  · ext i hi
    simp [BitVec.getLsbD_append, hi]
  · apply UInt32.toBitVec_inj.mp
    ext i hi
    have fits : i < w := by omega
    have high : ¬ w + i < w := by omega
    simp [BitVec.getElem_append, fits, high, hi]

end Cell

end ResolutionCache
