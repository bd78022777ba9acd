import ResolutionCache.Fault
import ResolutionCache.Visitor

/-!
# Claim tables

One entry for each index, without slots. An entry is null until somebody claims it; the first
claimant's reference stays for good, and later claimants are told whose it is. Only a collector
changes a claimed entry, when the object behind it moves.
-/

namespace ResolutionCache

/-- The outcome of a claim, with the reference that the entry holds from then on. -/
inductive ClaimResult where
  /-- The candidate was taken. -/
  | taken (standing : Ref)
  /-- Somebody else's reference was there first. -/
  | refused (standing : Ref)
  deriving DecidableEq

namespace ClaimResult

/-- The reference that the entry holds, whoever put it there. -/
def standing : ClaimResult → Ref
  | taken standing => standing
  | refused standing => standing

/-- Whether the candidate was taken. -/
def isTaken : ClaimResult → Bool
  | taken _ => true
  | refused _ => false

/-- The outcome in its structural form. -/
def debug : ClaimResult → String
  | taken standing => "Won(" ++ Ref.debug standing ++ ")"
  | refused standing => "Lost(" ++ Ref.debug standing ++ ")"

end ClaimResult

/-- An array of references, each claimed at most once. -/
structure ClaimTable where
  /-- The references, null where nobody has claimed. -/
  entries : Array Ref
  deriving DecidableEq

namespace ClaimTable

variable {σ : Type}

/-- The table of `size` unclaimed entries. -/
def fresh (size : Nat) : ClaimTable := ⟨Array.replicate size .null⟩

/-- The number of entries. -/
def size (t : ClaimTable) : Nat := t.entries.size

/-- Whether the table has no entry at all. -/
def isEmpty (t : ClaimTable) : Bool := t.entries.isEmpty

/-- The reference claimed for `index`, if any. -/
def lookup (t : ClaimTable) (index : Nat) : Except Fault (Option Ref) :=
  if h : index < t.entries.size then .ok t.entries[index].nonNull
  else .error (.outOfBounds t.size index)

/-- How a claim would end: the candidate is taken if the entry is unclaimed. A null candidate is
refused before the entry is looked at. -/
def outcome (t : ClaimTable) (index : Nat) (candidate : Ref) : Except Fault ClaimResult :=
  if candidate.isNull then .error .nullCandidate
  else return match ← t.lookup index with
    | none => .taken candidate
    | some held => .refused held

/-- Replaces the reference of an entry, if the table has the entry. -/
def replace (t : ClaimTable) (index : Nat) (r : Ref) : ClaimTable :=
  ⟨t.entries.setIfInBounds index r⟩

/-- Claims an entry for the candidate. From then on the entry holds the reference that stands. -/
def claim (t : ClaimTable) (index : Nat) (candidate : Ref) :
    Except Fault (ClaimResult × ClaimTable) := do
  let result ← t.outcome index candidate
  return (result, t.replace index result.standing)

@[simp] theorem size_fresh (size : Nat) : (fresh size).size = size := by
  simp [fresh, ClaimTable.size]

/-- In a fresh table every index is unclaimed. -/
theorem lookup_fresh {size index : Nat} (h : index < size) :
    (fresh size).lookup index = .ok none := by
  simp [fresh, lookup, h]

/-- Shows every claimed reference to a visitor, in index order, and keeps its answers. -/
def scan (v : Visitor 32 σ) (t : ClaimTable) : StateM σ ClaimTable :=
  return ⟨← v.meetAll t.entries⟩

/-- Copies every entry over a destination of the same size, each claimed reference replaced by the
visitor's answer. The sizes are compared before anything is shown or copied. -/
def copyInto (t : ClaimTable) (v : Visitor 32 σ) (destination : Array Ref) (state : σ) :
    Except Fault (Array Ref × σ) :=
  if destination.size = t.size then .ok (v.meetAll t.entries state)
  else .error (.sizeMismatch destination.size t.size)

end ClaimTable

end ResolutionCache
