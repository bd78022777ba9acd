import ResolutionCache.Proofs.Attempt
import ResolutionCache.Proofs.Cache.Visits

/-!
# Passes over a table and copies of it

A pass over a table keeps the visitor's answers in the table, and writes to a slot only if its
payload has changed (`DirectMap.scan`). A copy shows the same payloads to the visitor and writes
every entry over a destination (`DirectMap.copyInto`). Both lead the visitor along the payloads that
are not null, in the order of their slots, and put its answers beside the owners of these slots:
what a copy has is what a pass would leave (`DirectMap.mapM_relocated_eq_scan`).

`DirectMap.copyOver` goes over the destination slot by slot, with the destination and the visitor's
state at hand all the time. It ends with what `DirectMap.copyInto` answers, whatever the destination
held before, and when it stops it has neither written nor shown anything (`Attempt.copyOver_eq`). So
it is for claim tables and overlays.
-/

namespace ResolutionCache

variable {σ : Type}

/-! ### Passes along a list -/

namespace Visitor

variable {w : Nat} {α β γ δ : Type}

/-- Two passes side by side, along a list and along its image: they are in the same state all the
way if each step of one is a step of the other. -/
theorem mapM_list_map (g : α → StateM σ β) (g' : γ → StateM σ δ) (h : α → γ) (h' : β → δ)
    (step : ∀ a s, g' (h a) s = (h' (g a s).1, (g a s).2)) (l : List α) (s : σ) :
    ((l.map h).mapM g' : StateM σ (List δ)) s = ((l.mapM g s).1.map h', (l.mapM g s).2) := by
  induction l generalizing s with
  | nil => rfl
  | cons a l ih => rw [List.map_cons, mapM_list_cons, mapM_list_cons, step, ih, List.map_cons]

/-- What a pass along a list leaves alone, member by member. -/
theorem map_mapM_list (g : α → StateM σ β) (h : β → γ) (h' : α → γ)
    (kept : ∀ a s, h (g a s).1 = h' a) (l : List α) (s : σ) : (l.mapM g s).1.map h = l.map h' := by
  induction l generalizing s with
  | nil => rfl
  | cons a l ih => rw [mapM_list_cons, List.map_cons, List.map_cons, kept, ih]

/-- Null addresses do not matter to the state that a visitor gets to. -/
theorem mapM_meet_state (v : Visitor w σ) (held : List (Address w)) (s : σ) :
    (held.mapM v.meet s).2 = ((held.filter (!·.isNull)).mapM v s).2 := by
  induction held generalizing s with
  | nil => rfl
  | cons a held ih =>
    rw [mapM_list_cons]
    by_cases null : a = .null
    · subst null
      exact ih s
    · rw [List.filter_cons_of_pos (by simpa [← Bool.not_eq_true] using null), mapM_list_cons,
        v.meet_of_ne null]
      exact ih _

end Visitor

/-! ### Passes over a table -/

namespace Cell

/-- What a pass leaves in a cell. -/
theorem load_scan (v : Visitor 32 σ) (c : Cell 32) (s : σ) :
    (c.scan v s).1.load = { c.load with payload := (v.meet c.load.payload s).1 } := by
  have scanned : (c.scan v s).1 =
      if (v.meet c.load.payload s).1 = c.load.payload then c
      else .ofEntry { c.load with payload := (v.meet c.load.payload s).1 } := rfl
  rw [scanned]
  split
  · -- the word is not written again, and its payload is the answer
    have same : (v.meet c.load.payload s).1 = c.load.payload := ‹_›
    rw [same]
  · exact load_ofEntry (Nat.le_refl 32) _

/-- A relocated copy of a cell is what a pass leaves in the cell. -/
theorem relocated_eq_scan (v : Visitor 32 σ) (c : Cell 32) (s : σ) :
    c.relocated v s = ((c.scan v s).1.load, (c.scan v s).2) := by
  rw [load_scan]
  rfl

end Cell

namespace DirectMap

variable {w : Nat}

/-- **A copy has what a pass leaves,** and the visitor gets to the same state. -/
theorem mapM_relocated_eq_scan (v : Visitor 32 σ) (m : DirectMap 32) (s : σ) :
    (m.cells.mapM (Cell.relocated v) : StateM σ (Array (Entry 32))) s =
      ((m.scan v s).1.entries, (m.scan v s).2) := by
  have scanned : m.scan v s =
      (⟨(m.cells.mapM (Cell.scan v) s).1⟩, (m.cells.mapM (Cell.scan v) s).2) := rfl
  have pass := Visitor.mapM_list_map (Cell.scan v) (Cell.relocated v) id Cell.load
    (Cell.relocated_eq_scan v) m.cells.toList s
  rw [List.map_id] at pass
  rw [scanned, Visitor.mapM_array_eq, pass, Visitor.mapM_array_eq]
  simp only [entries, List.map_toArray]

/-- The payloads of a copy are the visitor's answers. -/
theorem payloads_mapM_relocated (v : Visitor w σ) (m : DirectMap w) (s : σ) :
    ((m.cells.mapM (Cell.relocated v) s).1.toList.map Entry.payload,
      (m.cells.mapM (Cell.relocated v) s).2) = m.payloads.mapM v.meet s := by
  have pass := Visitor.mapM_list_map (Cell.relocated v) v.meet (fun c => c.load.payload)
    Entry.payload (fun _ _ => rfl) m.cells.toList s
  rw [Visitor.mapM_array_eq]
  simp only [payloads, entries, Array.toList_map, List.map_map]
  exact pass.symm

/-- The owners of a copy are those of the table. -/
theorem owners_mapM_relocated (v : Visitor w σ) (m : DirectMap w) (s : σ) :
    (m.cells.mapM (Cell.relocated v) s).1.map Entry.owner = m.entries.map Entry.owner := by
  have kept := Visitor.map_mapM_list (Cell.relocated v) Entry.owner (fun c => c.load.owner)
    (fun _ _ => rfl) m.cells.toList s
  rw [Visitor.mapM_array_eq, List.map_toArray, kept, entries, Array.map_map, ← Array.toList_map]
  rfl

/-- A pass over a table leads the visitor along its payloads and keeps the answers. -/
theorem payloads_scan (v : Visitor 32 σ) (m : DirectMap 32) (s : σ) :
    ((m.scan v s).1.payloads, (m.scan v s).2) = m.payloads.mapM v.meet s := by
  rw [← payloads_mapM_relocated, mapM_relocated_eq_scan]
  rfl

end DirectMap

/-- A pass over a claim table leads the visitor along its entries and keeps the answers. -/
theorem ClaimTable.entries_scan (v : Visitor 32 σ) (t : ClaimTable) (s : σ) :
    ((t.scan v s).1.entries.toList, (t.scan v s).2) = t.entries.toList.mapM v.meet s := by
  have scanned : t.scan v s = (⟨(t.entries.mapM v.meet s).1⟩, (t.entries.mapM v.meet s).2) := rfl
  rw [scanned, Visitor.mapM_array_eq]
  rfl

namespace Overlay

theorem offered_of_entries? {o : Overlay} {array : Array Ref} (found : o.entries? = some array) :
    o.offered = true ∧ o.storage = some array := by
  unfold entries? at found
  split at found
  · exact ⟨‹_›, found⟩
  · cases found

/-- A pass comes to no entry of an overlay that is off. -/
theorem scan_of_none {o : Overlay} (off : o.entries? = none) (v : Visitor 32 σ) (s : σ) :
    o.scan v s = (o, s) := by
  unfold scan
  rw [off]
  rfl

theorem scan_of_some {o : Overlay} {array : Array Ref} (on : o.entries? = some array)
    (v : Visitor 32 σ) (s : σ) :
    o.scan v s = ({ o with storage := some (v.meetAll array s).1 }, (v.meetAll array s).2) := by
  unfold scan
  rw [on]
  rfl

theorem entries?_scan_of_some {o : Overlay} {array : Array Ref} (on : o.entries? = some array)
    (v : Visitor 32 σ) (s : σ) : (o.scan v s).1.entries? = some (v.meetAll array s).1 := by
  rw [scan_of_some on]
  exact if_pos (offered_of_entries? on).1

/-- A pass over an overlay leads the visitor along its references and keeps the answers. -/
theorem references_scan (v : Visitor 32 σ) (o : Overlay) (s : σ) :
    ((o.scan v s).1.references, (o.scan v s).2) = o.references.mapM v.meet s := by
  unfold references
  cases found : o.entries? with
  | none =>
    rw [scan_of_none found, found]
    rfl
  | some array =>
    rw [entries?_scan_of_some found, scan_of_some found]
    simp only [Option.getD_some, Visitor.meetAll, Visitor.mapM_array_eq]
    rfl

end Overlay

/-! ### Copies, slot by slot -/

namespace Attempt

variable {α β : Type}

/-- Answers one address after another and writes the answers over the destination, from a slot
on. -/
def pour (relocate : α → StateM σ β) : List α → Nat → EStateM Fault (Array β × σ) Unit
  | [], _ => pure ()
  | a :: rest, slot => do
    modify fun (destination, s) => (destination.setIfInBounds slot (relocate a s).1,
      (relocate a s).2)
    pour relocate rest (slot + 1)

theorem pour_cons (relocate : α → StateM σ β) (a : α) (rest : List α) (slot : Nat)
    (destination : Array β) (s : σ) :
    pour relocate (a :: rest) slot (destination, s) =
      pour relocate rest (slot + 1)
        (destination.setIfInBounds slot (relocate a s).1, (relocate a s).2) := rfl

/-- A copy as it goes over its destination: the sizes are compared, and then one slot after another
is answered and written. -/
def copyOver (relocate : α → StateM σ β) (held : List α) : EStateM Fault (Array β × σ) Unit := do
  let (destination, _) ← MonadState.get
  require (destination.size = held.length) (.sizeMismatch destination.size held.length)
  pour relocate held 0

/-- **Slots are written one after another:** those before the first and those after the last keep
what they hold. -/
theorem pour_eq (relocate : α → StateM σ β) (held : List α) (before old rest : List β)
    (enough : old.length = held.length) (s : σ) :
    pour relocate held before.length ((before ++ old ++ rest).toArray, s) =
      .ok () ((before ++ (held.mapM relocate s).1 ++ rest).toArray, (held.mapM relocate s).2) := by
  induction held generalizing before old s with
  | nil =>
    obtain rfl := List.eq_nil_of_length_eq_zero enough
    rfl
  | cons a held ih =>
    obtain ⟨b, old, rfl⟩ := List.exists_cons_of_length_eq_add_one enough
    have written : (before ++ b :: old ++ rest).toArray.setIfInBounds before.length
        (relocate a s).1 = ((before ++ [(relocate a s).1]) ++ old ++ rest).toArray := by
      simp
    have next := ih (before ++ [(relocate a s).1]) old (Nat.succ.inj enough) (relocate a s).2
    rw [List.length_append, List.length_singleton] at next
    rw [pour_cons, written, next, Visitor.mapM_list_cons]
    simp

/-- **What a copy over a destination does.** Over one of its own size it writes all answers, and
nothing of what was there is left; any other it leaves alone, and nothing is shown. -/
theorem copyOver_eq (relocate : α → StateM σ β) (held : List α) (destination : Array β) (s : σ) :
    copyOver relocate held (destination, s) =
      if destination.size = held.length then
        .ok () ((held.mapM relocate s).1.toArray, (held.mapM relocate s).2)
      else .error (.sizeMismatch destination.size held.length) (destination, s) := by
  unfold copyOver
  rw [bind_ok (get_apply _)]
  dsimp only
  rw [require_bind]
  by_cases fits : destination.size = held.length
  · have poured := pour_eq relocate held [] destination.toList [] fits s
    simpa [fits] using poured
  · simp [fits]

/-- The result of a question about a destination and a visitor's state, as an attempt on both. -/
def onto (destination : Array β) (s : σ) :
    Except Fault (Array β × σ) → EStateM.Result Fault (Array β × σ) Unit
  | .ok copied => .ok () copied
  | .error fault => .error fault (destination, s)

theorem of_onto_error {destination : Array β} {s : σ} {copied : Except Fault (Array β × σ)}
    {fault : Fault} {after : Array β × σ}
    (stopped : onto destination s copied = .error fault after) :
    after = (destination, s) := by
  cases copied <;> cases stopped
  rfl

end Attempt

namespace DirectMap

variable {w : Nat}

/-- A relocated copy of a table, slot by slot. -/
def copyOver (m : DirectMap w) (v : Visitor w σ) : EStateM Fault (Array (Entry w) × σ) Unit :=
  Attempt.copyOver (Cell.relocated v) m.cells.toList

theorem copyOver_eq (m : DirectMap w) (v : Visitor w σ) (destination : Array (Entry w)) (s : σ) :
    m.copyOver v (destination, s) =
      if destination.size = m.size then .ok () (m.cells.mapM (Cell.relocated v) s)
      else .error (.sizeMismatch destination.size m.size) (destination, s) := by
  rw [copyOver, Attempt.copyOver_eq, Visitor.mapM_array_eq]
  rfl

/-- **Slot by slot or at once,** a copy is the same. -/
theorem copyOver_eq_copyInto (m : DirectMap w) (v : Visitor w σ) (destination : Array (Entry w))
    (s : σ) :
    m.copyOver v (destination, s) = Attempt.onto destination s (m.copyInto v destination s) := by
  rw [copyOver_eq, copyInto]
  split <;> rfl

end DirectMap

namespace ClaimTable

/-- A relocated copy of a claim table, entry by entry. -/
def copyOver (t : ClaimTable) (v : Visitor 32 σ) : EStateM Fault (Array Ref × σ) Unit :=
  Attempt.copyOver v.meet t.entries.toList

theorem copyOver_eq (t : ClaimTable) (v : Visitor 32 σ) (destination : Array Ref) (s : σ) :
    t.copyOver v (destination, s) =
      if destination.size = t.size then .ok () (v.meetAll t.entries s)
      else .error (.sizeMismatch destination.size t.size) (destination, s) := by
  rw [copyOver, Attempt.copyOver_eq, Visitor.meetAll, Visitor.mapM_array_eq]
  rfl

theorem copyOver_eq_copyInto (t : ClaimTable) (v : Visitor 32 σ) (destination : Array Ref) (s : σ) :
    t.copyOver v (destination, s) = Attempt.onto destination s (t.copyInto v destination s) := by
  rw [copyOver_eq, copyInto]
  split <;> rfl

end ClaimTable

namespace Overlay

/-- A relocated copy of an overlay, entry by entry; of one that is off there is nothing to copy. -/
def copyOver (o : Overlay) (v : Visitor 32 σ) : EStateM Fault (Array Ref × σ) Unit :=
  match o.entries? with
  | none => pure ()
  | some array => Attempt.copyOver v.meet array.toList

theorem copyOver_eq_copyInto (o : Overlay) (v : Visitor 32 σ) (destination : Array Ref) (s : σ) :
    o.copyOver v (destination, s) = Attempt.onto destination s (o.copyInto v destination s) := by
  unfold copyOver copyInto
  cases o.entries? with
  | none => rfl
  | some array => exact ClaimTable.copyOver_eq_copyInto ⟨array⟩ v destination s

end Overlay

end ResolutionCache
