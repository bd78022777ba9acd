import ResolutionCache.Proofs.Cache.Similar

/-!
# What any visitor leaves alone

A visitor may answer whatever it likes and carry a state that its answers depend on. Even so a pass
over a table keeps every owner, and it keeps an entry whose payload is null, for it is never shown
(`DirectMap.scan_visited`). In the place of any other reference it puts what the visitor answered,
in some state (`Cache.scan_met`); for a call site that state is known
(`Cache.getElem?_callSites_scan`).
-/

namespace ResolutionCache

/-- An entry before and after a pass: the owner stays, and without a payload everything stays. -/
def Entry.Visited {w : Nat} (e e' : Entry w) : Prop :=
  e'.owner = e.owner ∧ (e.payload = .null → e' = e)

theorem Entry.Visited.refl {w : Nat} (e : Entry w) : e.Visited e := ⟨rfl, fun _ => rfl⟩

variable {σ : Type}

namespace Visitor

variable {α β : Type}

/-- A pass along a list takes every member through the visitor once, in the state that those before
it led to. -/
theorem getElem?_mapM_list (g : α → StateM σ β) (l : List α) (s : σ) (i : Nat) :
    (l.mapM g s).1[i]? =
      l[i]?.map fun a => (g a ((l.take i).foldl (fun s a => (g a s).2) s)).1 := by
  induction l generalizing s i with
  | nil => rfl
  | cons a l ih =>
    rw [mapM_list_cons]
    cases i with
    | zero => rfl
    | succ i => exact ih _ i

/-- A pass along an array takes every member through the visitor once, in the state that those
before it led to. -/
theorem getElem?_mapM_array (g : α → StateM σ β) (xs : Array α) (s : σ) (i : Nat) :
    (xs.mapM g s).1[i]? =
      xs[i]?.map fun a => (g a ((xs.toList.take i).foldl (fun s a => (g a s).2) s)).1 := by
  rw [mapM_array_eq, List.getElem?_toArray, getElem?_mapM_list, Array.getElem?_toList]

/-- A pass along an array takes every member through the visitor once, from some state. -/
theorem pointwise_mapM (g : α → StateM σ β) (xs : Array α) (s : σ) :
    Pointwise (fun a b => ∃ s, b = (g a s).1) xs (xs.mapM g s).1 := by
  intro i
  rw [getElem?_mapM_array]
  cases xs[i]? with
  | none => exact .none
  | some a => exact .some ⟨_, rfl⟩

end Visitor

theorem Visitor.meet_of_ne {w : Nat} (v : Visitor w σ) {a : Address w} (full : a ≠ .null) :
    v.meet a = v a := by
  unfold Visitor.meet
  rw [if_neg (mt (Address.isNull_iff a).mp full)]

/-- What the visitor answers an address, in some state. -/
def Visitor.Answers {w : Nat} (v : Visitor w σ) (a b : Address w) : Prop :=
  ∃ s, b = (v.meet a s).1

/-- A null address is not shown, so it stays null. -/
theorem Visitor.Answers.null {w : Nat} {v : Visitor w σ} {b : Address w}
    (answer : v.Answers .null b) : b = .null := by
  obtain ⟨s, rfl⟩ := answer
  rfl

theorem Visitor.Answers.full_left {w : Nat} {v : Visitor w σ} {a b : Address w}
    (answer : v.Answers a b) (full : b ≠ .null) : a ≠ .null := by
  rintro rfl
  exact full answer.null

/-- Counting does not change what is answered. -/
theorem Visitor.meet_counting {w : Nat} (v : Visitor w σ) (a : Address w) (s : σ × Nat) :
    (v.counting.meet a s).1 = (v.meet a s.1).1 := by
  unfold Visitor.meet
  split <;> rfl

theorem Visitor.Answers.of_counting {w : Nat} {v : Visitor w σ} {a b : Address w}
    (answer : v.counting.Answers a b) : v.Answers a b := by
  obtain ⟨s, rfl⟩ := answer
  exact ⟨s.1, v.meet_counting a s⟩

/-- An entry before and after a visitor met it. -/
def Entry.Met {w : Nat} (v : Visitor w σ) (e e' : Entry w) : Prop :=
  e'.owner = e.owner ∧ v.Answers e.payload e'.payload

theorem Entry.Met.visited {w : Nat} {v : Visitor w σ} {e e' : Entry w} (met : e.Met v e') :
    e.Visited e' := by
  obtain ⟨payload, owner⟩ := e
  obtain ⟨payload', owner'⟩ := e'
  obtain ⟨rfl, answer⟩ := met
  refine ⟨rfl, fun empty => ?_⟩
  obtain rfl : payload = .null := empty
  obtain rfl : payload' = .null := answer.null
  rfl

/-- One cell under a visitor. -/
theorem Cell.scan_met (v : Visitor 32 σ) (c : Cell 32) (s : σ) :
    c.load.Met v (c.scan v s).1.load := by
  have scanned : (Cell.scan v c s).1 =
      if (v.meet c.load.payload s).1 = c.load.payload then c
      else .ofEntry { c.load with payload := (v.meet c.load.payload s).1 } := rfl
  rw [scanned]
  split
  · have same : (v.meet c.load.payload s).1 = c.load.payload := ‹_›
    exact ⟨rfl, s, same.symm⟩
  · rw [load_ofEntry (Nat.le_refl 32)]
    exact ⟨rfl, s, rfl⟩

/-- **What any pass over a table does to it:** each entry has met the visitor, in some state. -/
theorem DirectMap.scan_met (v : Visitor 32 σ) (m : DirectMap 32) (s : σ) :
    Pointwise (Entry.Met v) m.entries (m.scan v s).1.entries := by
  intro slot
  have scanned : (m.scan v s).1 = ⟨(m.cells.mapM (Cell.scan v) s).1⟩ := rfl
  have at_slot := Visitor.pointwise_mapM (Cell.scan v) m.cells s slot
  rw [scanned]
  simp only [entries, Array.getElem?_map]
  generalize m.cells[slot]? = x at at_slot
  generalize (m.cells.mapM (Cell.scan v) s).1[slot]? = y at at_slot
  cases at_slot with
  | none => exact .none
  | some shown =>
    obtain ⟨s, rfl⟩ := shown
    exact .some (Cell.scan_met v _ s)

/-- **What any pass over a table leaves alone.** -/
theorem DirectMap.scan_visited (v : Visitor 32 σ) (m : DirectMap 32) (s : σ) :
    Pointwise Entry.Visited m.entries (m.scan v s).1.entries :=
  (m.scan_met v s).mono fun _ _ met => met.visited

/-- What any pass over a cache leaves alone: all but references, and in the table of strings the
owners and the entries without a string. -/
structure Cache.Visited (c c' : Cache) : Prop where
  id : c'.id = c.id
  file : c'.file = c.file
  settings : c'.settings = c.settings
  strings : Pointwise Entry.Visited c.strings.entries c'.strings.entries

theorem Cache.Visited.of_strings {c c' : Cache} (id : c'.id = c.id) (file : c'.file = c.file)
    (settings : c'.settings = c.settings) (strings : c'.strings = c.strings) : c.Visited c' :=
  ⟨id, file, settings, strings ▸ Pointwise.refl fun e _ => .refl e⟩

theorem Cache.scan_visited (withTables : Bool) (v : Visitor 32 σ) (c : Cache) (s : σ) :
    c.Visited (c.scan withTables v s).1 := by
  cases withTables with
  | true => exact ⟨rfl, rfl, rfl, DirectMap.scan_visited v.counting c.strings _⟩
  | false => exact .of_strings rfl rfl rfl rfl

/-! ### Every place that a pass comes to -/

/-- **What a pass over all roots of a cache does:** it keeps everything but references, and puts the
visitor's answers in their places. -/
structure Cache.Met (v : Visitor 32 σ) (c c' : Cache) : Prop where
  kept : c' = { c with
    location := c'.location
    strings := c'.strings
    types := c'.types
    methodTypes := c'.methodTypes
    callSites := c'.callSites
    overlay := { c.overlay with storage := c'.overlay.storage } }
  strings : Pointwise (Entry.Met v) c.strings.entries c'.strings.entries
  types : Pointwise (Entry.Met v) c.types.entries c'.types.entries
  methodTypes : Pointwise (Entry.Met v) c.methodTypes.entries c'.methodTypes.entries
  callSites : Pointwise v.Answers c.callSites.entries c'.callSites.entries
  overlay : Pointwise v.Answers (c.overlay.entries?.getD #[]) (c'.overlay.entries?.getD #[])

theorem ClaimTable.scan_met (v : Visitor 32 σ) (t : ClaimTable) (s : σ) :
    Pointwise v.Answers t.entries (t.scan v s).1.entries :=
  Visitor.pointwise_mapM v.meet t.entries s

/-- A pass comes to the entries of an overlay only while it is on. -/
theorem Overlay.scan_met (v : Visitor 32 σ) (o : Overlay) (s : σ) :
    (o.scan v s).1 = { o with storage := (o.scan v s).1.storage } ∧
      Pointwise v.Answers (o.entries?.getD #[]) ((o.scan v s).1.entries?.getD #[]) := by
  unfold Overlay.scan
  cases found : o.entries? with
  | none =>
    refine ⟨rfl, ?_⟩
    show Pointwise v.Answers #[] (o.entries?.getD #[])
    rw [found]
    exact fun _ => .none
  | some array =>
    refine ⟨rfl, ?_⟩
    have offered : o.offered = true := by
      unfold entries? at found
      split at found
      case isTrue on => exact on
      case isFalse => cases found
    have entries : Overlay.entries? { o with storage := some (array.mapM v.meet s).1 } =
        some (array.mapM v.meet s).1 := if_pos offered
    show Pointwise v.Answers array
      ((Overlay.entries? { o with storage := some (array.mapM v.meet s).1 }).getD #[])
    rw [entries]
    exact Visitor.pointwise_mapM v.meet array s

theorem Cache.scan_met (v : Visitor 32 σ) (c : Cache) (s : σ) : c.Met v (c.scan true v s).1 := by
  have entries (m : DirectMap 32) (s : σ × Nat) :
      Pointwise (Entry.Met v) m.entries (m.scan v.counting s).1.entries :=
    (m.scan_met v.counting s).mono fun _ _ met => ⟨met.1, met.2.of_counting⟩
  have references {xs ys : Array Ref} (met : Pointwise v.counting.Answers xs ys) :
      Pointwise v.Answers xs ys := met.mono fun _ _ answer => answer.of_counting
  show c.Met v (c.scanWith true v.counting (s, 0)).1
  rw [scanWith_eq]
  dsimp only
  constructor
  case kept =>
    dsimp only
    rw [← (c.overlay.scan_met v.counting _).1]
  case strings => exact entries c.strings _
  case types => exact entries c.types _
  case methodTypes => exact entries c.methodTypes _
  case callSites => exact references (c.callSites.scan_met v.counting _)
  case overlay => exact references (c.overlay.scan_met v.counting _).2

/-! ### What a call site is answered -/

/-- The last state of any pass over a table. -/
theorem DirectMap.scan_state (v : Visitor 32 σ) (m : DirectMap 32) (s : σ) :
    (m.scan v s).2 = v.after s m.payloads := by
  have pass := Visitor.mapM_array_state (Cell.scan v) m.cells s
  have scanned : (m.scan v s).2 = (m.cells.mapM (Cell.scan v) s).2 := rfl
  rw [scanned, pass]
  simp only [payloads, entries, Visitor.after, Array.toList_map, List.foldl_map, List.map_map]
  rfl

/-- The references that a pass comes to before it comes to the call site of an index. -/
def Cache.shownBefore (c : Cache) (index : Nat) : List Ref :=
  c.location :: (c.referenceTables.flatMap DirectMap.payloads ++
    c.callSites.entries.toList.take index)

/-- **What a pass puts in the place of a call site:** the visitor's answer to it, in the state that
the references shown before it led to. -/
theorem Cache.getElem?_callSites_scan (v : Visitor 32 σ) (c : Cache) (s : σ) (index : Nat) :
    (c.scan true v s).1.callSites.entries[index]? =
      c.callSites.entries[index]?.map fun a => (v.meet a (v.after s (c.shownBefore index))).1 := by
  have scanned : (c.scan true v s).1 = (c.scanWith true v.counting (s, 0)).1 := rfl
  rw [scanned, scanWith_eq]
  simp only [DirectMap.scan_state]
  refine (Visitor.getElem?_mapM_array _ _ _ _).trans ?_
  congr 1
  funext a
  rw [Visitor.meet_counting]
  congr 2
  rw [← Visitor.after_counting v s 0 (c.shownBefore index)]
  simp only [Visitor.after, shownBefore, referenceTables, List.flatMap_cons, List.flatMap_nil,
    List.append_nil, List.foldl_cons, List.foldl_append]

end ResolutionCache
