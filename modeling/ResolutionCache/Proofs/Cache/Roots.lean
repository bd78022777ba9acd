import ResolutionCache.Cache
import ResolutionCache.Proofs.Table.Words

/-!
# The roots of a cache

A pass of a visitor over a cache is a walk along a list, the references that the cache keeps
(`Cache.references`), null ones included. What a visitor that answers by a function leaves behind
is the cache with the function applied to every reference that is not null (`Cache.sent`), and its
last state is what it gets to along that list (`Cache.scan_sent`, `Cache.scan_state`).

Owners, native records and a withdrawn overlay are no business of a visitor. `Cache.roots` are the
references that it is really shown.
-/

namespace ResolutionCache

/-! ### Visitors along lists -/

/-- The address in whose place the rule puts another one; null stays null. -/
def Address.sent {w : Nat} (f : Address w → Address w) (a : Address w) : Address w :=
  if a.isNull then a else f a

@[simp] theorem Address.sent_null {w : Nat} (f : Address w → Address w) :
    (null : Address w).sent f = null := by
  simp [Address.sent]

theorem Address.sent_of_ne {w : Nat} {f : Address w → Address w} {a : Address w} (ne : a ≠ null) :
    a.sent f = f a := by
  simp [Address.sent, ne]

/-- The rule that leaves everything where it is. -/
@[simp] theorem Address.sent_id {w : Nat} :
    Address.sent (fun a : Address w => a) = fun a => a := by
  funext a
  unfold Address.sent
  split <;> rfl

namespace Visitor

variable {w : Nat} {α β σ : Type}

/-- Whatever its state, the visitor answers by the function. -/
def AnswersBy (v : Visitor w σ) (f : Address w → Address w) : Prop := ∀ a s, (v a s).1 = f a

/-- The state of a visitor once it has met the addresses of a list, in order. -/
def after (v : Visitor w σ) (s : σ) (met : List (Address w)) : σ :=
  met.foldl (fun s a => (v.meet a s).2) s

theorem mapM_list_cons (g : α → StateM σ β) (a : α) (l : List α) (s : σ) :
    (List.mapM g (a :: l) : StateM σ (List β)) s =
      ((g a s).1 :: (List.mapM g l (g a s).2).1, (List.mapM g l (g a s).2).2) := by
  rw [List.mapM_cons]
  rfl

/-- A pass along an array is one along its list. -/
theorem mapM_array_eq (g : α → StateM σ β) (xs : Array α) (s : σ) :
    (xs.mapM g : StateM σ (Array β)) s =
      ((xs.toList.mapM g s).1.toArray, (xs.toList.mapM g s).2) := by
  rw [Array.mapM_eq_mapM_toList]
  rfl

/-- The last state of a pass along a list. -/
theorem mapM_list_state (g : α → StateM σ β) (l : List α) (s : σ) :
    (l.mapM g s).2 = l.foldl (fun s a => (g a s).2) s := by
  induction l generalizing s with
  | nil => rfl
  | cons a l ih =>
    rw [mapM_list_cons, ih]
    rfl

/-- The last state of a pass along an array. -/
theorem mapM_array_state (g : α → StateM σ β) (xs : Array α) (s : σ) :
    (xs.mapM g s).2 = xs.toList.foldl (fun s a => (g a s).2) s := by
  rw [mapM_array_eq, mapM_list_state]

/-- A pass along a list whose answers do not depend on the state. -/
theorem mapM_list {g : α → StateM σ β} {f : α → β} (answers : ∀ a s, (g a s).1 = f a)
    (l : List α) (s : σ) :
    (l.mapM g : StateM σ (List β)) s = (l.map f, l.foldl (fun s a => (g a s).2) s) := by
  rw [← mapM_list_state g l s]
  refine Prod.ext ?_ rfl
  induction l generalizing s with
  | nil => rfl
  | cons a l ih =>
    rw [mapM_list_cons, answers]
    exact congrArg (f a :: ·) (ih _)

/-- A pass along an array whose answers do not depend on the state. -/
theorem mapM_array {g : α → StateM σ β} {f : α → β} (answers : ∀ a s, (g a s).1 = f a)
    (xs : Array α) (s : σ) :
    (xs.mapM g : StateM σ (Array β)) s =
      (xs.map f, xs.toList.foldl (fun s a => (g a s).2) s) := by
  rw [mapM_array_eq, mapM_list answers, ← Array.toList_map, Array.toArray_toList]

variable {v : Visitor w σ} {f : Address w → Address w}

theorem AnswersBy.meet (answers : v.AnswersBy f) (a : Address w) (s : σ) :
    (v.meet a s).1 = a.sent f := by
  unfold Visitor.meet Address.sent
  split
  · rfl
  · exact answers a s

theorem AnswersBy.meetAll (answers : v.AnswersBy f) (held : Array (Address w)) (s : σ) :
    v.meetAll held s = (held.map (Address.sent f), v.after s held.toList) :=
  mapM_array answers.meet held s

/-- Counting does not change what a visitor answers. -/
theorem AnswersBy.counting (answers : v.AnswersBy f) : v.counting.AnswersBy f :=
  fun a s => answers a s.1

/-- Counting does not disturb the state of the visitor that is wrapped. -/
theorem after_counting (v : Visitor w σ) (s : σ) (n : Nat) (met : List (Address w)) :
    (v.counting.after (s, n) met).1 = v.after s met := by
  induction met generalizing s n with
  | nil => rfl
  | cons a met ih =>
    have step : (v.counting.meet a (s, n)).2.1 = (v.meet a s).2 := by
      unfold Visitor.meet
      split <;> rfl
    calc (v.counting.after (s, n) (a :: met)).1
        = (v.counting.after ((v.counting.meet a (s, n)).2.1, (v.counting.meet a (s, n)).2.2)
            met).1 := rfl
      _ = v.after (v.meet a s).2 met := by rw [ih, step]

end Visitor

/-! ### Passes over the parts of a cache -/

/-- The entry with its payload sent by a rule. -/
def Entry.sent {w : Nat} (f : Address w → Address w) (e : Entry w) : Entry w :=
  { e with payload := e.payload.sent f }

namespace DirectMap

variable {σ : Type} {v : Visitor 32 σ} {f : Ref → Ref}

/-- The payloads in slot order. -/
def payloads {w : Nat} (m : DirectMap w) : List (Address w) := m.entries.toList.map Entry.payload

/-- The table with every payload sent by a rule. -/
def sent (f : Ref → Ref) (m : DirectMap 32) : DirectMap 32 :=
  ⟨m.cells.map fun c => .ofEntry (c.load.sent f)⟩

@[simp] theorem entries_sent (f : Ref → Ref) (m : DirectMap 32) :
    (m.sent f).entries = m.entries.map (Entry.sent f) := by
  simp [sent, entries]

theorem scan_sent (answers : v.AnswersBy f) (m : DirectMap 32) (s : σ) :
    m.scan v s = (m.sent f, v.after s m.payloads) := by
  have cell : ∀ (c : Cell 32) (s : σ), (Cell.scan v c s).1 = .ofEntry (c.load.sent f) := by
    intro c s
    have kept := answers.meet c.load.payload s
    have scanned : (Cell.scan v c s).1 =
        if (v.meet c.load.payload s).1 = c.load.payload then c
        else .ofEntry { c.load with payload := (v.meet c.load.payload s).1 } := rfl
    rw [scanned, kept]
    split
    · -- an answer that changes nothing leaves the word alone, and the word is its entry
      have same : c.load.sent f = c.load := by simp [Entry.sent, *]
      rw [same, Cell.ofEntry_load]
    · rfl
  have pass := Visitor.mapM_array cell m.cells s
  have scanned : m.scan v s =
      (⟨(m.cells.mapM (Cell.scan v) s).1⟩, (m.cells.mapM (Cell.scan v) s).2) :=
    rfl
  rw [scanned, pass]
  simp only [sent, payloads, entries, Visitor.after, Array.toList_map, List.foldl_map,
    List.map_map]
  rfl

end DirectMap

namespace ClaimTable

variable {σ : Type} {v : Visitor 32 σ} {f : Ref → Ref}

/-- The table with every claimed reference sent by a rule. -/
def sent (f : Ref → Ref) (t : ClaimTable) : ClaimTable := ⟨t.entries.map (Address.sent f)⟩

theorem scan_sent (answers : v.AnswersBy f) (t : ClaimTable) (s : σ) :
    t.scan v s = (t.sent f, v.after s t.entries.toList) := by
  have scanned : t.scan v s = (⟨(v.meetAll t.entries s).1⟩, (v.meetAll t.entries s).2) := rfl
  rw [scanned, answers.meetAll]
  rfl

end ClaimTable

namespace Overlay

variable {σ : Type} {v : Visitor 32 σ} {f : Ref → Ref}

/-- The references that a pass finds in the overlay: none unless it is offered. -/
def references (o : Overlay) : List Ref := (o.entries?.getD #[]).toList

/-- The overlay with every reference of an offered array sent by a rule. -/
def sent (f : Ref → Ref) (o : Overlay) : Overlay :=
  match o.entries? with
  | none => o
  | some array => { o with storage := some (array.map (Address.sent f)) }

theorem scan_sent (answers : v.AnswersBy f) (o : Overlay) (s : σ) :
    o.scan v s = (o.sent f, v.after s o.references) := by
  unfold scan sent references
  cases o.entries? with
  | none => rfl
  | some array =>
    have scanned : (do return { o with storage := some (← v.meetAll array) } : StateM σ Overlay) s =
        ({ o with storage := some (v.meetAll array s).1 }, (v.meetAll array s).2) := rfl
    simp only [Option.getD_some]
    rw [scanned, answers.meetAll]

end Overlay

/-! ### Passes over a cache -/

namespace Cache

variable {σ : Type} {v : Visitor 32 σ} {f : Ref → Ref}

/-- The tables whose payloads are references. -/
def referenceTables (c : Cache) : List (DirectMap 32) := [c.strings, c.types, c.methodTypes]

/-- **The references that a cache keeps,** in the order in which a pass comes to them: the location,
the payloads of the tables of references, the call sites, and the overlay if it is offered. Null
references are among them. -/
def references (c : Cache) : List Ref :=
  c.location :: (c.referenceTables.flatMap DirectMap.payloads
    ++ c.callSites.entries.toList ++ c.overlay.references)

/-- **The roots of a cache,** the references that it keeps and that are not null. -/
def roots (c : Cache) : List Ref := c.references.filter (!·.isNull)

/-- The cache with every root sent by a rule. -/
def sent (f : Ref → Ref) (c : Cache) : Cache :=
  { c with
    location := c.location.sent f
    strings := c.strings.sent f
    types := c.types.sent f
    methodTypes := c.methodTypes.sent f
    callSites := c.callSites.sent f
    overlay := c.overlay.sent f }

theorem mem_roots {c : Cache} {r : Ref} : r ∈ c.roots ↔ r ∈ c.references ∧ r ≠ .null := by
  simp [roots, ← Address.isNull_iff]

section

variable {c : Cache} {r : Ref}

theorem location_mem : c.location ∈ c.references := List.mem_cons_self

theorem payload_mem {m : DirectMap 32} (held : m ∈ c.referenceTables) {e : Entry 32}
    (mem : e ∈ m.entries) : e.payload ∈ c.references := by
  have shown : e.payload ∈ m.payloads := List.mem_map_of_mem (Array.mem_toList_iff.mpr mem)
  simp only [references, List.mem_cons, List.mem_append, List.mem_flatMap]
  exact .inr (.inl (.inl ⟨m, held, shown⟩))

theorem callSite_mem (mem : r ∈ c.callSites.entries) : r ∈ c.references := by
  simp [references, mem]

theorem overlay_mem (mem : r ∈ c.overlay.entries?.getD #[]) : r ∈ c.references := by
  simp [references, Overlay.references, mem]

end

/-! ### New caches -/

/-- **A new cache:** every table is fresh, and the overlay is off. -/
structure New (c : Cache) (file : SymbolFile) (location : Ref) : Prop where
  serves : c.file = file
  placed : c.location = location
  tables : ∀ kind,
    c.table kind = .fresh (slotCount (c.settings.capacity kind) (file.count kind.space))
  callSites : c.callSites = .fresh file.callSites.toNat
  overlay : c.overlay = .ofSize file.strings.toNat

section

variable {c : Cache} {id : CacheId} {file : SymbolFile} {location : Ref} {overrides : Overrides}

/-- A cache is created if its capacities can be used. -/
theorem of_create_ok (created : create id file location overrides = .ok c) :
    Settings.ofOverrides overrides = .ok c.settings ∧ c.id = id ∧ c.New file location := by
  unfold create at created
  cases accepted : Settings.ofOverrides overrides with
  | error bad => rw [accepted] at created; cases created
  | ok settings =>
    rw [accepted] at created
    cases created
    exact ⟨rfl, rfl, rfl, rfl, fun kind => by cases kind <;> rfl, rfl, rfl⟩

/-- No cache is created if they cannot. -/
theorem create_eq_error_iff {bad : BadCapacity} :
    create id file location overrides = .error bad ↔
      Settings.ofOverrides overrides = .error bad := by
  unfold create
  cases Settings.ofOverrides overrides with
  | error other =>
    show Except.error other = _ ↔ _
    simp only [Except.error.injEq]
  | ok settings => exact iff_of_false nofun nofun

/-- A fresh table holds nothing. -/
theorem payload_fresh {w size : Nat} (wide : 32 ≤ w) {e : Entry w}
    (mem : e ∈ (DirectMap.fresh size : DirectMap w).entries) : e.payload = .null := by
  rw [DirectMap.entries_fresh wide] at mem
  obtain ⟨slot, rfl⟩ := Array.mem_ofFn.mp mem
  rfl

/-- **A new cache holds its location and nothing else.** -/
theorem New.roots (new : c.New file location) : c.roots = [location].filter (!·.isNull) := by
  -- the tables, the call sites and the overlay have nothing but nulls to show
  have vacant (m : DirectMap 32) (table : ∃ size, m = .fresh size) :
      m.payloads.filter (!·.isNull) = [] := by
    obtain ⟨size, rfl⟩ := table
    rw [List.filter_eq_nil_iff]
    intro r mem
    obtain ⟨e, held, rfl⟩ := List.mem_map.mp mem
    simp [payload_fresh (Nat.le_refl 32) (Array.mem_toList_iff.mp held)]
  have callSites : c.callSites.entries.toList.filter (!·.isNull) = [] := by
    rw [new.callSites, List.filter_eq_nil_iff]
    intro r mem
    simp only [ClaimTable.fresh, Array.mem_toList_iff, Array.mem_replicate] at mem
    simp [mem.2]
  have overlay : c.overlay.references = [] := by
    rw [new.overlay]
    rfl
  rw [Cache.roots, references, new.placed, overlay, ← List.singleton_append]
  simp only [referenceTables, List.flatMap_cons, List.flatMap_nil, List.filter_append, callSites,
    vacant c.strings ⟨_, new.tables .string⟩, vacant c.types ⟨_, new.tables .type⟩,
    vacant c.methodTypes ⟨_, new.tables .methodType⟩, List.append_nil]

theorem New.eq_location (new : c.New file location) {r : Ref} (root : r ∈ c.roots) :
    r = location := by
  rw [new.roots] at root
  exact List.mem_singleton.mp (List.mem_filter.mp root).1

end

/-- A pass over all roots, part by part. -/
theorem scanWith_eq (v : Visitor 32 σ) (c : Cache) (s : σ) :
    c.scanWith true v s =
      let location := v.meet c.location s
      let strings := c.strings.scan v location.2
      let types := c.types.scan v strings.2
      let methodTypes := c.methodTypes.scan v types.2
      let callSites := c.callSites.scan v methodTypes.2
      let overlay := c.overlay.scan v callSites.2
      ({ c with
          location := location.1
          strings := strings.1
          types := types.1
          methodTypes := methodTypes.1
          callSites := callSites.1
          overlay := overlay.1 }, overlay.2) := rfl

theorem scanWith_sent (answers : v.AnswersBy f) (c : Cache) (s : σ) :
    c.scanWith true v s = (c.sent f, v.after s c.references) := by
  rw [scanWith_eq]
  simp only [answers.meet, DirectMap.scan_sent answers, ClaimTable.scan_sent answers,
    Overlay.scan_sent answers, references]
  rw [Prod.mk.injEq]
  refine ⟨rfl, ?_⟩
  simp only [Visitor.after, referenceTables, List.flatMap_cons, List.flatMap_nil, List.append_nil,
    List.foldl_cons, List.foldl_append]

/-- **What a visitor that answers by a function leaves behind.** -/
theorem scan_sent (answers : v.AnswersBy f) (c : Cache) (s : σ) :
    (c.scan true v s).1 = c.sent f := by
  simp only [scan, scanWith_sent answers.counting]

/-- **The last state of a visitor that answers by a function.** -/
theorem scan_state (answers : v.AnswersBy f) (c : Cache) (s : σ) :
    (c.scan true v s).2.2 = v.after s c.references := by
  simp only [scan, scanWith_sent answers.counting, Visitor.after_counting]

end Cache

end ResolutionCache
