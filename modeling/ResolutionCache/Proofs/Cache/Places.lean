import ResolutionCache.Proofs.Table.Passes

/-!
# The places where a cache keeps references

A cache keeps references at *places*: its location, the slots of its tables of references, its call
sites, and the entries of its overlay while that is on (`Cache.kept?`). A pass comes to the places
in a fixed order, each with what is kept there (`Cache.places`). Null references apart, these are
shown to the visitor one after another, and its answers are kept where they were asked for. So a
pass is a walk of the visitor along the places that hold something (`Cache.rooted`), however its
answers depend on its state: that is what decides its last state (`Cache.scan_walk`), what is kept
afterwards (`Cache.kept?_scan_of_answered`, `Cache.kept?_scan_of_unasked`) and how many changes are
counted.

What a cache is beside the references at its places is its `Cache.blank`: the owners of its slots,
its native records, an overlay that is off, and so on. A pass leaves it alone (`Cache.blank_scan`).
Blank and places together are the whole cache (`Cache.eq_of_blank`).
-/

namespace ResolutionCache

/-! ### Walks -/

namespace Visitor

variable {w : Nat} {κ σ : Type}

/-- Leads a visitor along addresses, each at a place, and notes its answers with the places. -/
def walk (v : Visitor w σ) (held : List (κ × Address w)) : StateM σ (List (κ × Address w)) :=
  held.mapM fun entry => return (entry.1, ← v entry.2)

/-- The places at which something is held. -/
def full (held : List (κ × Address w)) : List (κ × Address w) := held.filter (!·.2.isNull)

variable {v : Visitor w σ} {held : List (κ × Address w)} {place : κ} {a : Address w} {s : σ}

theorem mem_full : (place, a) ∈ full held ↔ (place, a) ∈ held ∧ a ≠ .null := by
  simp [full, ← Address.isNull_iff]

theorem full_cons_null (place : κ) (rest : List (κ × Address w)) :
    full ((place, .null) :: rest) = full rest := rfl

theorem full_cons_of_ne (ne : a ≠ .null) (place : κ) (rest : List (κ × Address w)) :
    full ((place, a) :: rest) = (place, a) :: full rest :=
  List.filter_cons_of_pos (by simpa [← Bool.not_eq_true] using ne)

theorem walk_cons (v : Visitor w σ) (place : κ) (a : Address w) (rest : List (κ × Address w))
    (s : σ) :
    v.walk ((place, a) :: rest) s =
      ((place, (v a s).1) :: (v.walk rest (v a s).2).1, (v.walk rest (v a s).2).2) :=
  mapM_list_cons _ _ _ _

theorem walk_append (v : Visitor w σ) (before after : List (κ × Address w)) (s : σ) :
    v.walk (before ++ after) s =
      ((v.walk before s).1 ++ (v.walk after (v.walk before s).2).1,
        (v.walk after (v.walk before s).2).2) := by
  induction before generalizing s with
  | nil => rfl
  | cons entry rest ih => rw [List.cons_append, walk_cons, walk_cons, ih, List.cons_append]

/-- A walk answers at the places where it asked. -/
theorem map_fst_walk (v : Visitor w σ) (held : List (κ × Address w)) (s : σ) :
    (v.walk held s).1.map Prod.fst = held.map Prod.fst :=
  map_mapM_list (fun entry => return (entry.1, ← v entry.2)) _ _ (fun _ _ => rfl) held s

/-- A walk is a pass along the addresses. -/
theorem walk_state (v : Visitor w σ) (held : List (κ × Address w)) (s : σ) :
    (v.walk held s).2 = ((held.map Prod.snd).mapM v s).2 := by
  have pass := mapM_list_map (fun entry : κ × Address w => return (entry.1, ← v entry.2)) v
    Prod.snd Prod.snd (fun _ _ => rfl) held s
  rw [pass]
  rfl

/-- A walk that passes over what is null ends in the same state. -/
theorem walk_meet_state (v : Visitor w σ) (held : List (κ × Address w)) (s : σ) :
    (walk v.meet held s).2 = (v.walk (full held) s).2 := by
  rw [walk_state, mapM_meet_state, List.filter_map, walk_state]
  rfl

/-- What the visitor answers at a place is there after a walk that passes over what is null. -/
theorem mem_walk_meet_of_answered (answered : (place, a) ∈ (v.walk (full held) s).1) :
    (place, a) ∈ (walk v.meet held s).1 := by
  induction held generalizing s with
  | nil => cases answered
  | cons entry rest ih =>
    obtain ⟨here, b⟩ := entry
    rw [walk_cons]
    by_cases null : b = .null
    · subst null
      rw [full_cons_null] at answered
      exact List.mem_cons_of_mem _ (ih answered)
    · rw [full_cons_of_ne null, walk_cons] at answered
      rw [v.meet_of_ne null]
      rcases List.mem_cons.mp answered with here | later
      · exact here ▸ List.mem_cons_self
      · exact List.mem_cons_of_mem _ (ih later)

/-- Where nothing was, nothing is after a walk that passes over what is null. -/
theorem mem_walk_meet_of_null (v : Visitor w σ) (empty : (place, .null) ∈ held) (s : σ) :
    (place, .null) ∈ (walk v.meet held s).1 := by
  induction held generalizing s with
  | nil => cases empty
  | cons entry rest ih =>
    obtain ⟨here, b⟩ := entry
    rw [walk_cons]
    rcases List.mem_cons.mp empty with same | later
    · cases same
      exact List.mem_cons_self
    · exact List.mem_cons_of_mem _ (ih later _)

/-- The answers of a walk that differ from what was shown. -/
def changes (shown answers : List (κ × Address w)) : Nat :=
  (shown.zip answers).countP fun (a, b) => a.2 ≠ b.2

/-- Counting counts the answers that differ from what was shown, and nothing else. -/
theorem walk_counting (v : Visitor w σ) (held : List (κ × Address w)) (s : σ) (n : Nat) :
    v.counting.walk held (s, n) =
      ((v.walk held s).1, (v.walk held s).2, n + changes held (v.walk held s).1) := by
  induction held generalizing s n with
  | nil => rfl
  | cons entry rest ih =>
    obtain ⟨place, a⟩ := entry
    have step : v.counting a (s, n) =
        ((v a s).1, (v a s).2, if (v a s).1 = a then n else n + 1) := rfl
    rw [walk_cons, step, ih, walk_cons]
    by_cases same : (v a s).1 = a
    · simp [changes, same]
    · simp [changes, same, Ne.symm same, Nat.add_assoc, Nat.add_comm]

end Visitor

/-! ### Places -/

/-- Where a cache keeps a reference. -/
inductive Place where
  | location
  | string (slot : Nat)
  | type (slot : Nat)
  | methodType (slot : Nat)
  | callSite (index : Nat)
  | overlay (index : Nat)
  deriving DecidableEq

namespace Place

/-- The part of a cache that a place is in, by the order in which a pass comes to the parts. -/
def part : Place → Nat
  | location => 0
  | string _ => 1
  | type _ => 2
  | methodType _ => 3
  | callSite _ => 4
  | overlay _ => 5

/-- The number of a place within its part. -/
def number : Place → Nat
  | location => 0
  | string n | type n | methodType n | callSite n | overlay n => n

/-- **The order in which a pass comes to the places:** part by part, and by number within a
part. -/
def Before (p q : Place) : Prop := p.part < q.part ∨ (p.part = q.part ∧ p.number < q.number)

variable {σ : Type} {place : Nat → Place}

/-- References, each with its place: they are numbered in their order. -/
def numbered (place : Nat → Place) (held : List Ref) : List (Place × Ref) :=
  held.mapIdx fun i r => (place i, r)

theorem numbered_cons (place : Nat → Place) (r : Ref) (rest : List Ref) :
    numbered place (r :: rest) = (place 0, r) :: numbered (fun i => place (i + 1)) rest :=
  List.mapIdx_cons

theorem mem_numbered {held : List Ref} {p : Place} {r : Ref} :
    (p, r) ∈ numbered place held ↔ ∃ i, place i = p ∧ held[i]? = some r := by
  simp only [numbered, List.mem_mapIdx, Prod.mk.injEq]
  constructor
  · rintro ⟨i, below, rfl, rfl⟩
    exact ⟨i, rfl, List.getElem?_eq_getElem below⟩
  · rintro ⟨i, rfl, there⟩
    obtain ⟨below, rfl⟩ := List.getElem?_eq_some_iff.mp there
    exact ⟨i, below, rfl, rfl⟩

/-- Walking along numbered references is a pass along the references. -/
theorem walk_numbered (v : Visitor 32 σ) (held : List Ref) (s : σ) :
    v.walk (numbered place held) s = (numbered place (held.mapM v s).1, (held.mapM v s).2) := by
  induction held generalizing place s with
  | nil => rfl
  | cons r rest ih =>
    rw [numbered_cons, Visitor.walk_cons, ih, Visitor.mapM_list_cons, numbered_cons]

theorem map_snd_numbered (place : Nat → Place) (held : List Ref) :
    (numbered place held).map Prod.snd = held := by
  induction held generalizing place with
  | nil => rfl
  | cons r rest ih => rw [numbered_cons, List.map_cons, ih]

/-- The entries are in order and lie in the first parts. -/
def Upto (n : Nat) (entries : List (Place × Ref)) : Prop :=
  entries.Pairwise (·.1.Before ·.1) ∧ ∀ entry ∈ entries, entry.1.part < n

/-- The next part comes after those before it. -/
theorem Upto.append {n : Nat} {entries : List (Place × Ref)} (upto : Upto n entries)
    (place : Nat → Place) (part : ∀ i, (place i).part = n) (number : ∀ i, (place i).number = i)
    (held : List Ref) :
    Upto (n + 1) (entries ++ numbered place held) := by
  have next {entry : Place × Ref} (mem : entry ∈ numbered place held) : entry.1.part = n := by
    obtain ⟨i, here, -⟩ := mem_numbered.mp mem
    rw [← here, part]
  constructor
  · refine List.pairwise_append.mpr ⟨upto.1, ?_, fun a before b after => .inl ?_⟩
    · rw [List.pairwise_iff_getElem]
      intro i j hi hj less
      simp only [numbered, List.getElem_mapIdx]
      exact .inr ⟨by rw [part, part], by rwa [number, number]⟩
    · rw [next after]
      exact upto.2 a before
  · intro entry mem
    rcases List.mem_append.mp mem with before | here
    · exact Nat.lt_succ_of_lt (upto.2 entry before)
    · rw [next here]
      exact Nat.lt_succ_self n

end Place

namespace Cache

variable {σ : Type} {c c' : Cache} {v : Visitor 32 σ} {s : σ} {withTables : Bool} {place : Place}
  {r : Ref}

/-- The reference that a cache keeps at a place, if it has the place. An overlay that is off has no
entries. -/
def kept? (c : Cache) : Place → Option Ref
  | .location => some c.location
  | .string slot => c.strings.payloads[slot]?
  | .type slot => c.types.payloads[slot]?
  | .methodType slot => c.methodTypes.payloads[slot]?
  | .callSite index => c.callSites.entries[index]?
  | .overlay index => c.overlay.references[index]?

/-- **The places of a cache in the order in which a pass comes to them,** each with what it holds:
the location, and then, unless the tables are left out, the strings, the types, the method types,
the call sites and, if it is on, the overlay. -/
def places (withTables : Bool) (c : Cache) : List (Place × Ref) :=
  (.location, c.location) ::
    if withTables then
      Place.numbered .string c.strings.payloads ++ Place.numbered .type c.types.payloads
        ++ Place.numbered .methodType c.methodTypes.payloads
        ++ Place.numbered .callSite c.callSites.entries.toList
        ++ Place.numbered .overlay c.overlay.references
    else []

/-- **The roots of a cache with their places,** in the same order. -/
def rooted (withTables : Bool) (c : Cache) : List (Place × Ref) :=
  Visitor.full (c.places withTables)

/-- A pass comes to every place, and to each with what is kept there. -/
theorem mem_places :
    (place, r) ∈ c.places withTables ↔
      (withTables = true ∨ place = .location) ∧ c.kept? place = some r := by
  cases withTables with
  | false => cases place <;> simp [places, kept?, eq_comm]
  | true => cases place <;> simp [places, kept?, Place.mem_numbered, eq_comm]

theorem mem_rooted :
    (place, r) ∈ c.rooted withTables ↔
      (withTables = true ∨ place = .location) ∧ c.kept? place = some r ∧ r ≠ .null := by
  rw [rooted, Visitor.mem_full, mem_places, and_assoc]

/-- The roots are what a pass over everything shows. -/
theorem map_snd_rooted (c : Cache) : (c.rooted true).map Prod.snd = c.roots := by
  have references : (c.places true).map Prod.snd = c.references := by
    simp [places, Cache.references, referenceTables, Place.map_snd_numbered]
  rw [roots, ← references, List.filter_map]
  rfl

/-- **The places are in order.** -/
theorem pairwise_places (withTables : Bool) (c : Cache) :
    (c.places withTables).Pairwise (·.1.Before ·.1) := by
  have location : Place.Upto 1 [(.location, c.location)] :=
    ⟨List.pairwise_singleton _ _, fun entry mem => by simp_all [Place.part]⟩
  cases withTables with
  | false => exact location.1
  | true =>
    have strings := location.append .string (fun _ => rfl) (fun _ => rfl) c.strings.payloads
    have types := strings.append .type (fun _ => rfl) (fun _ => rfl) c.types.payloads
    have methodTypes := types.append .methodType (fun _ => rfl) (fun _ => rfl)
      c.methodTypes.payloads
    have callSites := methodTypes.append .callSite (fun _ => rfl) (fun _ => rfl)
      c.callSites.entries.toList
    exact (callSites.append .overlay (fun _ => rfl) (fun _ => rfl) c.overlay.references).1

theorem pairwise_rooted (withTables : Bool) (c : Cache) :
    (c.rooted withTables).Pairwise (·.1.Before ·.1) :=
  List.Pairwise.filter (fun entry : Place × Ref => !entry.2.isNull) (pairwise_places withTables c)

/-! ### Passes along the places -/

/-- **A pass is a walk along the places** that passes over what is null. -/
theorem scanWith_walk (withTables : Bool) (v : Visitor 32 σ) (c : Cache) (s : σ) :
    ((c.scanWith withTables v s).1.places withTables, (c.scanWith withTables v s).2) =
      Visitor.walk v.meet (c.places withTables) s := by
  cases withTables with
  | false => rfl
  | true =>
    simp only [scanWith_eq, places, if_true, Visitor.walk_cons, Visitor.walk_append,
      Place.walk_numbered, ← DirectMap.payloads_scan, ← ClaimTable.entries_scan,
      ← Overlay.references_scan]

/-- **What a pass shows and what it counts.** The visitor is shown the roots, and nothing else, in
the order of their places. -/
theorem scan_walk (withTables : Bool) (v : Visitor 32 σ) (c : Cache) (s : σ) :
    (c.scan withTables v s).2 =
      (Visitor.changes (c.rooted withTables) (v.walk (c.rooted withTables) s).1,
        (v.walk (c.rooted withTables) s).2) := by
  have walked := congrArg Prod.snd (scanWith_walk withTables v.counting c (s, 0))
  rw [Visitor.walk_meet_state, Visitor.walk_counting, Nat.zero_add] at walked
  have told : (c.scan withTables v s).2 = ((c.scanWith withTables v.counting (s, 0)).2.2,
      (c.scanWith withTables v.counting (s, 0)).2.1) := rfl
  rw [told, show (c.scanWith withTables v.counting (s, 0)).2 = _ from walked]
  rfl

/-- **Each root is replaced by what the visitor answered to it.** -/
theorem kept?_scan_of_answered (answered : (place, r) ∈ (v.walk (c.rooted withTables) s).1) :
    (c.scan withTables v s).1.kept? place = some r := by
  have counted : (place, r) ∈ (v.counting.walk (c.rooted withTables) (s, 0)).1 := by
    rwa [Visitor.walk_counting]
  have walked := Visitor.mem_walk_meet_of_answered counted
  rw [← scanWith_walk] at walked
  exact (mem_places.mp walked).2

/-- **The other places keep what they have.** -/
theorem kept?_scan_of_unasked (unasked : place ∉ (c.rooted withTables).map Prod.fst) :
    (c.scan withTables v s).1.kept? place = c.kept? place := by
  have walked : (c.scan withTables v s).1.places withTables =
      (Visitor.walk v.counting.meet (c.places withTables) (s, 0)).1 :=
    congrArg Prod.fst (scanWith_walk withTables v.counting c (s, 0))
  by_cases reached : withTables = true ∨ place = .location
  · cases before : c.kept? place with
    | none =>
      -- a pass makes no place
      rw [Option.eq_none_iff_forall_not_mem]
      intro r after
      have there : place ∈ ((c.scan withTables v s).1.places withTables).map Prod.fst :=
        List.mem_map_of_mem (mem_places.mpr ⟨reached, after⟩)
      rw [walked, Visitor.map_fst_walk] at there
      obtain ⟨⟨_, b⟩, mem, rfl⟩ := List.mem_map.mp there
      rw [(mem_places.mp mem).2] at before
      cases before
    | some r =>
      have null : r = .null := Classical.byContradiction fun full =>
        unasked (List.mem_map_of_mem (mem_rooted.mpr ⟨reached, before, full⟩))
      subst null
      have after := Visitor.mem_walk_meet_of_null v.counting (mem_places.mpr ⟨reached, before⟩)
        (s, 0)
      rw [← walked] at after
      exact (mem_places.mp after).2
  · obtain ⟨without, apart⟩ := not_or.mp reached
    rw [Bool.not_eq_true] at without
    subst without
    cases place with
    | location => exact absurd rfl apart
    | string | type | methodType | callSite | overlay => rfl

/-- **What a cache keeps after a pass:** at a root what the visitor answered to it, and elsewhere
what it kept before. -/
theorem kept?_scan (withTables : Bool) (v : Visitor 32 σ) (c : Cache) (s : σ) (place : Place) :
    (c.scan withTables v s).1.kept? place =
      ((v.walk (c.rooted withTables) s).1.lookup place).or (c.kept? place) := by
  cases answer : (v.walk (c.rooted withTables) s).1.lookup place with
  | none =>
    refine kept?_scan_of_unasked fun asked => ?_
    rw [← Visitor.map_fst_walk v _ s] at asked
    obtain ⟨⟨_, r⟩, mem, rfl⟩ := List.mem_map.mp asked
    simpa using List.lookup_eq_none_iff.mp answer _ mem
  | some r =>
    obtain ⟨before, after, whole, -⟩ := List.lookup_eq_some_iff.mp answer
    exact kept?_scan_of_answered (by simp [whole])

end Cache

/-! ### What is beside the places -/

theorem Address.sent_blank {w : Nat} (a : Address w) : a.sent (fun _ => .null) = .null := by
  by_cases null : a = .null
  · rw [null, sent_null]
  · rw [sent_of_ne null]

namespace DirectMap

variable {σ : Type} {m m' : DirectMap 32}

theorem owners_sent (f : Ref → Ref) (m : DirectMap 32) :
    (m.sent f).entries.map Entry.owner = m.entries.map Entry.owner := by
  rw [entries_sent, Array.map_map]
  rfl

/-- **A table is what its owners and its payloads are.** -/
theorem eq_of_owners_of_payloads (owners : m.entries.map Entry.owner = m'.entries.map Entry.owner)
    (payloads : m.payloads = m'.payloads) : m = m' := by
  have put_together (m : DirectMap 32) :
      m.entries.toList = m.payloads.zipWith Entry.mk (m.entries.map Entry.owner).toList := by
    simp [DirectMap.payloads, DirectMap.entries, List.zipWith_map]
  refine DirectMap.eq_of_entries (Array.toList_inj.mp ?_)
  rw [put_together m, put_together m', owners, payloads]

/-- No pass changes an owner. -/
theorem sent_null_scan (v : Visitor 32 σ) (m : DirectMap 32) (s : σ) :
    (m.scan v s).1.sent (fun _ => .null) = m.sent fun _ => .null := by
  have kept := Visitor.map_mapM_list (Cell.scan v)
    (fun c => Cell.ofEntry (c.load.sent fun _ => .null))
    (fun c => Cell.ofEntry (c.load.sent fun _ => .null))
    (fun c s => by simp only [Cell.load_scan, Entry.sent, Address.sent_blank]) m.cells.toList s
  have scanned : (m.scan v s).1 = ⟨(m.cells.mapM (Cell.scan v) s).1⟩ := rfl
  rw [scanned, Visitor.mapM_array_eq]
  simp only [sent, List.map_toArray, kept]
  rw [← Array.toList_map, Array.toArray_toList]

end DirectMap

theorem ClaimTable.sent_null_scan {σ : Type} (v : Visitor 32 σ) (t : ClaimTable) (s : σ) :
    (t.scan v s).1.sent (fun _ => .null) = t.sent fun _ => .null := by
  have kept := Visitor.map_mapM_list v.meet (Address.sent fun _ => .null)
    (Address.sent fun _ => .null) (fun _ _ => by simp only [Address.sent_blank])
    t.entries.toList s
  have scanned : (t.scan v s).1 = ⟨(t.entries.mapM v.meet s).1⟩ := rfl
  rw [scanned, Visitor.mapM_array_eq]
  simp only [sent, List.map_toArray, kept]
  rw [← Array.toList_map, Array.toArray_toList]

namespace Overlay

variable {σ : Type} {o o' : Overlay} {array : Array Ref}

theorem sent_of_none (off : o.entries? = none) (f : Ref → Ref) : o.sent f = o := by
  unfold sent
  rw [off]

theorem sent_of_some (on : o.entries? = some array) (f : Ref → Ref) :
    o.sent f = { o with storage := some (array.map (Address.sent f)) } := by
  unfold sent
  rw [on]

/-- Sending neither switches an overlay on nor off. -/
theorem isSome_entries?_sent (f : Ref → Ref) (o : Overlay) :
    (o.sent f).entries?.isSome = o.entries?.isSome := by
  cases found : o.entries? with
  | none => rw [sent_of_none found, found]
  | some array =>
    have on := (offered_of_entries? found).1
    rw [sent_of_some found]
    simp [entries?, on]

theorem sent_null_scan (v : Visitor 32 σ) (o : Overlay) (s : σ) :
    (o.scan v s).1.sent (fun _ => .null) = o.sent fun _ => .null := by
  cases found : o.entries? with
  | none => rw [scan_of_none found]
  | some array =>
    have kept := ClaimTable.sent_null_scan v ⟨array⟩ s
    have same : (v.meetAll array s).1.map (Address.sent fun _ => .null) =
        array.map (Address.sent fun _ => .null) := congrArg ClaimTable.entries kept
    rw [sent_of_some (entries?_scan_of_some found v s), sent_of_some found, same,
      scan_of_some found]

theorem eq_of_sent_null (blank : (o.sent fun _ => .null) = o'.sent fun _ => .null)
    (references : o.references = o'.references) : o = o' := by
  have both : o.entries?.isSome = o'.entries?.isSome := by
    rw [← isSome_entries?_sent, blank, isSome_entries?_sent]
  cases found : o.entries? with
  | none =>
    have found' : o'.entries? = none := by simpa [found] using both
    rwa [sent_of_none found, sent_of_none found'] at blank
  | some array =>
    obtain ⟨array', found'⟩ := Option.isSome_iff_exists.mp (both.symm.trans (by rw [found]; rfl))
    obtain ⟨-, storage⟩ := offered_of_entries? found
    obtain ⟨-, storage'⟩ := offered_of_entries? found'
    have same : array = array' := by
      simpa [Overlay.references, found, found', Array.toList_inj] using references
    have stored : o.storage = o'.storage := by rw [storage, storage', same]
    rw [sent_of_some found, sent_of_some found'] at blank
    obtain ⟨size, offered, count, _⟩ := Overlay.mk.inj blank
    calc o = ⟨o.size, o.offered, o.count, o.storage⟩ := rfl
      _ = ⟨o'.size, o'.offered, o'.count, o'.storage⟩ := by rw [size, offered, count, stored]

end Overlay

namespace Cache

variable {σ : Type}

/-- **The cache without the references at its places:** each is null. -/
def blank (c : Cache) : Cache := c.sent fun _ => .null

theorem blank_scan (withTables : Bool) (v : Visitor 32 σ) (c : Cache) (s : σ) :
    (c.scan withTables v s).1.blank = c.blank := by
  cases withTables with
  | false =>
    show (c.scanWith false v.counting (s, 0)).1.blank = c.blank
    have passed : (c.scanWith false v.counting (s, 0)).1 =
        { c with location := (v.counting.meet c.location (s, 0)).1 } := rfl
    rw [passed]
    simp only [blank, sent, Address.sent_blank]
  | true =>
    show (c.scanWith true v.counting (s, 0)).1.blank = c.blank
    rw [scanWith_eq]
    simp only [blank, sent, DirectMap.sent_null_scan, ClaimTable.sent_null_scan,
      Overlay.sent_null_scan, Address.sent_blank]

/-- **Blank and places are the whole cache.** -/
theorem eq_of_blank {c c' : Cache} (blank : c.blank = c'.blank)
    (kept : ∀ place, c.kept? place = c'.kept? place) : c = c' := by
  have table {m m' : DirectMap 32} (blank : (m.sent fun _ => .null) = m'.sent fun _ => .null)
      (kept : ∀ slot : Nat, m.payloads[slot]? = m'.payloads[slot]?) : m = m' := by
    refine DirectMap.eq_of_owners_of_payloads ?_ (List.ext_getElem? kept)
    rw [← DirectMap.owners_sent (fun _ => .null), blank, DirectMap.owners_sent]
  have location : c.location = c'.location := Option.some.inj (kept .location)
  have strings := table (congrArg Cache.strings blank) fun slot => kept (.string slot)
  have types := table (congrArg Cache.types blank) fun slot => kept (.type slot)
  have methodTypes := table (congrArg Cache.methodTypes blank) fun slot => kept (.methodType slot)
  have callSites : c.callSites = c'.callSites :=
    congrArg ClaimTable.mk (Array.ext_getElem? fun index => kept (.callSite index))
  have overlay := Overlay.eq_of_sent_null (congrArg Cache.overlay blank)
    (List.ext_getElem? fun index => kept (.overlay index))
  obtain ⟨id, file, settings, _, _, _, _, fields, methods, _, _⟩ := c
  obtain ⟨id', file', settings', _, _, _, _, fields', methods', _, _⟩ := c'
  obtain ⟨rfl, rfl, rfl, -, -, -, -, rfl, rfl, -, -⟩ := Cache.mk.inj blank
  exact Cache.mk.injEq .. ▸ ⟨rfl, rfl, rfl, location, strings, types, methodTypes, rfl, rfl,
    callSites, overlay⟩

end Cache

end ResolutionCache
