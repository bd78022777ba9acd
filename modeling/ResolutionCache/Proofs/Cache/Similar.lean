import ResolutionCache.Proofs.Cache.Roots

/-!
# Similar caches

Two caches are similar when they differ in nothing but the references that they keep, and these are
related place by place. The relation is a parameter `R`; all that is ever asked of it is that null
is related to null and to nothing else (`Linking`). Owners, native records, sizes and the state of
the overlay have to be equal, and so is the size of a withdrawn overlay's array, but not what is in
it: no reader and no collector gets there.

Sending the roots of one of two similar caches leaves them similar, for a relation that the sending
respects (`Cache.Similar.sent_right`).
-/

namespace ResolutionCache

/-! ### Arrays, place by place -/

/-- Two arrays of one size whose members are related place by place. -/
def Pointwise {α β : Type} (R : α → β → Prop) (xs : Array α) (ys : Array β) : Prop :=
  ∀ i : Nat, Option.Rel R xs[i]? ys[i]?

namespace Pointwise

variable {α β : Type} {R : α → β → Prop} {xs : Array α} {ys : Array β}

theorem size_eq (related : Pointwise R xs ys) : xs.size = ys.size := by
  apply Nat.le_antisymm
  · have last := related ys.size
    rw [Array.getElem?_eq_none (Nat.le_refl _)] at last
    cases none_there : xs[ys.size]? with
    | none => exact Array.getElem?_eq_none_iff.mp none_there
    | some a => rw [none_there] at last; cases last
  · have last := related xs.size
    rw [Array.getElem?_eq_none (Nat.le_refl _)] at last
    cases none_there : ys[xs.size]? with
    | none => exact Array.getElem?_eq_none_iff.mp none_there
    | some b => rw [none_there] at last; cases last

theorem mono {S : α → β → Prop} (related : Pointwise R xs ys) (weaker : ∀ a b, R a b → S a b) :
    Pointwise S xs ys := by
  intro i
  have at_i := related i
  generalize xs[i]? = x at at_i
  generalize ys[i]? = y at at_i
  cases at_i with
  | none => exact .none
  | some ab => exact .some (weaker _ _ ab)

/-- Whatever is on the right is related to something on the left. -/
theorem of_right (related : Pointwise R xs ys) {i : Nat} {b : β} (there : ys[i]? = some b) :
    ∃ a, xs[i]? = some a ∧ R a b := by
  have at_i := related i
  rw [there] at at_i
  generalize xs[i]? = x at at_i
  cases at_i with
  | some ab => exact ⟨_, rfl, ab⟩

theorem get (related : Pointwise R xs ys) {i : Nat} (hi : i < xs.size) (hi' : i < ys.size) :
    R xs[i] ys[i] := by
  have at_i := related i
  rw [Array.getElem?_eq_getElem hi, Array.getElem?_eq_getElem hi'] at at_i
  cases at_i
  assumption

theorem setIfInBounds (related : Pointwise R xs ys) (i : Nat) {a : α} {b : β} (ab : R a b) :
    Pointwise R (xs.setIfInBounds i a) (ys.setIfInBounds i b) := by
  intro j
  rw [Array.getElem?_setIfInBounds, Array.getElem?_setIfInBounds, related.size_eq]
  split
  · split
    · exact .some ab
    · exact .none
  · exact related j

/-- Replacing the members on the right by a function. -/
theorem map_right {γ : Type} {S : α → γ → Prop} {f : β → γ} (related : Pointwise R xs ys)
    (step : ∀ a b, b ∈ ys → R a b → S a (f b)) : Pointwise S xs (ys.map f) := by
  intro i
  have at_i := related i
  rw [Array.getElem?_map]
  cases found : ys[i]? with
  | none =>
    rw [found] at at_i
    cases none_there : xs[i]? with
    | none => exact .none
    | some a => rw [none_there] at at_i; cases at_i
  | some b =>
    rw [found] at at_i
    cases there : xs[i]? with
    | none => rw [there] at at_i; cases at_i
    | some a =>
      rw [there] at at_i
      cases at_i with
      | some ab => exact .some (step a b (Array.mem_of_getElem? found) ab)

theorem refl {S : α → α → Prop} (reflexive : ∀ a, a ∈ xs → S a a) : Pointwise S xs xs := by
  intro i
  cases found : xs[i]? with
  | none => exact .none
  | some a => exact .some (reflexive a (Array.mem_of_getElem? found))

theorem symm (related : Pointwise R xs ys) : Pointwise (fun b a => R a b) ys xs := by
  intro i
  have at_i := related i
  revert at_i
  cases xs[i]? <;> cases ys[i]? <;> intro at_i <;> cases at_i
  · exact .none
  · exact .some ‹_›

end Pointwise

/-! ### Similarity -/

/-- A relation between addresses that keeps null apart. -/
structure Linking {w : Nat} (R : Address w → Address w → Prop) : Prop where
  null : R .null .null
  null_iff : ∀ {a b}, R a b → (a = .null ↔ b = .null)

theorem Linking.isNull_eq {w : Nat} {R : Address w → Address w → Prop} (link : Linking R)
    {a b : Address w} (ab : R a b) : a.isNull = b.isNull := by
  rw [Bool.eq_iff_iff, Address.isNull_iff, Address.isNull_iff, link.null_iff ab]

/-- Related addresses that are not null, as lookups answer them. -/
def Full {w : Nat} (R : Address w → Address w → Prop) (a b : Address w) : Prop := R a b ∧ a ≠ .null

/-- What has to hold between payloads of a kind: references are related, native records equal. -/
def SlotKind.Related (R : Ref → Ref → Prop) :
    (kind : SlotKind) → Address kind.width → Address kind.width → Prop
  | .string => R
  | .type => R
  | .methodType => R
  | .field => Eq
  | .method => Eq

theorem Linking.related {R : Ref → Ref → Prop} (link : Linking R) (kind : SlotKind) :
    Linking (kind.Related R) := by
  cases kind
  case field | method => exact ⟨rfl, fun same => by rw [show _ = _ from same]⟩
  all_goals exact link

/-- The same owner and related payloads. -/
def Entry.Similar {w : Nat} (R : Address w → Address w → Prop) (e e' : Entry w) : Prop :=
  e.owner = e'.owner ∧ R e.payload e'.payload

/-- Similar entries, slot by slot. -/
def DirectMap.Similar {w : Nat} (R : Address w → Address w → Prop) (m m' : DirectMap w) : Prop :=
  Pointwise (Entry.Similar R) m.entries m'.entries

/-- Overlays in the same state, with related strings where a reader or a collector gets at them. -/
structure Overlay.Similar (R : Ref → Ref → Prop) (o o' : Overlay) : Prop where
  size : o.size = o'.size
  offered : o.offered = o'.offered
  count : o.count = o'.count
  storage : o.storage.map Array.size = o'.storage.map Array.size
  entries : Pointwise R (o.entries?.getD #[]) (o'.entries?.getD #[])

/-- **Caches that differ in nothing but their references.** -/
structure Cache.Similar (R : Ref → Ref → Prop) (c c' : Cache) : Prop where
  id : c.id = c'.id
  file : c.file = c'.file
  settings : c.settings = c'.settings
  location : R c.location c'.location
  table : ∀ kind : SlotKind, DirectMap.Similar (kind.Related R) (c.table kind) (c'.table kind)
  callSites : Pointwise R c.callSites.entries c'.callSites.entries
  overlay : c.overlay.Similar R c'.overlay

namespace Cache

theorem Similar.refl (c : Cache) : c.Similar Eq c where
  id := rfl
  file := rfl
  settings := rfl
  location := rfl
  table kind := Pointwise.refl fun e _ => ⟨rfl, by cases kind <;> rfl⟩
  callSites := Pointwise.refl fun _ _ => rfl
  overlay := ⟨rfl, rfl, rfl, rfl, Pointwise.refl fun _ _ => rfl⟩

/-- Changing one table of each alike. -/
theorem Similar.mapTable {R : Ref → Ref → Prop} {c c' : Cache} (similar : c.Similar R c')
    {kind : SlotKind} {f f' : DirectMap kind.width → DirectMap kind.width}
    (changed : DirectMap.Similar (kind.Related R) (f (c.table kind)) (f' (c'.table kind))) :
    (c.mapTable kind f).Similar R (c'.mapTable kind f') := by
  have table (other : SlotKind) : DirectMap.Similar (other.Related R)
      ((c.mapTable kind f).table other) ((c'.mapTable kind f').table other) := by
    by_cases same : other = kind
    · subst same
      rw [table_mapTable, table_mapTable]
      exact changed
    · rw [table_mapTable_of_ne _ _ same, table_mapTable_of_ne _ _ same]
      exact similar.table other
  obtain ⟨id, file, settings, location, _, callSites, overlay⟩ := similar
  cases kind <;> exact ⟨id, file, settings, location, table, callSites, overlay⟩

theorem Similar.symm {R : Ref → Ref → Prop} {c c' : Cache} (similar : c.Similar R c') :
    c'.Similar (fun b a => R a b) c where
  id := similar.id.symm
  file := similar.file.symm
  settings := similar.settings.symm
  location := similar.location
  table kind i := by
    have at_i := (similar.table kind).symm i
    revert at_i
    cases (c'.table kind).entries[i]? <;> cases (c.table kind).entries[i]? <;>
      intro at_i <;> cases at_i
    · exact .none
    · rename_i same
      refine .some ⟨same.1.symm, ?_⟩
      have payloads := same.2
      cases kind
      case field | method => exact payloads.symm
      all_goals exact payloads
  callSites := similar.callSites.symm
  overlay :=
    { size := similar.overlay.size.symm
      offered := similar.overlay.offered.symm
      count := similar.overlay.count.symm
      storage := similar.overlay.storage.symm
      entries := similar.overlay.entries.symm }

end Cache

/-! ### Sending roots -/

namespace Overlay

@[simp] theorem entries?_sent (f : Ref → Ref) (o : Overlay) :
    (o.sent f).entries?.getD #[] = (o.entries?.getD #[]).map (Address.sent f) := by
  unfold sent
  cases found : o.entries? with
  | none => simp [found]
  | some array =>
    have offered : o.offered = true := by
      unfold entries? at found
      split at found
      · assumption
      · cases found
    simp [entries?, offered]

theorem size_storage_sent (f : Ref → Ref) (o : Overlay) :
    (o.sent f).storage.map Array.size = o.storage.map Array.size := by
  unfold sent
  cases found : o.entries? with
  | none => rfl
  | some array =>
    have stored : o.storage = some array := by
      unfold entries? at found
      split at found
      · exact found
      · cases found
    simp [stored]

end Overlay

/-- **Sending the roots of one of two similar caches** leaves them similar, for a relation that
goes along with it. -/
theorem Cache.Similar.sent_right {R S : Ref → Ref → Prop} {c c' : Cache} {f : Ref → Ref}
    (similar : c.Similar R c') (null : ∀ a, R a .null → S a .null)
    (step : ∀ a, ∀ b ∈ c'.roots, R a b → S a (f b)) : c.Similar S (c'.sent f) := by
  -- a reference is sent only if it is not null, and then it is a root
  have along : ∀ a, ∀ b ∈ c'.references, R a b → S a (b.sent f) := by
    intro a b mem ab
    by_cases b_null : b = .null
    · subst b_null
      rw [Address.sent_null]
      exact null a ab
    · rw [Address.sent_of_ne b_null]
      exact step a b (mem_roots.mpr ⟨mem, b_null⟩) ab
  have table {m m' : DirectMap 32} (related : DirectMap.Similar R m m')
      (held : ∀ e ∈ m'.entries, e.payload ∈ c'.references) : DirectMap.Similar S m (m'.sent f) := by
    unfold DirectMap.Similar
    rw [DirectMap.entries_sent]
    exact related.map_right fun e e' mem same => ⟨same.1, along _ _ (held e' mem) same.2⟩
  constructor
  case id => exact similar.id
  case file => exact similar.file
  case settings => exact similar.settings
  case location => exact along _ _ location_mem similar.location
  case table =>
    intro kind
    have before := similar.table kind
    cases kind
    case string => exact table before fun _ => payload_mem (by simp [referenceTables])
    case type => exact table before fun _ => payload_mem (by simp [referenceTables])
    case methodType => exact table before fun _ => payload_mem (by simp [referenceTables])
    case field => exact before
    case method => exact before
  case callSites =>
    exact similar.callSites.map_right fun a b mem ab => along a b (callSite_mem mem) ab
  case overlay =>
    -- sending touches the array alone, and only while it is offered
    have shape : (c'.overlay.sent f).size = c'.overlay.size
        ∧ (c'.overlay.sent f).offered = c'.overlay.offered
        ∧ (c'.overlay.sent f).count = c'.overlay.count := by
      unfold Overlay.sent
      split <;> exact ⟨rfl, rfl, rfl⟩
    refine ⟨similar.overlay.size.trans shape.1.symm, similar.overlay.offered.trans shape.2.1.symm,
      similar.overlay.count.trans shape.2.2.symm, ?_, ?_⟩
    · exact similar.overlay.storage.trans (Overlay.size_storage_sent f _).symm
    · show Pointwise S _ ((c'.overlay.sent f).entries?.getD #[])
      rw [Overlay.entries?_sent]
      exact similar.overlay.entries.map_right fun a b mem ab => along a b (overlay_mem mem) ab

end ResolutionCache
