import ResolutionCache.Proofs.Resolver.Similar

/-!
# Readers and collectors of an overlay

The state of an overlay is told three times: by the flag, by the count and by the array, which is
kept while the overlay is off. Readers and writers ask the count and the flag, collectors the flag
alone. `Overlay.Coherent` says how the three hang together. It holds of a new overlay, and every
operation keeps it; so readers and collectors always get at the same entries
(`Coherent.reaches_iff`, `Coherent.scan_collecting`, `Coherent.copyInto_collecting`), those of the
array as it is after the overlay was last switched on.
-/

namespace ResolutionCache

/-! ### Visitors that collect -/

theorem Visitor.collecting_answers {w : Nat} (f : Address w → Address w) :
    (Visitor.collecting f).AnswersBy f := fun _ _ => rfl

/-- What was shown is what was met, without the null addresses. -/
theorem Visitor.after_collecting {w : Nat} (f : Address w → Address w)
    (shown : Array (Address w)) (met : List (Address w)) :
    ((Visitor.collecting f).after shown met).toList =
      shown.toList ++ met.filterMap Address.nonNull := by
  induction met generalizing shown with
  | nil => simp [Visitor.after]
  | cons a met ih =>
    show ((Visitor.collecting f).after ((Visitor.collecting f).meet a shown).2 met).toList = _
    rw [ih, List.filterMap_cons]
    unfold Visitor.meet Address.nonNull
    cases a.isNull with
    | true => rfl
    | false =>
      show (shown.push a).toList ++ _ = _
      rw [Array.toList_push, List.append_assoc]
      rfl

namespace Overlay

variable {o o' : Overlay}

/-- **An overlay in order:** the array, once there is one, has an entry for each index; there is one
while the overlay is on; and readers are told of all its entries then and of none otherwise. -/
structure Coherent (o : Overlay) : Prop where
  sized : ∀ array, o.storage = some array → array.size = o.size
  stored : o.offered = true → ∃ array, o.storage = some array
  announced : o.count = if o.offered then o.size else 0

theorem coherent_ofSize (size : Nat) : (ofSize size).Coherent := ⟨nofun, nofun, rfl⟩

theorem Coherent.offer (coherent : o.Coherent) : o.offer.Coherent := by
  refine ⟨?_, fun _ => ⟨_, rfl⟩, rfl⟩
  intro array same
  cases same
  rw [Array.size_map]
  cases used : o.storage with
  | none => exact Array.size_replicate
  | some array => exact coherent.sized array used

theorem Coherent.withdraw (coherent : o.Coherent) : o.withdraw.Coherent :=
  ⟨coherent.sized, nofun, rfl⟩

/-! ### What readers get at -/

theorem Coherent.reaches_eq (coherent : o.Coherent) (index : Nat) :
    o.reaches index = (o.offered && decide (index < o.size)) := by
  unfold reaches
  rw [coherent.announced]
  cases o.offered with
  | false => rfl
  | true =>
    -- a count of zero says that there is no entry at all
    cases size : o.size with
    | zero => rfl
    | succ n => rfl

/-- **Readers and writers get at what collectors get at,** although they ask differently. -/
theorem Coherent.reaches_iff (coherent : o.Coherent) (index : Nat) :
    o.reaches index = true ↔ ∃ array, o.entries? = some array ∧ index < array.size := by
  rw [coherent.reaches_eq, Bool.and_eq_true, decide_eq_true_eq]
  unfold entries?
  constructor
  · rintro ⟨offered, below⟩
    obtain ⟨array, there⟩ := coherent.stored offered
    rw [if_pos offered, there]
    exact ⟨array, rfl, by rwa [coherent.sized array there]⟩
  · rintro ⟨array, there, below⟩
    split at there
    · exact ⟨‹_›, by rwa [← coherent.sized array there]⟩
    · cases there

/-- A lookup finds what the array offered to collectors has. -/
theorem Coherent.lookup_eq (coherent : o.Coherent) (index : Nat) :
    o.lookup index = (o.entries?.getD #[])[index]? >>= Address.nonNull := by
  rw [Overlay.lookup_eq]
  split
  · rfl
  · -- out of reach there is no entry
    have past : (o.entries?.getD #[])[index]? = none := by
      refine Array.getElem?_eq_none (Nat.le_of_not_lt fun below => ‹¬ _› ?_)
      rw [coherent.reaches_iff]
      cases offered : o.entries? with
      | none => rw [offered] at below; exact absurd below (Nat.not_lt_zero _)
      | some array => exact ⟨array, rfl, by rwa [offered] at below⟩
    rw [past]
    rfl

/-- A string that was stored changed one entry of an overlay that is on. -/
theorem of_put?_eq_some {index : Nat} {string : Ref} (put : o.put? index string = some o') :
    o.reaches index = true ∧
      o' = { o with storage := o.storage.map (·.setIfInBounds index string) } := by
  unfold put? at put
  split at put
  · exact ⟨‹_›, (Option.some.inj put).symm⟩
  · cases put

theorem Coherent.put (coherent : o.Coherent) {index : Nat} {string : Ref}
    (put : o.put? index string = some o') : o'.Coherent := by
  obtain ⟨-, rfl⟩ := of_put?_eq_some put
  refine ⟨?_, ?_, coherent.announced⟩
  · intro array same
    obtain ⟨before, there, rfl⟩ := Option.map_eq_some_iff.mp same
    rw [Array.size_setIfInBounds]
    exact coherent.sized before there
  · intro offered
    obtain ⟨array, there⟩ := coherent.stored offered
    exact ⟨_, Option.map_eq_some_iff.mpr ⟨array, there, rfl⟩⟩

/-- **A string that was stored** is found at its index; the other entries are as before. -/
theorem Coherent.lookup_put (coherent : o.Coherent) {index : Nat} {string : Ref}
    (full : string ≠ .null) (put : o.put? index string = some o') (i : Nat) :
    o'.lookup i = if index = i then some string else o.lookup i := by
  rw [(coherent.put put).lookup_eq, coherent.lookup_eq]
  obtain ⟨reached, rfl⟩ := of_put?_eq_some put
  obtain ⟨array, offered, below⟩ := (coherent.reaches_iff index).mp reached
  have after : ({ o with storage := o.storage.map (·.setIfInBounds index string) } :
      Overlay).entries? = some (array.setIfInBounds index string) := by
    unfold entries? at offered ⊢
    split at offered
    · rw [if_pos ‹_›, offered]
      rfl
    · cases offered
  rw [after, offered]
  show (array.setIfInBounds index string)[i]? >>= _ = if _ then _ else array[i]? >>= _
  rw [Array.getElem?_setIfInBounds, if_pos below]
  by_cases own : index = i
  · rw [if_pos own, if_pos own]
    exact (Address.nonNull_eq_some_iff.mpr ⟨rfl, full⟩ : string.nonNull = some string)
  · rw [if_neg own, if_neg own]

/-! ### What collectors are shown -/

/-- The strings that lookups find, in index order. -/
def found (o : Overlay) : List Ref := (List.range o.size).filterMap o.lookup

/-- The strings found are those of the array offered. -/
theorem Coherent.found_eq (coherent : o.Coherent) :
    o.found = o.references.filterMap Address.nonNull := by
  unfold found references
  have entry (i : Nat) : o.lookup i = (o.entries?.getD #[]).toList[i]? >>= Address.nonNull := by
    rw [coherent.lookup_eq, Array.getElem?_toList]
  rw [show o.lookup = _ from funext entry]
  cases offered : o.entries? with
  | none => simp
  | some array =>
    have size : o.size = array.toList.length := by
      unfold entries? at offered
      split at offered
      · exact (coherent.sized array offered).symm
      · cases offered
    have listed : (List.range o.size).map (array.toList[·]?) = array.toList.map some := by
      apply List.ext_getElem
      · simp [size]
      · intro i below _
        simp only [List.getElem_map, List.getElem_range]
        exact List.getElem?_eq_getElem _
    calc (List.range o.size).filterMap (fun i => array.toList[i]? >>= Address.nonNull)
        = ((List.range o.size).map (array.toList[·]?)).filterMap (· >>= Address.nonNull) := by
          rw [List.filterMap_map]
          rfl
      _ = array.toList.filterMap Address.nonNull := by
          rw [listed, List.filterMap_map]
          rfl

theorem Coherent.sent (coherent : o.Coherent) (f : Ref → Ref) : (o.sent f).Coherent := by
  unfold Overlay.sent
  cases offered : o.entries? with
  | none => exact coherent
  | some array =>
    unfold entries? at offered
    split at offered
    · refine ⟨?_, fun _ => ⟨_, rfl⟩, coherent.announced⟩
      intro after same
      cases same
      rw [Array.size_map]
      exact coherent.sized array offered
    · cases offered

/-- **A pass over the overlay** shows what lookups find, each string once and in index order, and
lookups find the visitor's answers from then on. -/
theorem Coherent.scan_collecting (coherent : o.Coherent) (f : Ref → Ref) :
    (o.scan (Visitor.collecting f) #[]).2.toList = o.found ∧
      ∀ index, (o.scan (Visitor.collecting f) #[]).1.lookup index =
        o.lookup index >>= fun string => (f string).nonNull := by
  rw [scan_sent (Visitor.collecting_answers f)]
  constructor
  · rw [Visitor.after_collecting, coherent.found_eq]
    rfl
  · intro index
    rw [(coherent.sent f).lookup_eq, entries?_sent, coherent.lookup_eq, Array.getElem?_map]
    cases (o.entries?.getD #[])[index]? with
    | none => rfl
    | some a =>
      show (a.sent f).nonNull = a.nonNull >>= fun string => (f string).nonNull
      unfold Address.sent Address.nonNull
      cases null : a.isNull with
      | true => simp [null]
      | false => rfl

/-- **A relocated copy of the overlay** is made of what lookups find, and shows just that. While the
overlay is off the destination is left as it was. -/
theorem Coherent.copyInto_collecting (coherent : o.Coherent) (f : Ref → Ref)
    {destination : Array Ref} (fits : destination.size = o.size) :
    ∃ copy shown, o.copyInto (Visitor.collecting f) destination #[] = .ok (copy, shown) ∧
      shown.toList = o.found ∧
      ∀ index, copy[index]? =
        if o.reaches index then some (((o.lookup index).map f).getD .null)
        else destination[index]? := by
  have reached := coherent.reaches_iff
  have lookup := coherent.lookup_eq
  rw [coherent.found_eq]
  unfold copyInto references
  cases offered : o.entries? with
  | none =>
    refine ⟨destination, #[], rfl, rfl, fun index => ?_⟩
    rw [if_neg]
    rw [reached, offered]
    rintro ⟨_, none_there, -⟩
    cases none_there
  | some array =>
    have size : array.size = o.size := by
      unfold entries? at offered
      split at offered
      · exact coherent.sized array offered
      · cases offered
    refine ⟨array.map (Address.sent f), (Visitor.collecting f).after #[] array.toList, ?_, ?_, ?_⟩
    · show (if _ then _ else _) = _
      rw [if_pos (fits.trans size.symm), (Visitor.collecting_answers f).meetAll]
    · exact Visitor.after_collecting f #[] array.toList
    · intro index
      have here : o.reaches index = true ↔ index < array.size := by
        rw [reached, offered]
        simp
      rw [lookup, offered, Array.getElem?_map]
      by_cases below : index < array.size
      · rw [if_pos (here.mpr below)]
        show Option.map _ array[index]? = some (((array[index]? >>= _).map f).getD .null)
        rw [Array.getElem?_eq_getElem below]
        show some (array[index].sent f) = some ((array[index].nonNull.map f).getD .null)
        unfold Address.sent Address.nonNull
        cases null : array[index].isNull with
        | true => simp [(Address.isNull_iff _).mp null]
        | false => rfl
      · rw [if_neg (mt here.mp below), Array.getElem?_eq_none (Nat.le_of_not_lt below),
          Array.getElem?_eq_none (by omega)]
        rfl

/-- **Readers, writers and collectors get at the same entries.** A lookup or store reaches an index
if the array offered to collectors has an entry for it; a pass and a relocated copy show what
lookups find, and what comes of it is what the visitor answered. -/
structure OneView (o : Overlay) : Prop where
  reached : ∀ index,
    o.reaches index = true ↔ ∃ array, o.entries? = some array ∧ index < array.size
  shown : ∀ f : Ref → Ref, (o.scan (Visitor.collecting f) #[]).2.toList = o.found ∧
    ∀ index, (o.scan (Visitor.collecting f) #[]).1.lookup index =
      o.lookup index >>= fun string => (f string).nonNull
  copied : ∀ (f : Ref → Ref) (destination : Array Ref), destination.size = o.size →
    ∃ copy shown, o.copyInto (Visitor.collecting f) destination #[] = .ok (copy, shown) ∧
      shown.toList = o.found ∧
      ∀ index, copy[index]? =
        if o.reaches index then some (((o.lookup index).map f).getD .null)
        else destination[index]?

theorem Coherent.oneView (coherent : o.Coherent) : o.OneView :=
  ⟨coherent.reaches_iff, coherent.scan_collecting, fun f _ => coherent.copyInto_collecting f⟩

end Overlay

end ResolutionCache
