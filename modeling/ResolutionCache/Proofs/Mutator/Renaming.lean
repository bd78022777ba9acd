import ResolutionCache.Proofs.Collection.Lookups

/-!
# Renamings

Two heaps that have come by their objects in the same way may have them at different places. A
*renaming* relates the references of one heap to those of the other, one to one and with equal
objects behind them. A new object on both sides extends it (`Renaming.withNew`), and a collection
of one side composes it with where the roots went (`Renaming.collected`).
-/

namespace ResolutionCache

/-- **A renaming** relates live references of two heaps, one to one, that lead to equal objects. -/
structure Renaming (R : Ref → Ref → Prop) (h h' : Heap) : Prop where
  same : ∀ {a b}, R a b → h.SameObject h' a b
  functional : ∀ {a b b'}, R a b → R a b' → b = b'
  injective : ∀ {a a' b}, R a b → R a' b → a = a'

/-- Null to null, and otherwise by a renaming. -/
def OrNull (R : Ref → Ref → Prop) (a b : Ref) : Prop :=
  (a = .null ∧ b = .null) ∨ (a ≠ .null ∧ b ≠ .null ∧ R a b)

theorem orNull_linking (R : Ref → Ref → Prop) : Linking (OrNull R) where
  null := .inl ⟨rfl, rfl⟩
  null_iff := by
    rintro a b (⟨rfl, rfl⟩ | ⟨full, full', -⟩)
    · exact Iff.rfl
    · exact iff_of_false full full'

theorem OrNull.of_full {R : Ref → Ref → Prop} {a b : Ref} (related : OrNull R a b)
    (full : b ≠ .null) : R a b := by
  rcases related with ⟨-, rfl⟩ | ⟨-, -, ab⟩
  · exact absurd rfl full
  · exact ab

theorem Full.of_orNull {R : Ref → Ref → Prop} {a b : Ref} (related : Full (OrNull R) a b) :
    R a b :=
  related.1.of_full (mt ((orNull_linking R).null_iff related.1).mpr related.2)

theorem OrNull.symm {R : Ref → Ref → Prop} {a b : Ref} (related : OrNull R a b) :
    OrNull (fun b a => R a b) b a := by
  rcases related with ⟨rfl, rfl⟩ | ⟨full, full', ab⟩
  · exact .inl ⟨rfl, rfl⟩
  · exact .inr ⟨full', full, ab⟩

theorem Heap.SameObject.symm {h h' : Heap} {a b : Ref} (same : h.SameObject h' a b) :
    h'.SameObject h b a := by
  obtain ⟨object, here, there⟩ := same
  exact ⟨object, there, here⟩

theorem Heap.SameObject.mem {h h' : Heap} {a b : Ref} (same : h.SameObject h' a b) :
    b ∈ h'.objects := by
  obtain ⟨object, -, there⟩ := same
  rw [Std.HashMap.mem_iff_isSome_getElem?, there]
  rfl

namespace Renaming

variable {R : Ref → Ref → Prop} {h h' : Heap}

theorem symm (naming : Renaming R h h') : Renaming (fun b a => R a b) h' h where
  same ab := (naming.same ab).symm
  functional ab ab' := naming.injective ab ab'
  injective ab ab' := naming.functional ab ab'

theorem orNull (naming : Renaming R h h') (wf : h.WellFormed) (wf' : h'.WellFormed) {a b : Ref}
    (ab : R a b) : OrNull R a b :=
  .inr ⟨wf.ne_null_of_mem (naming.same ab).symm.mem, wf'.ne_null_of_mem (naming.same ab).mem, ab⟩

/-- Equal references are renamed to equal ones. -/
theorem eq_iff (naming : Renaming R h h') {a a' b b' : Ref} (ab : R a b) (ab' : R a' b') :
    a = a' ↔ b = b' := by
  constructor
  · rintro rfl
    exact naming.functional ab ab'
  · rintro rfl
    exact naming.injective ab ab'

/-- A renaming extended by one pair. -/
def Extended (R : Ref → Ref → Prop) (p q a b : Ref) : Prop := R a b ∨ (a = p ∧ b = q)

/-- **A new object on both sides extends a renaming.** The places are nobody's yet, so the renaming
stays one to one. -/
theorem withNew (naming : Renaming R h h') (wf : h.WellFormed) (wf' : h'.WellFormed)
    (object : Object) :
    Renaming (Extended R h.place h'.place) (h.withNew object) (h'.withNew object) := by
  -- nothing was related to the places that are handed out now
  have left {a b : Ref} (ab : R a b) : a ≠ h.place := by
    rintro rfl
    exact wf.place_not_mem (naming.same ab).symm.mem
  have right {a b : Ref} (ab : R a b) : b ≠ h'.place := by
    rintro rfl
    exact wf'.place_not_mem (naming.same ab).mem
  constructor
  case same =>
    rintro a b (ab | ⟨rfl, rfl⟩)
    · obtain ⟨there, here, found⟩ := naming.same ab
      refine ⟨there, ?_, ?_⟩
      · rw [wf.getElem?_withNew_of_mem (naming.same ab).symm.mem, here]
      · rw [wf'.getElem?_withNew_of_mem (naming.same ab).mem, found]
    · refine ⟨object, ?_, ?_⟩ <;> rw [Heap.getElem?_objects_withNew, if_pos rfl]
  case functional =>
    rintro a b b' (ab | ⟨rfl, rfl⟩) (ab' | ⟨same, rfl⟩)
    · exact naming.functional ab ab'
    · exact absurd same (left ab)
    · exact absurd rfl (left ab')
    · rfl
  case injective =>
    rintro a a' b (ab | ⟨rfl, rfl⟩) (ab' | ⟨rfl, same⟩)
    · exact naming.injective ab ab'
    · exact absurd same (right ab)
    · exact absurd rfl (right ab')
    · rfl

/-- A renaming followed by where a collection of the right side sent its roots. -/
def Sent (R : Ref → Ref → Prop) (e : Estate) (f : Ref → Ref) (a b : Ref) : Prop :=
  ∃ source ∈ e.roots, R a source ∧ b = f source

/-- **A collection of the right side composes a renaming** with where the roots went. -/
theorem collected {e e' : Estate} {f : Ref → Ref} {count : Estate.Counts}
    (naming : Renaming R h e.heap) (done : e.Collected f count e') :
    Renaming (Sent R e f) h e'.heap where
  same := by
    rintro a b ⟨source, root, ab, rfl⟩
    obtain ⟨object, here, there⟩ := naming.same ab
    exact ⟨object, here, (done.carried source root).trans there⟩
  functional := by
    rintro a b b' ⟨source, -, ab, rfl⟩ ⟨source', -, ab', rfl⟩
    rw [naming.functional ab ab']
  injective := by
    rintro a a' b ⟨source, root, ab, rfl⟩ ⟨source', root', ab', same⟩
    obtain rfl := done.injective source root source' root' same
    exact naming.injective ab ab'

end Renaming

theorem Cache.Similar.mono {R S : Ref → Ref → Prop} {c c' : Cache} (similar : c.Similar R c')
    (null : ∀ a, R a .null → S a .null) (step : ∀ a, ∀ b ∈ c'.roots, R a b → S a b) :
    c.Similar S c' := by
  have sent := similar.sent_right (f := fun r => r) null step
  rwa [sent_id] at sent

/-- A reference that two similar caches keep is related to one of the other. -/
theorem Cache.Similar.exists_left {R : Ref → Ref → Prop} {c c' : Cache} (similar : c.Similar R c')
    {b : Ref} (mem : b ∈ c'.references) : ∃ a, R a b := by
  have member {α β : Type} {S : α → β → Prop} {xs : Array α} {ys : Array β}
      (related : Pointwise S xs ys) {b : β} (mem : b ∈ ys) : ∃ a, S a b := by
    obtain ⟨i, hi, rfl⟩ := Array.mem_iff_getElem.mp mem
    exact ⟨_, related.get (by rwa [related.size_eq]) hi⟩
  have payload {m m' : DirectMap 32} (related : DirectMap.Similar R m m') {b : Ref}
      (mem : b ∈ m'.payloads) : ∃ a, R a b := by
    obtain ⟨e, held, rfl⟩ := List.mem_map.mp mem
    obtain ⟨e', same⟩ := member related (Array.mem_toList_iff.mp held)
    exact ⟨_, same.2⟩
  simp only [references, referenceTables, List.mem_cons, List.mem_append, List.flatMap_cons,
    List.flatMap_nil, List.append_nil] at mem
  rcases mem with rfl | ((in_strings | in_types | in_methodTypes) | in_callSites) | in_overlay
  · exact ⟨_, similar.location⟩
  · exact payload (similar.table .string) in_strings
  · exact payload (similar.table .type) in_types
  · exact payload (similar.table .methodType) in_methodTypes
  · exact member similar.callSites (Array.mem_toList_iff.mp in_callSites)
  · exact member similar.overlay.entries (Array.mem_toList_iff.mp in_overlay)

end ResolutionCache
