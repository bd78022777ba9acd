import Mathlib.Algebra.BigOperators.Group.List.Basic
import Mathlib.Algebra.GroupWithZero.Nat
import ResolutionCache.LoadTest.Audit
import ResolutionCache.Proofs.LoadTest.Turns

/-!
# Sound load tests pass their audits

Whatever a sound load test has in its cache is live and bears the mark of its index, so an audit
finds nothing wrong; what it counts are the references that lookups find (`LoadTest.Sound.audit`).
-/

namespace ResolutionCache

/-- What is found at a reference is found at its own shape. -/
theorem Heap.resolve_of_found {h : Heap} {r : Ref} {object : Object}
    (found : h.objects[r]? = some object) : h.resolve r object.shape = some object := by
  rw [resolve, found, Option.filter_some, if_pos (decide_eq_true rfl)]

namespace LoadTest

variable {file : SymbolFile} {w : LoadTest}

/-! ### What is held is right -/

/-- A string held is the one of its index. -/
theorem Sound.resolve_string (sound : w.Sound file) {index : UInt32} {r : Ref}
    (held : w.resolver.cache.held .string index = some r) :
    w.heap.resolve r .string = some (stringObject index) := by
  obtain ⟨e, mem, rfl, rfl, full⟩ := Cache.mem_of_held held
  exact Heap.resolve_of_found (sound.stocked.strings e mem full)

/-- A type held is the one of its index. -/
theorem Sound.resolve_type (sound : w.Sound file) {index : UInt32} {r : Ref}
    (held : w.resolver.cache.held .type index = some r) :
    w.heap.resolve r .classRecord = some (typeObject index) := by
  obtain ⟨e, mem, rfl, rfl, full⟩ := Cache.mem_of_held held
  exact Heap.resolve_of_found (sound.stocked.types e mem full)

/-- A call site bound is the one of its index. -/
theorem Sound.resolve_callSite (sound : w.Sound file) {index : Nat} {r : Ref}
    (bound : w.resolver.cache.callSiteAt index = some r) :
    w.heap.resolve r .callSite = some (callSiteObject index.toUInt32) := by
  obtain ⟨a, there, found⟩ := Option.bind_eq_some_iff.mp bound
  obtain ⟨rfl, full⟩ := Address.nonNull_eq_some_iff.mp found
  exact Heap.resolve_of_found (sound.stocked.bound index a there full)

/-! ### Audits of one index -/

/-- An index below a count of 32 bits is what it is in 32 bits. -/
theorem toNat_index {index : Nat} {count : UInt32} (range : index < count.toNat) :
    index.toUInt32.toNat = index ∧ index.toUInt32 < count := by
  have same : index.toUInt32.toNat = index :=
    UInt32.toNat_ofNat_of_lt' (Nat.lt_trans range count.toNat_lt)
  exact ⟨same, UInt32.lt_iff_toNat_lt.mpr (by rwa [same])⟩

/-- What a lookup found, nothing or one. -/
def hit {α : Type} : Except Fault (Option α) → List α
  | .ok found => found.toList
  | .error _ => []

/-- **Every cached string is right.** -/
theorem Sound.auditString (sound : w.Sound file) {index : Nat}
    (range : index < file.strings.toNat) :
    auditString w index = .ok (hit (w.resolver.get .string index.toUInt32)).length := by
  obtain ⟨same, below⟩ := toNat_index range
  unfold LoadTest.auditString
  rw [sound.get .string below]
  cases held : w.resolver.cache.held .string index.toUInt32 with
  | none => rfl
  | some r =>
    have resolved := sound.resolve_string held
    rw [stringObject, same] at resolved
    simp only [Except.mapError, bind, Except.bind, resolved, if_pos]
    rfl

/-- **Every cached type is right.** -/
theorem Sound.auditType (sound : w.Sound file) {index : Nat} (range : index < file.types.toNat) :
    auditType w index = .ok (hit (w.resolver.get .type index.toUInt32)).length := by
  obtain ⟨same, below⟩ := toNat_index range
  unfold LoadTest.auditType
  rw [sound.get .type below]
  cases held : w.resolver.cache.held .type index.toUInt32 with
  | none => rfl
  | some r =>
    have resolved := sound.resolve_type held
    have bits : index.toUInt32.toUInt64 = index.toUInt64 := by
      have fits : index < 2 ^ 64 := by
        have := file.types.toNat_lt
        omega
      rw [← UInt64.toNat_inj, UInt32.toNat_toUInt64, same]
      exact (UInt64.toNat_ofNat_of_lt' fits).symm
    rw [typeObject, same, bits] at resolved
    simp only [Except.mapError, bind, Except.bind, resolved]
    -- the class is initialised, and its one static field holds the index
    exact (if_neg Bool.false_ne_true).trans (if_pos ⟨trivial, rfl⟩)

/-- **Every bound call site is live.** -/
theorem Sound.auditCallSite (sound : w.Sound file) {index : Nat}
    (range : index < file.callSites.toNat) :
    auditCallSite w index = .ok (hit (w.resolver.getCallSite index.toUInt32)).length := by
  obtain ⟨same, below⟩ := toNat_index range
  unfold LoadTest.auditCallSite
  rw [sound.getCallSite below, same]
  cases bound : w.resolver.cache.callSiteAt index with
  | none => rfl
  | some r =>
    have resolved := sound.resolve_callSite bound
    simp only [Except.mapError, bind, Except.bind, resolved]
    rfl

/-! ### Whole audits -/

/-- A sum is found if every number has something to add. -/
theorem total_eq {entries : Nat → Except LoadTestError Nat} {n : Nat → Nat}
    (count first sum : Nat) (counted : ∀ i, i < first + count → entries i = .ok (n i)) :
    total entries count first sum = .ok (sum + ((List.range' first count).map n).sum) := by
  induction count generalizing first sum with
  | zero => rfl
  | succ count ih =>
    have here := counted first (by omega)
    have rest := ih (first + 1) (sum + n first) fun i below => counted i (by omega)
    rw [total, here, List.range'_succ, List.map_cons, List.sum_cons, ← Nat.add_assoc]
    exact rest

/-- The references that the lookups of all strings, types and call sites find. -/
def found (w : LoadTest) : List Ref :=
  let file := w.resolver.cache.file
  (List.range file.strings.toNat).flatMap (fun i => hit (w.resolver.get .string i.toUInt32)) ++
    (List.range file.types.toNat).flatMap (fun i => hit (w.resolver.get .type i.toUInt32)) ++
    (List.range file.callSites.toNat).flatMap (fun i => hit (w.resolver.getCallSite i.toUInt32))

/-- **An audit of a sound load test** finds nothing wrong. It counts the references that lookups
find. -/
theorem Sound.audit (sound : w.Sound file) (types : file.types = file.strings) :
    audit w = .ok w.found.length := by
  have symbols (i : Nat) (below : i < 0 + file.strings.toNat) : auditSymbol w i =
      .ok ((hit (w.resolver.get .string i.toUInt32)).length +
        (hit (w.resolver.get .type i.toUInt32)).length) := by
    rw [Nat.zero_add] at below
    rw [auditSymbol, sound.auditString below, sound.auditType (by rwa [types])]
    rfl
  have callSites (i : Nat) (below : i < 0 + file.callSites.toNat) :
      LoadTest.auditCallSite w i =
        .ok (hit (w.resolver.getCallSite i.toUInt32)).length :=
    sound.auditCallSite (by rwa [Nat.zero_add] at below)
  unfold LoadTest.audit found
  rw [sound.stocked.serves]
  show (total w.auditSymbol file.strings.toNat 0 0 >>= _) = _
  rw [total_eq _ _ _ symbols]
  refine (total_eq _ _ _ callSites).trans ?_
  simp only [types, List.length_append, List.length_flatMap, List.range_eq_range', List.sum_map_add,
    Nat.zero_add]

end LoadTest

end ResolutionCache
