import Mathlib.Algebra.Group.Nat.Defs
import ResolutionCache.Settings

/-!
# Capacities and slots

A capacity is accepted if it is a power of two and at least two (`UsableCapacity`). With such a
capacity every index has a slot among those that are really held, however few they are, because the
slot of an index is never above the index (`slotOf_lt_slotCount`).
-/

namespace ResolutionCache

/-- **A capacity that can be used** is a power of two and at least two. -/
def UsableCapacity (capacity : UInt64) : Prop := ∃ k, 1 ≤ k ∧ capacity.toNat = 2 ^ k

theorem toNat_sub_one {n : UInt64} (positive : 0 < n.toNat) : (n - 1).toNat = n.toNat - 1 := by
  have one_le : (1 : UInt64) ≤ n := UInt64.le_iff_toNat_le.mpr positive
  rw [UInt64.toNat_sub_of_le _ _ one_le, UInt64.toNat_one]

theorem isPowerOfTwo_iff (n : UInt64) : isPowerOfTwo n = true ↔ ∃ k, n.toNat = 2 ^ k := by
  have masked : n &&& (n - 1) = 0 ↔ n.toNat &&& (n - 1).toNat = 0 := by
    rw [← UInt64.toNat_inj, UInt64.toNat_and]
    rfl
  unfold isPowerOfTwo
  rw [Bool.and_eq_true, bne_iff_ne, beq_iff_eq, masked]
  by_cases zero : n = 0
  · subst zero
    -- zero passes the test for one bit, but it is excluded, and no power of two is zero
    refine iff_of_false (fun both => both.1 rfl) ?_
    rintro ⟨k, hk⟩
    exact absurd hk (Nat.ne_of_lt (Nat.two_pow_pos k))
  · have positive : n.toNat ≠ 0 := fun none => zero (UInt64.toNat_inj.mp none)
    rw [toNat_sub_one (by omega), Nat.and_sub_one_eq_zero_iff_isPowerOfTwo positive]
    exact and_iff_right zero

theorem acceptable_iff (capacity : UInt64) :
    Settings.acceptable capacity = true ↔ UsableCapacity capacity := by
  unfold Settings.acceptable UsableCapacity
  rw [Bool.and_eq_true, decide_eq_true_eq, isPowerOfTwo_iff, UInt64.le_iff_toNat_le]
  show 2 ≤ capacity.toNat ∧ _ ↔ _
  constructor
  · rintro ⟨two_le, k, hk⟩
    refine ⟨k, ?_, hk⟩
    -- two raised to nothing is one, which is too small
    rcases Nat.eq_zero_or_pos k with rfl | positive
    · rw [hk] at two_le
      exact absurd two_le (by decide)
    · exact positive
  · rintro ⟨k, positive, hk⟩
    refine ⟨?_, k, hk⟩
    rw [hk]
    exact Nat.pow_le_pow_right (show 0 < 2 by decide) positive

/-! ### Slots -/

theorem slotOf_le (index : UInt32) (capacity : UInt64) : slotOf index capacity ≤ index.toNat := by
  unfold slotOf
  rw [UInt64.toNat_and, UInt32.toNat_toUInt64]
  exact Nat.and_le_left

theorem UsableCapacity.positive {capacity : UInt64} (usable : UsableCapacity capacity) :
    0 < capacity.toNat := by
  obtain ⟨k, -, hk⟩ := usable
  rw [hk]
  exact Nat.two_pow_pos k

theorem UsableCapacity.isPowerOfTwo {capacity : UInt64} (usable : UsableCapacity capacity) :
    ResolutionCache.isPowerOfTwo capacity = true :=
  (isPowerOfTwo_iff capacity).mpr (usable.imp fun _ => And.right)

/-- **The slot of an index** is the remainder modulo the capacity. -/
theorem slotOf_eq_mod {capacity : UInt64} (usable : UsableCapacity capacity) (index : UInt32) :
    slotOf index capacity = index.toNat % capacity.toNat := by
  have positive := usable.positive
  obtain ⟨k, -, hk⟩ := usable
  unfold slotOf
  rw [UInt64.toNat_and, UInt32.toNat_toUInt64, toNat_sub_one positive, hk,
    Nat.and_two_pow_sub_one_eq_mod]

theorem slotOf_lt_capacity {capacity : UInt64} (usable : UsableCapacity capacity)
    (index : UInt32) : slotOf index capacity < capacity.toNat := by
  rw [slotOf_eq_mod usable]
  exact Nat.mod_lt _ usable.positive

/-- **The slot of an index in range is held.** -/
theorem slotOf_lt_slotCount {capacity : UInt64} (usable : UsableCapacity capacity)
    {index ids : UInt32} (range : index < ids) :
    slotOf index capacity < slotCount capacity ids := by
  have below : index.toNat < ids.toNat := UInt32.lt_iff_toNat_lt.mp range
  have := slotOf_le index capacity
  -- below the capacity by the mask, and below the count because it is not above the index
  exact Nat.lt_min.mpr ⟨slotOf_lt_capacity usable index, by omega⟩

/-- **The words of a complaint:** the kind by its name, and the capacity in decimal digits. -/
theorem BadCapacity.message_eq (bad : BadCapacity) {name : String}
    (named : (bad.kind, name) ∈ [(SlotKind.string, "string"), (.type, "type"),
      (.methodType, "method type"), (.field, "field"), (.method, "method")]) :
    bad.message = name ++ " cache capacity " ++ toString bad.capacity.toNat ++
      " must be a power of two and at least 2" := by
  have label : bad.kind.label = name := by
    cases kind : bad.kind <;> simp [kind] at named <;> exact named.symm
  rw [message, label]

/-! ### Overrides -/

namespace Overrides

/-- The capacity given for a kind, if there is one. -/
def given (o : Overrides) : SlotKind → Option UInt64
  | .string => o.string
  | .type => o.type
  | .methodType => o.methodType
  | .field => o.field
  | .method => o.method

/-- **The first capacity given that cannot be used,** in the order of `SlotKind.all`. -/
structure FirstUnusable (o : Overrides) (bad : BadCapacity) : Prop where
  given : o.given bad.kind = some bad.capacity
  unusable : ¬ UsableCapacity bad.capacity
  first : ∃ earlier later, SlotKind.all = earlier ++ bad.kind :: later ∧
    ∀ kind ∈ earlier, ∀ capacity, o.given kind = some capacity → UsableCapacity capacity

/-- The defaults can be used. -/
theorem usable_default : UsableCapacity 1024 := ⟨10, by decide, rfl⟩

/-- The complaint about one kind. -/
def complaint? (o : Overrides) (kind : SlotKind) : Option BadCapacity :=
  if Settings.acceptable ((o.given kind).getD 1024) then none
  else some ⟨kind, (o.given kind).getD 1024⟩

theorem complaint?_eq_none {o : Overrides} {kind : SlotKind} :
    o.complaint? kind = none ↔
      ∀ capacity, o.given kind = some capacity → UsableCapacity capacity := by
  unfold complaint?
  cases o.given kind with
  | none => simp [(acceptable_iff _).mpr usable_default]
  | some capacity => simp [← acceptable_iff]

theorem complaint?_eq_some {o : Overrides} {kind : SlotKind} {bad : BadCapacity} :
    o.complaint? kind = some bad ↔
      bad.kind = kind ∧ o.given kind = some bad.capacity ∧ ¬ UsableCapacity bad.capacity := by
  obtain ⟨kind', capacity'⟩ := bad
  unfold complaint?
  cases o.given kind with
  | none => simp [(acceptable_iff _).mpr usable_default]
  | some capacity =>
    simp only [Option.getD_some, Option.some.injEq, ← acceptable_iff]
    split
    · refine iff_of_false (by simp) ?_
      rintro ⟨rfl, rfl, unusable⟩
      exact unusable ‹_›
    · simp only [Option.some.injEq, BadCapacity.mk.injEq]
      constructor
      · rintro ⟨rfl, rfl⟩
        exact ⟨rfl, rfl, ‹_›⟩
      · rintro ⟨rfl, rfl, -⟩
        exact ⟨rfl, rfl⟩

/-- The defaults with the overrides in place. -/
def settings (o : Overrides) : Settings where
  string := (o.given .string).getD 1024
  type := (o.given .type).getD 1024
  methodType := (o.given .methodType).getD 1024
  field := (o.given .field).getD 1024
  method := (o.given .method).getD 1024

theorem capacity_settings (o : Overrides) (kind : SlotKind) :
    o.settings.capacity kind = (o.given kind).getD 1024 := by
  cases kind <;> rfl

theorem firstBad?_settings (o : Overrides) :
    o.settings.firstBad? = SlotKind.all.findSome? o.complaint? := by
  unfold Settings.firstBad?
  congr 1
  funext kind
  rw [capacity_settings]
  rfl

end Overrides

namespace Settings

theorem ofOverrides_eq (o : Overrides) :
    ofOverrides o =
      match SlotKind.all.findSome? o.complaint? with
      | some bad => .error bad
      | none => .ok o.settings := by
  rw [← Overrides.firstBad?_settings]
  rfl

/-- **Settings are refused** because of the first capacity given that cannot be used. -/
theorem ofOverrides_eq_error_iff {o : Overrides} {bad : BadCapacity} :
    ofOverrides o = .error bad ↔ o.FirstUnusable bad := by
  have found : ofOverrides o = .error bad ↔ SlotKind.all.findSome? o.complaint? = some bad := by
    rw [ofOverrides_eq]
    cases SlotKind.all.findSome? o.complaint? with
    | none => simp
    | some other => simp
  rw [found, List.findSome?_eq_some_iff]
  constructor
  · rintro ⟨earlier, kind, later, all, complaint, fine⟩
    obtain ⟨rfl, given, unusable⟩ := Overrides.complaint?_eq_some.mp complaint
    exact ⟨given, unusable, earlier, later, all,
      fun kind mem => Overrides.complaint?_eq_none.mp (fine kind mem)⟩
  · rintro ⟨given, unusable, earlier, later, all, fine⟩
    exact ⟨earlier, bad.kind, later, all,
      Overrides.complaint?_eq_some.mpr ⟨rfl, given, unusable⟩,
      fun kind mem => Overrides.complaint?_eq_none.mpr (fine kind mem)⟩

/-- **Settings are accepted** if every capacity given can be used. -/
theorem ofOverrides_eq_ok_iff {o : Overrides} {s : Settings} :
    ofOverrides o = .ok s ↔ s = o.settings ∧
      ∀ kind capacity, o.given kind = some capacity → UsableCapacity capacity := by
  have every (kind : SlotKind) : kind ∈ SlotKind.all := by cases kind <;> decide
  have fine : SlotKind.all.findSome? o.complaint? = none ↔
      ∀ kind capacity, o.given kind = some capacity → UsableCapacity capacity := by
    rw [List.findSome?_eq_none_iff]
    exact ⟨fun none kind => Overrides.complaint?_eq_none.mp (none kind (every kind)),
      fun usable kind _ => Overrides.complaint?_eq_none.mpr (usable kind)⟩
  rw [← fine, ofOverrides_eq]
  cases SlotKind.all.findSome? o.complaint? with
  | none => simp [eq_comm]
  | some bad => simp

/-- There is a first capacity that cannot be used if there is one at all. -/
theorem exists_firstUnusable_iff {o : Overrides} :
    (∃ bad, o.FirstUnusable bad) ↔
      ∃ kind capacity, o.given kind = some capacity ∧ ¬ UsableCapacity capacity := by
  constructor
  · rintro ⟨bad, first⟩
    exact ⟨bad.kind, bad.capacity, first.given, first.unusable⟩
  · rintro ⟨kind, capacity, given, unusable⟩
    cases settled : ofOverrides o with
    | error bad => exact ⟨bad, ofOverrides_eq_error_iff.mp settled⟩
    | ok s => exact absurd ((ofOverrides_eq_ok_iff.mp settled).2 kind capacity given) unusable

/-- Accepted settings have capacities that can be used. -/
theorem usable_of_ofOverrides {o : Overrides} {s : Settings} (accepted : ofOverrides o = .ok s)
    (kind : SlotKind) : UsableCapacity (s.capacity kind) := by
  obtain ⟨rfl, usable⟩ := ofOverrides_eq_ok_iff.mp accepted
  rw [Overrides.capacity_settings]
  cases given : o.given kind with
  | none => exact Overrides.usable_default
  | some capacity => exact usable kind capacity given

end Settings

end ResolutionCache
