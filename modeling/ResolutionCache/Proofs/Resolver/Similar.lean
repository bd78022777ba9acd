import ResolutionCache.Proofs.Attempt
import ResolutionCache.Proofs.Cache.Similar
import ResolutionCache.Resolver

/-!
# Resolvers cannot tell similar caches apart

Every operation of a resolver looks at a reference for one thing only, whether it is null. So two
resolvers whose caches are similar and whose hosts are equal answer alike: the same faults, the same
hits and misses, related references, and afterwards they are similar again. There is one theorem
for each operation, from `find_agree` to `rollback_agree`.
-/

namespace ResolutionCache

/-- The kinds of symbols that resolve to managed objects. -/
inductive ReferenceKind where
  | string
  | type
  | methodType
  | callSite
  deriving DecidableEq

namespace Resolver

/-- What an index of a kind resolved to, if the kind resolves to managed objects. -/
def find (r : Resolver) : ReferenceKind → UInt32 → Except Fault (Option Ref)
  | .string, index => r.get .string index
  | .type, index => r.get .type index
  | .methodType, index => r.get .methodType index
  | .callSite, index => r.getCallSite index

/-- Similar caches on equal hosts. -/
structure Similar (R : Ref → Ref → Prop) (r r' : Resolver) : Prop where
  cache : r.cache.Similar R r'.cache
  host : r.host = r'.host

end Resolver

/-! ### Tables -/

section

variable {w : Nat} {R : Address w → Address w → Prop}

theorem Address.nonNull_related (link : Linking R) {a b : Address w} (ab : R a b) :
    Option.Rel (Full R) a.nonNull b.nonNull := by
  unfold nonNull
  by_cases a_null : a = .null
  · have b_null := (link.null_iff ab).mp a_null
    rw [if_pos ((isNull_iff a).mpr a_null), if_pos ((isNull_iff b).mpr b_null)]
    exact .none
  · have b_full := mt (link.null_iff ab).mpr a_null
    rw [if_neg (mt (isNull_iff a).mp a_null), if_neg (mt (isNull_iff b).mp b_full)]
    exact .some ⟨ab, a_null⟩

theorem Entry.lookup_related (link : Linking R) {e e' : Entry w} (similar : e.Similar R e')
    (index : UInt32) : Option.Rel (Full R) (e.lookup index) (e'.lookup index) := by
  unfold lookup
  rw [similar.1]
  split
  · exact Address.nonNull_related link similar.2
  · exact .none

namespace DirectMap

variable {m m' : DirectMap w}

theorem Similar.size_eq (similar : m.Similar R m') : m.size = m'.size := by
  rw [← size_entries, ← size_entries]
  exact Pointwise.size_eq similar

theorem Similar.load (similar : m.Similar R m') (slot : Nat) :
    Attempt.SameAnswer (Entry.Similar R) (m.load slot) (m'.load slot) := by
  by_cases here : slot < m.entries.size
  · have there : slot < m'.entries.size := by rwa [← Pointwise.size_eq similar]
    rw [load_of_lt here, load_of_lt there]
    exact .ok (Pointwise.get similar here there)
  · -- past the end of both, which stop with the same numbers
    have size := similar.size_eq
    have not_here : ¬ slot < m.cells.size := by simpa [entries] using here
    have not_there : ¬ slot < m'.cells.size := by
      rwa [show m'.cells.size = m.cells.size from size.symm]
    simp only [DirectMap.load, not_here, not_there, dite_false, size]
    exact .error _

theorem Similar.lookup (link : Linking R) (similar : m.Similar R m') (slot : Nat) (index : UInt32) :
    Attempt.SameAnswer (Option.Rel (Full R)) (m.lookup slot index) (m'.lookup slot index) := by
  exact (similar.load slot).bind fun e e' same => .ok (Entry.lookup_related link same index)

theorem Similar.owns (similar : m.Similar R m') (slot : Nat) (index : UInt32) :
    Attempt.SameAnswer Eq (m.owns slot index) (m'.owns slot index) := by
  refine (similar.load slot).bind fun e e' same => .ok ?_
  rw [same.1]

theorem Similar.check (similar : m.Similar R m') (slot : Nat) : m.check slot = m'.check slot := by
  unfold DirectMap.check
  rw [similar.size_eq]

theorem Similar.replace (wide : 32 ≤ w) (similar : m.Similar R m') (slot : Nat) {e e' : Entry w}
    (same : e.Similar R e') : (m.replace slot e).Similar R (m'.replace slot e') := by
  unfold Similar
  rw [entries_replace wide, entries_replace wide]
  exact Pointwise.setIfInBounds similar slot same

end DirectMap

end

theorem SlotKind.wide (kind : SlotKind) : 32 ≤ kind.width := by cases kind <;> decide

theorem ClaimTable.lookup_related {R : Ref → Ref → Prop} (link : Linking R) {t t' : ClaimTable}
    (similar : Pointwise R t.entries t'.entries) (index : Nat) :
    Attempt.SameAnswer (Option.Rel (Full R)) (t.lookup index) (t'.lookup index) := by
  have size : t.entries.size = t'.entries.size := similar.size_eq
  by_cases here : index < t.entries.size
  · have there : index < t'.entries.size := by rwa [← size]
    simp only [lookup, here, there, dite_true]
    exact .ok (Address.nonNull_related link (similar.get here there))
  · have not_there : ¬ index < t'.entries.size := by rwa [← size]
    simp only [lookup, not_there, dite_false, ClaimTable.size, size]
    exact .error _

/-- Two claims that end alike: taken or refused by both, with related references. -/
inductive ClaimResult.Similar (R : Ref → Ref → Prop) : ClaimResult → ClaimResult → Prop where
  | taken {a b : Ref} : R a b → Similar R (.taken a) (.taken b)
  | refused {a b : Ref} : R a b → Similar R (.refused a) (.refused b)

theorem ClaimTable.outcome_related {R : Ref → Ref → Prop} (link : Linking R) {t t' : ClaimTable}
    (similar : Pointwise R t.entries t'.entries) (index : Nat) {a b : Ref} (ab : R a b) :
    Attempt.SameAnswer (ClaimResult.Similar (Full R)) (t.outcome index a) (t'.outcome index b) := by
  unfold outcome
  by_cases a_null : a = .null
  · rw [if_pos ((Address.isNull_iff a).mpr a_null),
      if_pos ((Address.isNull_iff b).mpr ((link.null_iff ab).mp a_null))]
    exact .error _
  · have b_full := mt (link.null_iff ab).mpr a_null
    rw [if_neg (mt (Address.isNull_iff a).mp a_null), if_neg (mt (Address.isNull_iff b).mp b_full)]
    refine (lookup_related link similar index).bind fun held held' same => .ok ?_
    cases same with
    | none => exact .taken ⟨ab, a_null⟩
    | some standing => exact .refused standing

namespace Overlay

variable {R : Ref → Ref → Prop} {o o' : Overlay}

/-- What a reader gets at is what a collector gets at. -/
theorem lookup_eq (o : Overlay) (index : Nat) :
    o.lookup index =
      if o.reaches index then (o.entries?.getD #[])[index]? >>= Address.nonNull else none := by
  unfold lookup entries?
  split
  · have offered : o.offered = true := by
      have reached : o.reaches index = true := ‹_›
      simp only [reaches, Bool.and_eq_true] at reached
      exact reached.1.2
    rw [if_pos offered]
  · rfl

theorem Similar.reaches (similar : o.Similar R o') (index : Nat) :
    o.reaches index = o'.reaches index := by
  unfold Overlay.reaches
  rw [similar.count, similar.offered, similar.size]

theorem Similar.lookup (link : Linking R) (similar : o.Similar R o') (index : Nat) :
    Option.Rel (Full R) (o.lookup index) (o'.lookup index) := by
  rw [lookup_eq, lookup_eq, similar.reaches]
  split
  · have at_index := similar.entries index
    revert at_index
    generalize (o.entries?.getD #[])[index]? = x
    generalize (o'.entries?.getD #[])[index]? = y
    intro at_index
    cases at_index with
    | none => exact .none
    | some ab => exact Address.nonNull_related link ab
  · exact .none

end Overlay

namespace Overlay

variable {R : Ref → Ref → Prop} {o o' : Overlay}

theorem Similar.withdraw (similar : o.Similar R o') : o.withdraw.Similar R o'.withdraw where
  size := similar.size
  offered := rfl
  count := rfl
  storage := similar.storage
  entries := fun _ => .none

/-- An overlay just offered holds null references and nothing else. -/
theorem Similar.offer (link : Linking R) (similar : o.Similar R o') :
    o.offer.Similar R o'.offer := by
  -- the first offer makes an array, later ones use it again: the same size on both sides
  have sizes : (o.storage.getD (Array.replicate o.size .null)).size =
      (o'.storage.getD (Array.replicate o'.size .null)).size := by
    have stored := similar.storage
    cases here : o.storage with
    | none =>
      cases there : o'.storage with
      | none => simp [similar.size]
      | some array' => rw [here, there] at stored; cases stored
    | some array =>
      cases there : o'.storage with
      | none => rw [here, there] at stored; cases stored
      | some array' =>
        rw [here, there] at stored
        exact Option.some.inj stored
  refine ⟨similar.size, rfl, similar.size, ?_, ?_⟩
  · simp only [Overlay.offer, Option.map_some, Array.size_map, sizes]
  · intro i
    simp only [Overlay.offer, entries?, if_true, Option.getD_some, Array.getElem?_map]
    by_cases here : i < (o'.storage.getD (Array.replicate o'.size .null)).size
    · rw [Array.getElem?_eq_getElem here, Array.getElem?_eq_getElem (by rwa [sizes])]
      exact .some link.null
    · have past := Nat.le_of_not_lt here
      rw [Array.getElem?_eq_none past, Array.getElem?_eq_none (by rwa [sizes])]
      exact .none

theorem Similar.put (similar : o.Similar R o') (index : Nat) {a b : Ref} (ab : R a b) :
    Option.Rel (Overlay.Similar R) (o.put? index a) (o'.put? index b) := by
  unfold put?
  rw [similar.reaches]
  have stored := similar.storage
  have entries := similar.entries
  split
  · refine .some ⟨similar.size, similar.offered, similar.count, ?_, ?_⟩
    · show (o.storage.map _).map Array.size = (o'.storage.map _).map Array.size
      rw [Option.map_map, Option.map_map]
      simpa [Function.comp_def] using stored
    · unfold entries? at entries ⊢
      revert entries
      simp only [similar.offered]
      split
      · cases here : o.storage with
        | none =>
          cases there : o'.storage with
          | none => exact fun _ _ => .none
          | some array' => rw [here, there] at stored; cases stored
        | some array =>
          cases there : o'.storage with
          | none => rw [here, there] at stored; cases stored
          | some array' => exact fun entries => Pointwise.setIfInBounds entries index ab
      · exact fun _ _ => .none
  · exact .none

end Overlay

namespace Resolver

open Attempt

variable {R : Ref → Ref → Prop} {r r' : Resolver}

/-! ### Questions -/

theorem Similar.slot (similar : r.Similar R r') (kind : SlotKind) (index : UInt32) :
    r.slot kind index = r'.slot kind index := by
  unfold Resolver.slot Cache.ids
  rw [similar.host, similar.cache.file, similar.cache.settings,
    (similar.cache.table kind).size_eq]

theorem slotted_agree (link : Linking R) (similar : r.Similar R r') (kind : SlotKind)
    (index : UInt32) :
    Attempt.SameAnswer (Option.Rel (Full (kind.Related R))) (r.slotted kind index)
      (r'.slotted kind index) := by
  unfold slotted
  rw [similar.slot]
  cases r'.slot kind index with
  | error e => exact .error e
  | ok slot => exact (similar.cache.table kind).lookup (link.related kind) slot index

theorem get_string (r : Resolver) (index : UInt32) :
    r.get .string index =
      match r.cache.overlay.lookup index.toNat with
      | some string => .ok (some string)
      | none => r.slotted .string index := rfl

theorem get_agree (link : Linking R) (similar : r.Similar R r') (kind : SlotKind)
    (index : UInt32) :
    Attempt.SameAnswer (Option.Rel (Full (kind.Related R))) (r.get kind index)
      (r'.get kind index) := by
  have in_table := slotted_agree link similar kind index
  cases kind with
  | string =>
    -- only strings look into the overlay first
    have in_overlay := similar.cache.overlay.lookup link index.toNat
    rw [get_string, get_string]
    revert in_overlay
    generalize r.cache.overlay.lookup index.toNat = x
    generalize r'.cache.overlay.lookup index.toNat = y
    intro in_overlay
    cases in_overlay with
    | none => exact in_table
    | some ab => exact .ok (.some ab)
  | type => exact in_table
  | methodType => exact in_table
  | field => exact in_table
  | method => exact in_table

theorem Similar.checkCallSite (similar : r.Similar R r') (index : UInt32) :
    r.checkCallSite index = r'.checkCallSite index := by
  unfold Resolver.checkCallSite
  rw [similar.host, similar.cache.file]

theorem getCallSite_agree (link : Linking R) (similar : r.Similar R r') (index : UInt32) :
    Attempt.SameAnswer (Option.Rel (Full R)) (r.getCallSite index) (r'.getCallSite index) := by
  unfold getCallSite
  rw [similar.checkCallSite]
  cases r'.checkCallSite index with
  | error e => exact .error e
  | ok _ => exact ClaimTable.lookup_related link similar.cache.callSites index.toNat

/-- **Lookups of managed objects agree.** -/
theorem find_agree (link : Linking R) (similar : r.Similar R r') (kind : ReferenceKind)
    (index : UInt32) :
    Attempt.SameAnswer (Option.Rel (Full R)) (r.find kind index) (r'.find kind index) := by
  cases kind with
  | string => exact get_agree link similar .string index
  | type => exact get_agree link similar .type index
  | methodType => exact get_agree link similar .methodType index
  | callSite => exact getCallSite_agree link similar index

/-! ### Changes -/

theorem agree_barrier (similar : r.Similar R r') :
    Agree (Similar R) (fun _ _ => True) (barrier r) (barrier r') :=
  agree_modify ⟨similar.cache, similar.host⟩

theorem agree_putHost (similar : r.Similar R r') (host : Host) :
    Agree (Similar R) (fun _ _ => True) (putHost host r) (putHost host r') :=
  agree_modify ⟨similar.cache, rfl⟩

theorem agree_replace (similar : r.Similar R r') (kind : SlotKind) (slot : Nat)
    {e e' : Entry kind.width} (same : e.Similar (kind.Related R) e') :
    Agree (Similar R) (fun _ _ => True) (mapTable kind (·.replace slot e) r)
      (mapTable kind (·.replace slot e') r') :=
  agree_modify
    ⟨similar.cache.mapTable ((similar.cache.table kind).replace kind.wide slot same), similar.host⟩

theorem recordString_agree (similar : r.Similar R r') (index : UInt32) :
    Agree (Similar R) (fun _ _ => True) (recordString index r) (recordString index r') := by
  unfold recordString
  refine Agree.bind (.ok similar similar) fun a b s t ab st => ?_
  rw [ab.host, ab.cache.id]
  split
  · refine Agree.bind (agree_require rfl st) fun _ _ s t _ st => ?_
    exact agree_putHost st _
  · exact .ok trivial st

/-- **Setting a symbol agrees.** -/
theorem set_agree (link : Linking R) (similar : r.Similar R r') (kind : SlotKind)
    (index : UInt32) {a b : Address kind.width} (ab : kind.Related R a b) :
    Agree (Similar R) (fun _ _ => True) (set kind index a r) (set kind index b r') := by
  unfold set
  refine Agree.bind (agree_require (by rw [(link.related kind).isNull_eq ab]) similar)
    fun _ _ s t _ st => ?_
  refine Agree.bind (agree_inspect (.of_eq (st.slot kind index)) st)
    fun slot slot' s t same st => ?_
  subst same
  refine Agree.bind (agree_inspect (.of_eq ((st.cache.table kind).check slot)) st)
    fun _ _ s t _ st => ?_
  refine Agree.bind (agree_replace st kind slot ⟨rfl, ab⟩) fun _ _ s t _ st => ?_
  split
  · exact Agree.bind (recordString_agree st index) fun _ _ s t _ st => agree_barrier st
  · exact agree_barrier st

/-- **Clearing a symbol agrees.** -/
theorem clear_agree (link : Linking R) (similar : r.Similar R r') (kind : SlotKind)
    (index : UInt32) :
    Agree (Similar R) (fun _ _ => True) (clear kind index r) (clear kind index r') := by
  have vacant (slot : Nat) : (Entry.vacant slot).Similar (kind.Related R) (Entry.vacant slot) :=
    ⟨rfl, (link.related kind).null⟩
  unfold clear
  refine Agree.bind (.ok similar similar) fun a b s t ab st => ?_
  refine Agree.bind (agree_require (by rw [ab.host]) st) fun _ _ s t _ st => ?_
  refine Agree.bind (agree_inspect (.of_eq (st.slot kind index)) st)
    fun slot slot' s t same st => ?_
  subst same
  refine Agree.bind (agree_inspect ((st.cache.table kind).owns slot index) st)
    fun owned owned' s t same st => ?_
  subst same
  split
  · exact agree_replace st kind slot (vacant slot)
  · exact .ok trivial st

/-- **Claiming a call site agrees:** the candidate is taken in both or refused in both. -/
theorem setCallSite_agree (link : Linking R) (similar : r.Similar R r') (index : UInt32)
    {a b : Ref} (ab : R a b) :
    Agree (Similar R) (Full R) (setCallSite index a r) (setCallSite index b r') := by
  unfold setCallSite
  refine Agree.bind (agree_inspect (.of_eq (similar.checkCallSite index)) similar)
    fun _ _ s t _ st => ?_
  refine Agree.bind
    (agree_inspect (ClaimTable.outcome_related link st.cache.callSites index.toNat ab) st)
    fun outcome outcome' s t same st => ?_
  -- whether the candidate was taken or not, what stands is related
  have standing : Full R outcome.standing outcome'.standing := by
    cases same with
    | taken ab => exact ab
    | refused ab => exact ab
  have taken : outcome.isTaken = outcome'.isTaken := by cases same <;> rfl
  have callSites := Pointwise.setIfInBounds st.cache.callSites index.toNat standing.1
  refine Agree.bind (agree_modify ⟨?_, st.host⟩) fun _ _ s t _ st => ?_
  · exact { st.cache with callSites }
  · rw [taken]
    split
    · exact Agree.bind (agree_barrier st) fun _ _ s t _ st => .ok standing st
    · exact .ok standing st

/-! ### The overlay -/

theorem offerOverlay_agree (link : Linking R) (similar : r.Similar R r') :
    Agree (Similar R) (fun _ _ => True) (offerOverlay r) (offerOverlay r') := by
  unfold offerOverlay
  refine Agree.bind (.ok similar similar) fun a b s t ab st => ?_
  refine Agree.bind (agree_require (by rw [ab.host]) st) fun _ _ s t _ st => ?_
  exact agree_modify ⟨{ st.cache with overlay := st.cache.overlay.offer link }, st.host⟩

theorem withdrawOverlay_agree (similar : r.Similar R r') :
    Agree (Similar R) (fun _ _ => True) (withdrawOverlay r) (withdrawOverlay r') :=
  agree_modify ⟨{ similar.cache with overlay := similar.cache.overlay.withdraw }, similar.host⟩

theorem setOverlay_agree (link : Linking R) (similar : r.Similar R r') (index : UInt32)
    {a b : Ref} (ab : R a b) :
    Agree (Similar R) (fun _ _ => True) (setOverlay index a r) (setOverlay index b r') := by
  unfold setOverlay
  refine Agree.bind (.ok similar similar) fun x y s t xy st => ?_
  refine Agree.bind (agree_require (by rw [link.isNull_eq ab]) st) fun _ _ s t _ st => ?_
  refine Agree.bind (agree_require (by rw [xy.cache.file]) st) fun _ _ s t _ st => ?_
  refine Agree.bind (agree_require (by rw [xy.host]) st) fun _ _ s t _ st => ?_
  refine Agree.bind (agree_require (by rw [xy.host]) st) fun _ _ s t _ st => ?_
  have stored := xy.cache.overlay.put index.toNat ab
  revert stored
  generalize x.cache.overlay.put? index.toNat a = p
  generalize y.cache.overlay.put? index.toNat b = q
  intro stored
  cases stored with
  | none => exact .error _ st
  | some overlays =>
    refine Agree.bind (agree_modify ⟨?_, st.host⟩) fun _ _ s t _ st => agree_barrier st
    exact { xy.cache with overlay := overlays }

/-! ### Transactions -/

theorem begin_agree (similar : r.Similar R r') :
    Agree (Similar R) (fun _ _ => True) (begin r) (begin r') := by
  unfold begin
  refine Agree.bind (agree_inspect (.of_eq (by rw [similar.host])) similar)
    fun host host' s t same st => ?_
  subst same
  exact agree_putHost st host

theorem commit_agree (similar : r.Similar R r') :
    Agree (Similar R) (fun _ _ => True) (commit r) (commit r') :=
  agree_modify ⟨similar.cache, by rw [similar.host]⟩

theorem clearStrings_agree (link : Linking R) (indices : List UInt32) (similar : r.Similar R r') :
    Agree (Similar R) (fun _ _ => True) (clearStrings indices r) (clearStrings indices r') := by
  induction indices generalizing r r' with
  | nil => exact .ok trivial similar
  | cons index rest ih =>
    exact Agree.bind (clear_agree link similar .string index) fun _ _ s t _ st => ih st

theorem rollback_agree (link : Linking R) (similar : r.Similar R r') :
    Agree (Similar R) (fun _ _ => True) (rollback r) (rollback r') := by
  unfold rollback
  refine Agree.bind (.ok similar similar) fun a b s t ab st => ?_
  rw [ab.host, ab.cache.id]
  exact Agree.bind (agree_putHost st _) fun _ _ s t _ st => clearStrings_agree link _ st

end Resolver

end ResolutionCache
