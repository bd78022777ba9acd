import ResolutionCache.Proofs.Cache.Similar
import ResolutionCache.Proofs.Heap.Reachable

/-!
# Full collections

A full collection of a heap and of the caches that hold its objects marks the roots of all caches,
sweeps the heap, moves every object that is left, sends the roots of all caches after the objects
and ends the epoch (`Estate.collect`). The order in which the objects move is anybody's choice.

`Estate.collect_ok` says what is there in the end: the caches are the old ones with every root sent
by one function, which is one-to-one on the roots; each object that was held is found where the
function says; and nothing else is found. `Estate.collect_error` covers the one way to fail, when
fewer places are left than objects survive.
-/

namespace ResolutionCache

/-! ### Marking and following -/

namespace MarkSet

/-- Marking answers every reference by itself. -/
theorem marking_answers : marking.AnswersBy (fun r => r) := fun _ _ => rfl

theorem contains_insert (s : MarkSet) (a r : Ref) :
    (s.insert a).contains r = (a == r || s.contains r) := by
  simp [MarkSet.insert, MarkSet.contains, Std.HashSet.contains_insert]

/-- **What marking marks:** the references that are shown, and these are the ones that are not
null. -/
theorem contains_after_marking (s : MarkSet) (met : List Ref) (r : Ref) :
    (marking.after s met).contains r = true ↔ s.contains r = true ∨ (r ∈ met ∧ r ≠ .null) := by
  induction met generalizing s with
  | nil => simp [Visitor.after]
  | cons a met ih =>
    have step : (marking.after s (a :: met)) = marking.after (marking.meet a s).2 met := rfl
    rw [step, ih]
    by_cases a_null : a = .null
    · have skipped : (marking.meet a s).2 = s := by simp [Visitor.meet, a_null]; rfl
      rw [skipped, List.mem_cons]
      constructor
      · rintro (marked | ⟨mem, ne⟩)
        · exact .inl marked
        · exact .inr ⟨.inr mem, ne⟩
      · rintro (marked | ⟨rfl | mem, ne⟩)
        · exact .inl marked
        · exact absurd a_null ne
        · exact .inr ⟨mem, ne⟩
    · have shown : (marking.meet a s).2 = s.insert a := by simp [Visitor.meet, a_null]; rfl
      rw [shown, contains_insert, Bool.or_eq_true, beq_iff_eq, List.mem_cons]
      constructor
      · rintro ((rfl | marked) | ⟨mem, ne⟩)
        · exact .inr ⟨.inl rfl, a_null⟩
        · exact .inl marked
        · exact .inr ⟨.inr mem, ne⟩
      · rintro (marked | ⟨rfl | mem, ne⟩)
        · exact .inl (.inr marked)
        · exact .inl (.inl rfl)
        · exact .inr ⟨mem, ne⟩

end MarkSet

namespace Heap

/-- Where a reference is sent: to where its object has gone, or nowhere else. -/
def sending (h : Heap) (r : Ref) : Ref := (h.movedTo? r).getD r

theorem following_answers (h : Heap) : h.following.AnswersBy h.sending := by
  intro r sent
  unfold following sending
  cases h.movedTo? r <;> rfl

/-- **How many references following sends:** all that are shown, if each of them has moved. -/
theorem after_following (h : Heap) (sent : Nat) (met : List Ref)
    (moved : ∀ r ∈ met, r ≠ .null → (h.movedTo? r).isSome) :
    h.following.after sent met = sent + (met.filter (!·.isNull)).length := by
  induction met generalizing sent with
  | nil => rfl
  | cons a met ih =>
    have step : h.following.after sent (a :: met) =
        h.following.after (h.following.meet a sent).2 met := rfl
    rw [step, ih _ fun r mem => moved r (List.mem_cons_of_mem _ mem)]
    by_cases a_null : a = .null
    · simp [Visitor.meet, a_null]
      rfl
    · obtain ⟨t, ht⟩ := Option.isSome_iff_exists.mp (moved a List.mem_cons_self a_null)
      have counted : (h.following.meet a sent).2 = sent + 1 := by
        simp [Visitor.meet, a_null, following, ht]
      have shown : (!a.isNull) = true := by simp [← Address.isNull_iff] at a_null; simp [a_null]
      rw [counted, List.filter_cons, if_pos shown, List.length_cons]
      omega

end Heap

/-! ### Sending nothing anywhere -/

theorem DirectMap.sent_id (m : DirectMap 32) : m.sent (fun r => r) = m := by
  have cell (c : Cell 32) : Cell.ofEntry (c.load.sent fun r => r) = c := by
    unfold Entry.sent
    rw [Address.sent_id]
    exact Cell.ofEntry_load c
  simp [DirectMap.sent, cell]

theorem Overlay.sent_id (o : Overlay) : o.sent (fun r => r) = o := by
  unfold Overlay.sent
  cases found : o.entries? with
  | none => rfl
  | some array =>
    have stored : o.storage = some array := by
      unfold Overlay.entries? at found
      split at found
      · exact found
      · cases found
    have kept : array.map (Address.sent fun r => r) = array := by
      rw [Address.sent_id]
      exact Array.map_id array
    simp only [kept, ← stored]

theorem Cache.sent_id (c : Cache) : c.sent (fun r => r) = c := by
  simp [Cache.sent, DirectMap.sent_id, Overlay.sent_id, ClaimTable.sent]

/-! ### Several caches -/

/-- Leads a visitor over all roots of several caches, one cache after the other. -/
def Cache.scanAll {σ : Type} (v : Visitor 32 σ) : List Cache → σ → List Cache × σ
  | [], s => ([], s)
  | c :: rest, s =>
    let (c, _, s) := c.scan true v s
    let (rest, s) := scanAll v rest s
    (c :: rest, s)

theorem Cache.scanAll_eq {σ : Type} {v : Visitor 32 σ} {f : Ref → Ref} (answers : v.AnswersBy f)
    (caches : List Cache) (s : σ) :
    scanAll v caches s =
      (caches.map (Cache.sent f), v.after s (caches.flatMap Cache.references)) := by
  induction caches generalizing s with
  | nil => rfl
  | cons c rest ih =>
    have step : scanAll v (c :: rest) s =
        ((c.scan true v s).1 :: (scanAll v rest (c.scan true v s).2.2).1,
          (scanAll v rest (c.scan true v s).2.2).2) := rfl
    rw [step, ih, scan_sent answers, scan_state answers]
    simp [Visitor.after]

/-- A heap with the caches that hold its objects. -/
structure Estate where
  heap : Heap
  caches : List Cache

namespace Estate

/-- What a full collection counts. -/
structure Counts where
  /-- Objects freed by the sweep. -/
  freed : Nat
  /-- Objects moved. -/
  moved : Nat
  /-- Roots sent after the objects. -/
  sent : Nat

/-- **A full collection,** with the objects moving in an order of somebody's choice. -/
def collect (s : Shuffle) : Attempt Estate Counts := fun e =>
  let (caches, marks) := Cache.scanAll MarkSet.marking e.caches {}
  let (freed, heap) := e.heap.sweep marks
  match Heap.moveAllBy s heap with
  | .error f heap => .error f { heap, caches }
  | .ok moved heap =>
    let (caches, sent) := Cache.scanAll heap.following caches 0
    .ok { freed, moved, sent } { heap := heap.endEpoch, caches }

/-- The roots of all caches. -/
def roots (e : Estate) : List Ref := e.caches.flatMap Cache.roots

/-- The places of the objects that some cache holds. -/
def survivors (e : Estate) : List Ref := e.heap.objects.keys.filter (e.roots.contains ·)

/-- Every root leads to a live object. -/
def Held (e : Estate) : Prop := ∀ r ∈ e.roots, r ∈ e.heap.objects

/-- The marks that a collection makes. -/
def marks (e : Estate) : MarkSet := MarkSet.marking.after {} (e.caches.flatMap Cache.references)

/-- The heap once a collection has swept it. -/
def swept (e : Estate) : Heap := (e.heap.sweep e.marks).2

theorem mem_roots {e : Estate} {r : Ref} :
    r ∈ e.roots ↔ r ∈ e.caches.flatMap Cache.references ∧ r ≠ .null := by
  simp only [roots, List.mem_flatMap, Cache.mem_roots]
  constructor
  · rintro ⟨c, mem, there, ne⟩
    exact ⟨⟨c, mem, there⟩, ne⟩
  · rintro ⟨⟨c, mem, there⟩, ne⟩
    exact ⟨c, mem, there, ne⟩

/-- Exactly the roots are marked. -/
theorem contains_marks (e : Estate) (r : Ref) : e.marks.contains r = e.roots.contains r := by
  rw [Bool.eq_iff_iff, marks, MarkSet.contains_after_marking, List.contains_iff_mem, mem_roots]
  simp [MarkSet.contains]

theorem keys_swept (e : Estate) : e.swept.objects.keys.Perm e.survivors := by
  have filtered := Std.HashMap.keys_filter_key (m := e.heap.objects) (f := e.roots.contains)
  simp only [swept, Heap.sweep, contains_marks]
  exact filtered

theorem size_swept (e : Estate) : e.swept.objects.size = e.survivors.length := by
  rw [← Std.HashMap.length_keys, e.keys_swept.length_eq]

theorem length_survivors_le (e : Estate) : e.survivors.length ≤ e.heap.objects.size := by
  rw [← Std.HashMap.length_keys]
  exact List.length_filter_le _ _

theorem mem_swept {e : Estate} {r : Ref} :
    r ∈ e.swept.objects ↔ r ∈ e.heap.objects ∧ r ∈ e.roots := by
  rw [swept, Heap.mem_objects_sweep, contains_marks, List.contains_iff_mem]

theorem getElem?_swept {e : Estate} {r : Ref} (held : r ∈ e.roots) :
    e.swept.objects[r]? = e.heap.objects[r]? := by
  rw [swept, Heap.getElem?_objects_sweep, contains_marks, if_pos]
  rwa [List.contains_iff_mem]

/-- A collection is a sweep down to the roots, a move of what is left, and a pass that sends the
roots after it. -/
theorem collect_eq (s : Shuffle) (e : Estate) :
    e.collect s =
      match Heap.moveAllBy s e.swept with
      | .error f heap => .error f { heap, caches := e.caches }
      | .ok moved heap =>
        .ok
          { freed := e.heap.objects.size - e.swept.objects.size
            moved
            sent := heap.following.after 0 (e.caches.flatMap Cache.references) }
          { heap := heap.endEpoch, caches := e.caches.map (Cache.sent heap.sending) } := by
  have marking := Cache.scanAll_eq MarkSet.marking_answers e.caches {}
  have unchanged : e.caches.map (Cache.sent fun r => r) = e.caches := by
    rw [List.map_congr_left fun c _ => Cache.sent_id c, List.map_id']
  rw [unchanged] at marking
  unfold collect
  rw [marking]
  simp only [Cache.scanAll_eq (Heap.following_answers _)]
  rfl

/-- **What a full collection ends with,** when the roots are sent by `f`. -/
structure Collected (e : Estate) (f : Ref → Ref) (count : Counts) (e' : Estate) : Prop where
  caches : e'.caches = e.caches.map (Cache.sent f)
  wellFormed : e'.heap.WellFormed
  next : e'.heap.next.toNat = e.heap.next.toNat + 8 * e.survivors.length
  /-- An object that is held is found where its root was sent. -/
  carried : ∀ r ∈ e.roots, e'.heap.objects[f r]? = e.heap.objects[r]?
  /-- Roots that were apart stay apart. -/
  injective : ∀ r ∈ e.roots, ∀ r' ∈ e.roots, f r = f r' → r = r'
  /-- Nothing but the objects held is found. -/
  onto : ∀ r ∈ e'.heap.objects, ∃ root ∈ e.roots, r = f root
  size : e'.heap.objects.size = e.survivors.length
  freed : count.freed + e.survivors.length = e.heap.objects.size
  moved : count.moved = e.survivors.length
  sent : count.sent = e.roots.length

theorem length_roots (e : Estate) :
    e.roots.length = ((e.caches.flatMap Cache.references).filter (!·.isNull)).length := by
  unfold roots
  induction e.caches with
  | nil => rfl
  | cons c rest ih => simp [Cache.roots, ih]

/-- **A full collection succeeds** if there is a place for every survivor. -/
theorem collect_ok {e : Estate} (s : Shuffle) (wf : e.heap.WellFormed) (held : e.Held)
    (enough : e.survivors.length ≤ e.heap.room) :
    ∃ f count e', e.collect s = .ok count e' ∧ e.Collected f count e' := by
  -- the sweep leaves the roots, and the move takes them all along
  have swept_wf : e.swept.WellFormed := wf.sweep e.marks
  obtain ⟨h', ran, moved⟩ := swept_wf.moveAllBy_ok s (by rw [e.size_swept]; exact enough)
  have listed := s.perm e.swept.objects.keys
  -- every root takes part in the move
  have in_order : ∀ r ∈ e.roots, r ∈ s.apply e.swept.objects.keys := fun r mem =>
    listed.mem_iff.mpr (Std.HashMap.mem_keys.mpr (mem_swept.mpr ⟨held r mem, mem⟩))
  have length : (s.apply e.swept.objects.keys).length = e.survivors.length := by
    rw [listed.length_eq, Std.HashMap.length_keys, e.size_swept]
  have sending : ∀ r ∈ e.roots, h'.sending r = e.swept.dest (s.apply e.swept.objects.keys) r := by
    intro r mem
    unfold Heap.sending Heap.movedTo?
    rw [moved.forwarded r (in_order r mem)]
    rfl
  refine ⟨h'.sending, _, _, by rw [collect_eq, ran], ?_⟩
  constructor
  case caches => rfl
  case wellFormed => exact moved.wellFormed.endEpoch
  case next =>
    show h'.next.toNat = _
    rw [moved.next, length]
    rfl
  case carried =>
    intro r mem
    rw [sending r mem, ← getElem?_swept mem]
    exact moved.arrived r (in_order r mem)
  case injective =>
    intro r mem r' mem' same
    rw [sending r mem, sending r' mem'] at same
    exact Heap.dest_injOn (by rw [length]; exact enough) (in_order r mem) (in_order r' mem') same
  case onto =>
    intro r mem
    -- everything the sweep has left is listed, so nothing stays where it was
    rcases moved.origin r mem with ⟨source, source_mem, rfl⟩ | ⟨there, not_listed⟩
    · have kept := mem_swept.mp (Std.HashMap.mem_keys.mp (listed.mem_iff.mp source_mem))
      exact ⟨source, kept.2, (sending source kept.2).symm⟩
    · exact absurd (listed.mem_iff.mpr (Std.HashMap.mem_keys.mpr there)) not_listed
  case size =>
    show h'.objects.size = _
    rw [moved.size, e.size_swept]
  case freed =>
    have kept : e.swept.objects.size ≤ e.heap.objects.size := Std.HashMap.size_filter_le_size
    show e.heap.objects.size - e.swept.objects.size + _ = _
    rw [e.size_swept] at kept ⊢
    omega
  case moved =>
    show e.swept.objects.size = _
    rw [e.size_swept]
  case sent =>
    show h'.following.after 0 _ = _
    -- every root has moved, so the pass sends and counts each of them
    rw [h'.after_following, Nat.zero_add, length_roots]
    intro r mem ne
    unfold Heap.movedTo?
    rw [moved.forwarded r (in_order r (mem_roots.mpr ⟨mem, ne⟩))]
    rfl

/-- **A full collection fails** if there is not: the address space ends. -/
theorem collect_error {e : Estate} (s : Shuffle) (wf : e.heap.WellFormed)
    (short : e.heap.room < e.survivors.length) :
    ∃ e', e.collect s = .error .spaceExhausted e' ∧ e'.heap.next = 0 := by
  have swept_wf : e.swept.WellFormed := wf.sweep e.marks
  obtain ⟨h', stopped, wrapped⟩ := swept_wf.moveAllBy_error s (by rw [e.size_swept]; exact short)
  exact ⟨_, by rw [collect_eq, stopped], wrapped⟩

/-- A full collection leads from a reachable heap to a reachable heap. -/
theorem reachable_collect {e e' : Estate} {s : Shuffle} {count : Counts}
    (reachable : e.heap.Reachable) (ran : e.collect s = .ok count e') : e'.heap.Reachable := by
  rw [collect_eq] at ran
  cases moved : Heap.moveAllBy s e.swept with
  | error f heap => rw [moved] at ran; cases ran
  | ok n heap =>
    rw [moved] at ran
    cases ran
    exact .endEpoch (.moveAll (.sweep e.marks reachable) moved)

end Estate

end ResolutionCache
