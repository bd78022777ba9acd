import ResolutionCache.Proofs.Machine.Scans

/-!
# Relocated copies of the parts of a cache

An image of a cache is made by copying its tables, its call sites and its overlay over destinations,
with every reference relocated on the way. What such a copy has is what a pass with the same visitor
would leave in the cache, and the visitor is led along the same references; but the cache itself
stays as it is. `Machine.copies_agree_with_scans` says so for everything that a table may hold and
for visitors that answer as they like.
-/

namespace ResolutionCache

/-! ### Copies and passes -/

section

variable {σ : Type} {w : Nat}

/-- **A copy of a table of references** has what a pass would leave in the table. -/
theorem DirectMap.copyOver_eq_scan (m : DirectMap 32) (v : Visitor 32 σ)
    (destination : Array (Entry 32)) (s : σ) :
    m.copyOver v (destination, s) =
      if destination.size = m.size then .ok () ((m.scan v s).1.entries, (m.scan v s).2)
      else .error (.sizeMismatch destination.size m.size) (destination, s) := by
  rw [copyOver_eq, mapM_relocated_eq_scan]

/-- **A copy of a claim table** has what a pass would leave in the table. -/
theorem ClaimTable.copyOver_eq_scan (t : ClaimTable) (v : Visitor 32 σ) (destination : Array Ref)
    (s : σ) :
    t.copyOver v (destination, s) =
      if destination.size = t.size then .ok () ((t.scan v s).1.entries, (t.scan v s).2)
      else .error (.sizeMismatch destination.size t.size) (destination, s) :=
  t.copyOver_eq v destination s

/-- **A copy of an overlay** has what a pass would leave in the array that is offered. -/
theorem Overlay.copyOver_eq_scan (o : Overlay) (v : Visitor 32 σ) (destination : Array Ref)
    (s : σ) :
    o.copyOver v (destination, s) =
      match o.entries? with
      | none => .ok () (destination, s)
      | some array =>
        if destination.size = array.size then
          .ok () ((o.scan v s).1.references.toArray, (o.scan v s).2)
        else .error (.sizeMismatch destination.size array.size) (destination, s) := by
  unfold copyOver
  cases found : o.entries? with
  | none => rfl
  | some array =>
    have copied := ClaimTable.copyOver_eq ⟨array⟩ v destination s
    have left_over : (o.scan v s).1.references.toArray = (v.meetAll array s).1 := by
      rw [references, entries?_scan_of_some found]
      rfl
    rw [left_over, scan_of_some found]
    exact copied

/-- **A copy of any table** keeps the owners. The visitor is shown the payloads that are not null,
in the order of their slots, and its answers are put in their places. -/
theorem DirectMap.copyOver_eq_of_size (m : DirectMap w) (v : Visitor w σ)
    {destination : Array (Entry w)} (fits : destination.size = m.size) (s : σ) :
    ∃ copy, m.copyOver v (destination, s) =
        .ok () (copy, ((m.payloads.filter (!·.isNull)).mapM v s).2) ∧
      copy.map Entry.owner = m.entries.map Entry.owner ∧
      copy.toList.map Entry.payload = (m.payloads.mapM v.meet s).1 := by
  have payloads := m.payloads_mapM_relocated v s
  refine ⟨(m.cells.mapM (Cell.relocated v) s).1, ?_, m.owners_mapM_relocated v s,
    congrArg Prod.fst payloads⟩
  have state : (m.cells.mapM (Cell.relocated v) s).2 = (m.payloads.mapM v.meet s).2 :=
    congrArg Prod.snd payloads
  rw [copyOver_eq, if_pos fits, ← Visitor.mapM_meet_state, ← state]
  rfl

end

/-! ### Copies on a machine -/

namespace Machine

open Attempt

variable {m : Machine} {number : Nat} {t : Tenant} {r : Resolver} {α β σ : Type}

/-- What a machine answers and what it becomes when it has asked a cache something: it may tell of
it in the journal, and changes nothing else. -/
def settle (m : Machine) (tell : Array Event → Array Event) :
    Except Fault α → EStateM.Result Fault Machine (Option α)
  | .ok a => .ok (some a) { m with journal := tell m.journal }
  | .error fault => .error fault m

theorem run_inspecting (found : m.resolver? number = some r)
    (question : Resolver → Except Fault α) :
    (onCache number (inspect question)).run m = m.settle id (question r) := by
  rw [run_onCache, found]
  cases answer : question r with
  | ok a =>
    simp only [inspect_ok answer, keep_self found]
    rfl
  | error fault =>
    simp only [inspect_error answer, keep_self found]
    rfl

/-- Asking a cache something and telling of it. -/
theorem run_telling (there : m.tenants[number]? = some t) (found : m.resolver? number = some r)
    (question : Resolver → Except Fault α) (event : Cache → Event) :
    (do
      let c ← cache number
      let answer ← onCache number (inspect question)
      report (event c)
      return answer : Operation α).run m =
      m.settle (·.push (event t.cache)) (question r) := by
  have named : (cache number).run m = .ok (some t.cache) m := by rw [run_cache, there]
  have asked := run_inspecting found question
  rw [bind_some named]
  cases answer : question r with
  | ok a =>
    rw [answer] at asked
    rw [bind_some asked]
    rfl
  | error fault =>
    rw [answer] at asked
    rw [OptionT.run_bind, Option.elimM, bind_error asked]
    rfl

/-- The same for a copy that has gone over its destination. -/
def answerCopy (m : Machine) (tell : Array Event → Array Event) :
    EStateM.Result Fault (Array β × σ) Unit → EStateM.Result Fault Machine (Option (Array β × σ))
  | .ok () copied => .ok (some copied) { m with journal := tell m.journal }
  | .error fault _ => .error fault m

theorem answerCopy_onto (m : Machine) (tell : Array Event → Array Event) (destination : Array β)
    (s : σ) (copied : Except Fault (Array β × σ)) :
    m.answerCopy tell (onto destination s copied) = m.settle tell copied := by
  cases copied <;> rfl

/-- **Copies and passes agree.** Take any visitor, one that carries a state from one reference to
the next or answers with null as well, and any destination, whatever it holds:
- Going over a destination of its own size, a copy of a table of references or of a claim table
  leaves there, with the owners, just the entries that a pass would leave in the table, and the
  visitor gets to the same state. So does a copy of an overlay, but while the overlay is off neither
  the copy nor the pass does anything, whatever the size of the destination.
- A copy of a table of any width keeps all owners. It leads the visitor along the payloads that are
  not null, in the order of their slots, and puts the answers in their places.
- Going over a destination of another size, each of them stops before anything is written or shown.
- On a machine a copy is answered like that. It is told of in the journal, except that of an
  overlay, and nothing else of the machine changes. -/
theorem copies_agree_with_scans (there : m.tenants[number]? = some t)
    (found : m.resolver? number = some r) :
    (∀ (table : DirectMap 32) (v : Visitor 32 σ) destination s,
      table.copyOver v (destination, s) =
        if destination.size = table.size then
          .ok () ((table.scan v s).1.entries, (table.scan v s).2)
        else .error (.sizeMismatch destination.size table.size) (destination, s)) ∧
    (∀ (table : ClaimTable) (v : Visitor 32 σ) destination s,
      table.copyOver v (destination, s) =
        if destination.size = table.size then
          .ok () ((table.scan v s).1.entries, (table.scan v s).2)
        else .error (.sizeMismatch destination.size table.size) (destination, s)) ∧
    (∀ (overlay : Overlay) (v : Visitor 32 σ) destination s,
      (∀ array, overlay.entries? = some array →
        overlay.copyOver v (destination, s) =
          if destination.size = array.size then
            .ok () ((overlay.scan v s).1.references.toArray, (overlay.scan v s).2)
          else .error (.sizeMismatch destination.size array.size) (destination, s)) ∧
      (overlay.entries? = none →
        overlay.copyOver v (destination, s) = .ok () (destination, s) ∧
          overlay.scan v s = (overlay, s))) ∧
    (∀ w (table : DirectMap w) (v : Visitor w σ) destination s,
      if destination.size = table.size then
        ∃ copy, table.copyOver v (destination, s) =
            .ok () (copy, ((table.payloads.filter (!·.isNull)).mapM v s).2) ∧
          copy.map Entry.owner = table.entries.map Entry.owner ∧
          copy.toList.map Entry.payload = (table.payloads.mapM v.meet s).1
      else
        table.copyOver v (destination, s) =
          .error (.sizeMismatch destination.size table.size) (destination, s)) ∧
    (∀ kind (v : Visitor kind.width σ) destination s,
      (copyTable number kind v destination s).run m =
        m.answerCopy (·.push (.copied kind destination.size t.cache.file.location))
          ((t.cache.table kind).copyOver v (destination, s))) ∧
    ∀ (v : Visitor 32 σ) destination s,
      (copyCallSites number v destination s).run m =
        m.answerCopy (·.push (.copiedCallSites destination.size t.cache.file.location))
          (t.cache.callSites.copyOver v (destination, s)) ∧
      (copyOverlay number v destination s).run m =
        m.answerCopy id (t.cache.overlay.copyOver v (destination, s)) := by
  obtain ⟨t', there', same, -⟩ := resolver?_eq_some.mp found
  obtain rfl := Option.some.inj (there.symm.trans there')
  obtain ⟨c, host, dirty⟩ := r
  obtain rfl : t.cache = c := same
  refine ⟨fun table => table.copyOver_eq_scan, fun table => table.copyOver_eq_scan, ?_, ?_, ?_, ?_⟩
  · intro overlay v destination s
    have copied := overlay.copyOver_eq_scan v destination s
    refine ⟨fun array on => ?_, fun off => ⟨?_, Overlay.scan_of_none off v s⟩⟩
    · rwa [on] at copied
    · rwa [off] at copied
  · intro w table v destination s
    split
    · exact table.copyOver_eq_of_size v ‹_› s
    · rw [table.copyOver_eq, if_neg ‹_›]
  · intro kind v destination s
    rw [DirectMap.copyOver_eq_copyInto, answerCopy_onto]
    exact run_telling there found (fun r => (r.cache.table kind).copyInto v destination s)
      fun c => .copied kind destination.size c.file.location
  · intro v destination s
    rw [ClaimTable.copyOver_eq_copyInto, Overlay.copyOver_eq_copyInto, answerCopy_onto,
      answerCopy_onto]
    constructor
    · exact run_telling there found (fun r => r.cache.callSites.copyInto v destination s)
        fun c => .copiedCallSites destination.size c.file.location
    · exact run_inspecting found fun r => r.cache.overlay.copyInto v destination s

/-- Over a destination of its size the table of strings is copied, null entry and all, whatever was
there; over a shorter one it is not. -/
theorem copies_agree_with_scans_shelved :
    (copyTable 0 .string everyOther #[⟨⟨1⟩, 7⟩, ⟨⟨2⟩, 9⟩] true).run shelved =
        .ok (some (#[⟨⟨80⟩, 2⟩, .vacant 1], false))
          { shelved with journal := #[.copied .string 2 "core.jar"] } ∧
      (copyTable 0 .string everyOther #[⟨⟨1⟩, 7⟩] true).run shelved =
        .error (.sizeMismatch 1 2) shelved := by
  obtain ⟨overReferences, -, -, -, onMachine, -⟩ :=
    copies_agree_with_scans (m := shelved) (t := ⟨shelf, 0, none⟩) (r := ⟨shelf, {}, none⟩)
      (σ := Bool) (rfl : shelved.tenants[0]? = _) rfl
  have entries : (shelf.strings.scan everyOther true).1.entries =
      #[⟨⟨80⟩, 2⟩, .vacant 1] := by decide +kernel
  have last : (shelf.strings.scan everyOther true).2 = false := by decide +kernel
  constructor
  · have copied := overReferences shelf.strings everyOther #[⟨⟨1⟩, 7⟩, ⟨⟨2⟩, 9⟩] true
    rw [entries, last, if_pos (by decide)] at copied
    exact (onMachine .string everyOther _ true).trans (congrArg (shelved.answerCopy _) copied)
  · have refused := overReferences shelf.strings everyOther #[⟨⟨1⟩, 7⟩] true
    rw [if_neg (by decide)] at refused
    exact (onMachine .string everyOther _ true).trans (congrArg (shelved.answerCopy _) refused)

end Machine

end ResolutionCache
