import ResolutionCache.Proofs.Cache.Places
import ResolutionCache.Proofs.Machine.Deeds
import ResolutionCache.Proofs.Resolver.Similar

/-!
# Passes over the caches of a machine

A pass over a cache shows its roots to a visitor, each of them once and in the order of their
places, keeps the answers, and tells in the journal how many of them were new. Nothing else on the
machine changes (`Machine.scan_visits_roots`).

A lookup finds nothing but roots. After a pass with a visitor that answers by a function, it finds
what the function makes of what it found (`Resolver.find_sent`).
-/

namespace ResolutionCache

/-! ### Lookups and roots -/

namespace Resolver

variable {f : Ref → Ref} {c : Cache}

/-- A reference and what a pass makes of it. -/
def Shown (f : Ref → Ref) (c : Cache) (a b : Ref) : Prop :=
  b = a.sent f ∧ (a ≠ .null → a ∈ c.roots)

theorem shown_linking (full : ∀ a, a ≠ .null → f a ≠ .null) : Linking (Shown f c) where
  null := ⟨(Address.sent_null f).symm, fun full => absurd rfl full⟩
  null_iff := by
    rintro a b ⟨rfl, -⟩
    constructor
    · rintro rfl
      exact Address.sent_null f
    · intro null
      refine Classical.byContradiction fun ne => full a ne ?_
      rwa [Address.sent_of_ne ne] at null

/-- A cache beside itself with every root sent. -/
theorem similar_sent (f : Ref → Ref) (c : Cache) : c.Similar (Shown f c) (c.sent f) := by
  refine (Cache.Similar.refl c).sent_right ?_ ?_
  · rintro a rfl
    exact ⟨(Address.sent_null f).symm, fun full => absurd rfl full⟩
  · rintro a b root rfl
    exact ⟨(Address.sent_of_ne (Cache.mem_roots.mp root).2).symm, fun _ => root⟩

/-- **What is found is a root,** and after all roots have been sent what is found is where it was
sent. -/
theorem find_sent (full : ∀ a, a ≠ .null → f a ≠ .null) (c : Cache) (host : Host)
    (dirty : Option DirtySet) (kind : ReferenceKind) (index : UInt32) :
    find ⟨c.sent f, host, dirty⟩ kind index =
        (find ⟨c, host, dirty⟩ kind index).map (Option.map f) ∧
      ∀ a, find ⟨c, host, dirty⟩ kind index = .ok (some a) → a ∈ c.roots := by
  have similar : Similar (Shown f c) ⟨c, host, dirty⟩ ⟨c.sent f, host, dirty⟩ :=
    ⟨similar_sent f c, rfl⟩
  have agree := find_agree (shown_linking full) similar kind index
  generalize find ⟨c, host, dirty⟩ kind index = before at agree
  generalize find ⟨c.sent f, host, dirty⟩ kind index = after at agree
  cases agree with
  | error e => exact ⟨rfl, nofun⟩
  | ok found =>
    cases found with
    | none => exact ⟨rfl, nofun⟩
    | some shown =>
      obtain ⟨⟨rfl, root⟩, ne⟩ := shown
      rw [Address.sent_of_ne ne]
      refine ⟨rfl, fun a same => ?_⟩
      cases same
      exact root ne

end Resolver

namespace Machine

open Attempt

variable {m : Machine} {number : Nat} {t : Tenant} {r : Resolver} {σ : Type}

/-- Putting back a resolver in which only the cache has changed changes only the cache. -/
theorem keep_cache (there : m.tenants[number]? = some t) (found : m.resolver? number = some r)
    (c : Cache) :
    m.keep number { r with cache := c } =
      { m with tenants := m.tenants.setIfInBounds number { t with cache := c } } := by
  have back := keep_self found
  have hosts : (m.keep number r).hosts = m.hosts := congrArg Machine.hosts back
  have dirtySets : (m.keep number r).dirtySets = m.dirtySets := congrArg Machine.dirtySets back
  simp only [keep, there] at hosts dirtySets ⊢
  rw [hosts, dirtySets]

/-- A pass over a cache runs to its end and is told of. -/
theorem run_scan (there : m.tenants[number]? = some t) (found : m.resolver? number = some r)
    (withTables : Bool) (v : Visitor 32 σ) (s : σ) :
    (scan number withTables v s).run m =
      .ok (some (t.cache.scan withTables v s).2.2) { m with
        tenants := m.tenants.setIfInBounds number
          { t with cache := (t.cache.scan withTables v s).1 }
        journal := m.journal.push
          (.scanned t.cache.file.location (t.cache.scan withTables v s).2.1) } := by
  obtain ⟨t', there', cache, -⟩ := resolver?_eq_some.mp found
  obtain rfl := Option.some.inj (there.symm.trans there')
  have file := (t.cache.scan_visited withTables v s).file
  calc (scan number withTables v s).run m
      = (do
          report (.scanned t.cache.file.location (t.cache.scan withTables v s).2.1)
          return (t.cache.scan withTables v s).2.2 : Operation σ).run
        (m.keep number { r with cache := (t.cache.scan withTables v s).1 }) := by
        refine bind_some (a := (t.cache.file.location, (t.cache.scan withTables v s).2)) ?_
        rw [run_onCache, found, ← file, cache]
        rfl
    _ = _ := by
        rw [keep_cache there found]
        rfl

/-- **A pass is complete, exact and transparent.** Whatever the cache holds, and whatever the
visitor answers and carries along:
- The roots are the references that are not null, those at all places of the cache if the tables are
  passed over too, and the location alone if they are not. They come in the order of their places,
  so none of them twice.
- The pass ends with the state that the visitor gets to along the roots, and tells of as many
  changes as there are answers that differ from what was shown. Only the cache and the journal are
  changed.
- The cache is then the one that has an answer at the place of every root, keeps at every other
  place what was there, and is the same beside its places.
- If the visitor answers by a function that makes no reference null, each lookup of an object finds
  what the function makes of what it found before, or what it found before if the tables were left
  out. And no lookup finds anything but roots. -/
theorem scan_visits_roots (there : m.tenants[number]? = some t)
    (found : m.resolver? number = some r) (withTables : Bool) (v : Visitor 32 σ) (s : σ) :
    let roots := t.cache.rooted withTables
    let answers := (v.walk roots s).1
    (∀ place a, (place, a) ∈ roots ↔
      (withTables = true ∨ place = .location) ∧ t.cache.kept? place = some a ∧ a ≠ .null) ∧
    roots.Pairwise (·.1.Before ·.1) ∧
    ∃ c', (scan number withTables v s).run m = .ok (some (v.walk roots s).2) { m with
        tenants := m.tenants.setIfInBounds number { t with cache := c' }
        journal := m.journal.push
          (.scanned t.cache.file.location (Visitor.changes roots answers)) } ∧
      (∀ c, c = c' ↔ c.blank = t.cache.blank ∧
        ∀ place, c.kept? place = (answers.lookup place).or (t.cache.kept? place)) ∧
      ∀ host dirty kind index,
        (∀ f, v.AnswersBy f → (∀ a, a ≠ .null → f a ≠ .null) →
          Resolver.find ⟨c', host, dirty⟩ kind index =
            (Resolver.find ⟨t.cache, host, dirty⟩ kind index).map
              (Option.map (if withTables then f else id))) ∧
        ∀ a, Resolver.find ⟨t.cache, host, dirty⟩ kind index = .ok (some a) →
          ∃ place, (place, a) ∈ t.cache.rooted true := by
  intro roots answers
  refine ⟨fun place a => Cache.mem_rooted, Cache.pairwise_rooted withTables t.cache,
    (t.cache.scan withTables v s).1, ?_, fun c => ?_, fun host dirty kind index => ⟨?_, ?_⟩⟩
  · rw [run_scan there found, Cache.scan_walk]
  · constructor
    · rintro rfl
      exact ⟨Cache.blank_scan withTables v t.cache s, Cache.kept?_scan withTables v t.cache s⟩
    · rintro ⟨blank, kept⟩
      refine Cache.eq_of_blank (blank.trans (Cache.blank_scan withTables v t.cache s).symm) ?_
      exact fun place => (kept place).trans (Cache.kept?_scan withTables v t.cache s place).symm
  · intro f answersBy full
    cases withTables with
    | true =>
      rw [Cache.scan_sent answersBy]
      exact (Resolver.find_sent full t.cache host dirty kind index).1
    | false =>
      -- no lookup looks at the location
      have same : Resolver.find ⟨(t.cache.scan false v s).1, host, dirty⟩ kind index =
          Resolver.find ⟨t.cache, host, dirty⟩ kind index := by
        cases kind <;> rfl
      rw [same]
      cases Resolver.find ⟨t.cache, host, dirty⟩ kind index with
      | error e => rfl
      | ok found => cases found <;> rfl
  · intro a hit
    have root : a ∈ t.cache.roots :=
      (Resolver.find_sent (f := id) (fun _ ne => ne) t.cache host dirty kind index).2 a hit
    rw [← Cache.map_snd_rooted] at root
    obtain ⟨⟨place, _⟩, mem, rfl⟩ := List.mem_map.mp root
    exact ⟨place, mem⟩

/-- A cache with references in most of its parts, one of them twice: in the table of strings and in
the overlay. -/
def shelf : Cache :=
  { fourStrings 1 with
    file := { location := "core.jar", strings := 4, callSites := 2 }
    location := ⟨8⟩
    strings := ⟨#[.ofEntry ⟨⟨16⟩, 2⟩, .ofEntry (.vacant 1)]⟩
    callSites := ⟨#[.null, ⟨24⟩]⟩
    overlay :=
      { size := 4, offered := true, count := 4, storage := some #[⟨32⟩, .null, ⟨16⟩, .null] } }

/-- A machine with that cache. -/
def shelved : Machine := { hosts := #[{}], tenants := #[⟨shelf, 0, none⟩] }

/-- Moves every other reference that it is shown. -/
def everyOther : Visitor 32 Bool := fun a moving =>
  (if moving then ⟨a.bits + 64⟩ else a, !moving)

theorem scan_visits_roots_shelved :
    ∃ c', (scan 0 true everyOther true).run shelved = .ok (some false) { shelved with
        tenants := #[⟨c', 0, none⟩]
        journal := #[.scanned "core.jar" 3] } ∧
      c'.kept? (.string 0) = some ⟨16⟩ ∧ c'.kept? (.string 1) = some .null ∧
      c'.kept? (.callSite 1) = some ⟨88⟩ ∧ c'.kept? (.overlay 2) = some ⟨80⟩ := by
  obtain ⟨-, -, c', ran, whole, -⟩ :=
    scan_visits_roots (m := shelved) (t := ⟨shelf, 0, none⟩) (r := ⟨shelf, {}, none⟩)
      (rfl : shelved.tenants[0]? = _) rfl true everyOther true
  obtain ⟨-, kept⟩ := (whole c').mp rfl
  have answers : (everyOther.walk (shelf.rooted true) true).1 =
      [(.location, ⟨72⟩), (.string 0, ⟨16⟩), (.callSite 1, ⟨88⟩), (.overlay 0, ⟨32⟩),
        (.overlay 2, ⟨80⟩)] := by decide +kernel
  have last : (everyOther.walk (shelf.rooted true) true).2 = false := by decide +kernel
  have changes : Visitor.changes (shelf.rooted true) (everyOther.walk (shelf.rooted true) true).1 =
      3 := by decide +kernel
  have empty : shelf.kept? (.string 1) = some .null := by decide +kernel
  dsimp only at ran kept
  rw [changes, last] at ran
  rw [answers] at kept
  exact ⟨c', ran, kept (.string 0), (kept (.string 1)).trans empty, kept (.callSite 1),
    kept (.overlay 2)⟩

end Machine

end ResolutionCache
