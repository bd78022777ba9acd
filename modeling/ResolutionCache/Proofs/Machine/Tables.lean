import ResolutionCache.Proofs.Machine.Deeds
import ResolutionCache.Proofs.Resolver.Filed

/-!
# The tables of a cache on a machine

The five direct mapped tables of a cache are filed from its creation on, whatever is done to it, to
the other caches and to the hosts, and whether it ends or stops with a fault. `Machine.tables_filed`
says so, and what it means for lookups: those that hit are as many as the occupied slots, one for
each.
-/

namespace ResolutionCache.Machine

open Attempt

variable {m : Machine} {number : Nat} {t : Tenant} {c : Cache}

/-- The visitor of the deed, if it leads one over the roots of a cache, answers no reference with
null. -/
def Deed.KeepsFull : Deed → Prop
  | .step (.act _ action) => action.KeepsFull
  | _ => True

/-- The cache has everything filed, and it has the capacities and the file of another. -/
def FiledLike (c c' : Cache) : Prop := c'.Filed ∧ c'.settings = c.settings ∧ c'.file = c.file

theorem Deed.Change.filed {deed : Deed} {c₀ c' : Cache} (change : deed.Change m number c c')
    (keeps : deed.KeepsFull) (filed : FiledLike c₀ c) : FiledLike c₀ c' := by
  obtain ⟨filed, settings, file⟩ := filed
  cases change with
  | @acted action r found same =>
    subst same
    have effect := Resolver.effect_run action r
    obtain ⟨-, file', settings'⟩ := effect.kept
    exact ⟨effect.filed keeps filed, settings'.trans settings, file'.trans file⟩
  | forgot same =>
    subst same
    exact Resolver.clearStrings_filed _ _ ⟨filed, settings, file⟩
  | none _ => exact ⟨filed, settings, file⟩

/-- The machine that deeds leave, one after another, each of which may end or stop. -/
def leaveDeeds (deeds : List Deed) (m : Machine) : Machine :=
  deeds.foldl (fun m deed => deed.leave m) m

theorem leaveDeeds_filed {deeds : List Deed} (keeps : ∀ deed ∈ deeds, deed.KeepsFull)
    (there : m.tenants[number]? = some t) (filed : FiledLike c t.cache) :
    ∃ c', (leaveDeeds deeds m).tenants[number]? = some { t with cache := c' } ∧ FiledLike c c' := by
  induction deeds generalizing m t with
  | nil => exact ⟨t.cache, there, filed⟩
  | cons deed rest ih =>
    obtain ⟨c', after, change⟩ := deed.change there
    have filed' := change.filed (keeps deed List.mem_cons_self) filed
    obtain ⟨c'', later, filed''⟩ :=
      ih (fun deed mem => keeps deed (List.mem_cons_of_mem _ mem)) after filed'
    exact ⟨c'', later, filed''⟩

/-- **Every slot is unused or holds something for an index whose slot it is.** Put a new cache on a
machine and let any deeds happen there, each of which may end or stop with a fault, as long as no
visitor answers a reference with null. Then each of the five tables of the cache has as many slots
as its capacity says, but not more than there are indices. A slot either holds null, owned by an
index whose slot it is not, which is 1 for the first slot and 0 for every other; or it holds
something that is not null for an index that the file has and whose slot it is. In an occupied slot
one index hits and no other; the indices that hit are the owners of the occupied slots, each of them
once, and so they are not more than there are slots. -/
theorem tables_filed {id : CacheId} {file : SymbolFile} {location : Ref} {overrides : Overrides}
    {deeds : List Deed} (created : Cache.create id file location overrides = .ok c)
    (there : m.tenants[number]? = some t) (new : t.cache = c)
    (keeps : ∀ deed ∈ deeds, deed.KeepsFull) :
    ∃ c', (leaveDeeds deeds m).tenants[number]? = some { t with cache := c' } ∧ ∀ kind,
      let capacity := c.settings.capacity kind
      let ids := file.count kind.space
      let table := c'.table kind
      table.size = min capacity.toNat ids.toNat ∧
      (∀ (slot : Nat) e, table.entries[slot]? = some e →
        (e.payload = .null ∧ e.owner = if slot = 0 then 1 else 0) ∨
          (e.payload ≠ .null ∧ e.owner < ids ∧ slotOf e.owner capacity = slot)) ∧
      (table.owners.Nodup ∧ table.owners.length = table.occupied.length ∧
        table.owners.length ≤ min capacity.toNat ids.toNat) ∧
      ∀ host dirty, (kind = .methodType → host.flags.methodHandles = true) →
        (∀ index, Resolver.Hits ⟨c', host, dirty⟩ kind index ↔ index ∈ table.owners) ∧
        ∀ slot e, (slot, e) ∈ table.occupied → ∀ index,
          (Resolver.Hits ⟨c', host, dirty⟩ kind index ∧ slotOf index capacity = slot) ↔
            index = e.owner := by
  subst new
  obtain ⟨accepted, -, fresh⟩ := Cache.of_create_ok created
  obtain ⟨c', after, filed, settings, serves⟩ :=
    leaveDeeds_filed keeps there ⟨fresh.filed, rfl, rfl⟩
  refine ⟨c', after, fun kind => ?_⟩
  have usable := Settings.usable_of_ofOverrides accepted kind
  have at_kind := filed kind
  rw [settings, Cache.ids, serves, fresh.serves] at at_kind
  refine ⟨at_kind.size, fun slot e at_slot => ?_,
    ⟨at_kind.nodup_owners, List.length_map _, at_kind.length_owners_le⟩, ?_⟩
  · rcases at_kind.slots slot e at_slot with rfl | held
    · exact .inl ⟨rfl, rfl⟩
    · exact .inr held
  intro host dirty handles
  have hits (index : UInt32) :
      Resolver.Hits ⟨c', host, dirty⟩ kind index ↔ index ∈ (c'.table kind).owners :=
    Resolver.hits_iff filed (by rwa [settings]) handles
  refine ⟨hits, fun slot e used index => ?_⟩
  rw [hits, at_kind.mem_owners_iff]
  obtain ⟨full, -, here⟩ := at_kind.of_mem_occupied used
  obtain ⟨at_slot, -⟩ := DirectMap.mem_occupied.mp used
  constructor
  · rintro ⟨⟨e', at_slot', rfl, -⟩, rfl⟩
    obtain rfl := Option.some.inj (at_slot.symm.trans at_slot')
    rfl
  · rintro rfl
    exact ⟨⟨e, by rw [here, at_slot], rfl, full⟩, here⟩

/-- A string out of range stops the second set, a visitor answers everything with one place, the
rollback undoes what the transaction resolved, an eviction among it, and one more string is set. -/
def undone : List Deed :=
  [.step (.act 0 (.set .string 0 ⟨8⟩)), .step (.act 0 (.set .string 9 ⟨8⟩)), .step (.begin 0),
    .step (.act 0 (.set .string 1 ⟨16⟩)), .step (.act 0 (.set .string 2 ⟨24⟩)),
    .step (.act 0 (.scan true (fun _ s => (⟨64⟩, s)) ())), .step (.rollback 0 0),
    .step (.act 0 (.set .string 3 ⟨32⟩)), .takeDirty 0]

theorem tables_filed_undone :
    ∃ c', (leaveDeeds undone twoCaches).tenants[0]? = some ⟨c', 0, none⟩ ∧
      c'.strings.occupied = [(1, ⟨⟨32⟩, 3⟩)] ∧
      ∀ index, Resolver.Hits ⟨c', .ofCompiler, none⟩ .string index ↔ index = 3 := by
  have created : Cache.create ⟨1⟩ { location := "core.jar", strings := 4 } .null
      { string := some 2 } = .ok (fourStrings 1) := by decide +kernel
  have there : twoCaches.tenants[0]? = some ⟨fourStrings 1, 0, none⟩ := rfl
  have keeps : ∀ deed ∈ undone, deed.KeepsFull := by
    have full : ∀ (a : Ref) (s : Unit), a ≠ .null → (⟨64⟩ : Ref) ≠ .null :=
      fun _ _ _ => by decide
    simpa [undone, Deed.KeepsFull, Action.KeepsFull, Visitor.KeepsFull] using full
  obtain ⟨c', after, tables⟩ := tables_filed created there rfl keeps
  have left_over : (leaveDeeds undone twoCaches).tenants[0]?.map (·.cache.strings.occupied) =
      some [(1, ⟨⟨32⟩, 3⟩)] := by decide +kernel
  rw [after] at left_over
  have occupied : c'.strings.occupied = [(1, ⟨⟨32⟩, 3⟩)] := Option.some.inj left_over
  refine ⟨c', after, occupied, fun index => ?_⟩
  obtain ⟨-, -, -, lookups⟩ := tables .string
  obtain ⟨hits, -⟩ := lookups .ofCompiler none nofun
  have owners : (c'.table .string).owners = [3] := by
    show c'.strings.occupied.map _ = _
    rw [occupied]
    rfl
  rw [hits, owners, List.mem_singleton]

end ResolutionCache.Machine
