import TypeRegistry.Proofs.Class.Construction
import TypeRegistry.Proofs.Class.Creation
import TypeRegistry.Proofs.Class.Refusal

/-!
# Putting back an order that was read

What is read of a resolution order has its block at the head, which is not kept, and class objects
throughout. Such a list is one that the block takes, at once or entry by entry, and reads alike when
it is written. That depends on the list and the block alone, so an order that was read once can be
put back later, as long as the block is not sealed.

## Main definitions and statements

* `Snapshot`: a list that can be read as the order of a block.
* `Store.PutsBack`: an order is read again, and all else is as it was.
* `ClassBlock.Ordered.snapshot`: the order of a block is one.
* `Snapshot.replaceMro`, `Snapshot.extendEach`, `Snapshot.createWithAncestors`: the three ways to
  write one.
* `Store.store_replaceMro_self`: writing the order that is there changes nothing.
* `Heap.snapshots_restorable`: every order that was read can be put back at every later moment.
-/

namespace TypeRegistry

/-- The list can be read as the order of the block `id`. -/
structure Snapshot (id : ClassId) (order : List ClassRef) : Prop where
  /-- The block is at the head. -/
  head : ∀ head, order.head? = some head → head.block = id
  /-- It is nowhere else. -/
  others : ∀ entry ∈ order.tail, entry.block ≠ id
  /-- All entries are class objects. -/
  instantiable : order.map ClassRef.toInstantiable = order

/-- The outcome `o` of an operation on `s` puts the order of the block `id` back: it is accepted,
the order is read, and all else is as it was. -/
structure Store.PutsBack (s : Store) (id : ClassId) (order : List ClassRef) (o : Outcome Unit) :
    Prop where
  result : o.result = .ok ()
  rewrites : s.Rewrites ClassBlock.SameButOrder id o.store
  mro : o.store.mro id = order

/-- What is read of an ordered block is a snapshot. -/
theorem ClassBlock.Ordered.snapshot {id : ClassId} {b : ClassBlock} (hb : b.Ordered id) :
    Snapshot id (b.mro id) := by
  refine ⟨?_, ?_, ?_⟩
  · intro head hhead
    rcases b.mro_eq_nil_or_cons id with hnil | hcons
    · rw [hnil] at hhead
      cases hhead
    · rw [hcons] at hhead
      cases hhead
      rfl
  · intro entry hentry
    rcases hb.mro_headed with hnil | ⟨rest, hcons, hrest⟩
    · rw [hnil] at hentry
      cases hentry
    · rw [hcons] at hentry
      exact hrest entry hentry
  · -- An order is read as class objects, so taking these changes nothing.
    calc (b.mro id).map ClassRef.toInstantiable
        = (b.mro id).map fun entry => entry := by
          refine List.map_congr_left fun entry hentry => ?_
          rw [ClassRef.toInstantiable, ← flavor_of_mem_mro hentry]
      _ = b.mro id := List.map_id _

namespace Snapshot

variable {s : Store} {id : ClassId} {order : List ClassRef}

/-- A snapshot is taken by its block, and reads alike. -/
theorem replaceMro (hsnap : Snapshot id order) (hid : s.Contains id)
    (hs : s.isSealed id = false) : s.PutsBack id order (s.replaceMro id order) := by
  have hexact := Store.replaceMro_exactly hid order
  have hok := hexact.ok_iff.2 ⟨hs, hsnap.head, hsnap.others⟩
  obtain ⟨hrewrites, hmro⟩ := hexact.changed hok
  exact ⟨hok, hrewrites, hmro.trans hsnap.instantiable⟩

/-- So it is when the order is cleared and the snapshot is written entry by entry. -/
theorem extendEach (hsnap : Snapshot id order) (hid : s.Contains id)
    (hs : s.isSealed id = false) :
    s.PutsBack id order ((s.replaceMro id []).andThen fun _ s => s.extendEach id order) := by
  have hcleared : (s.replaceMro id []).result = .ok () := by rw [Store.replaceMro_nil hs]
  -- Writing it entry by entry is writing it as a whole.
  obtain ⟨hresult, hstore⟩ := Store.replaceMro_append hid hs hcleared order
  rw [List.nil_append] at hresult hstore
  obtain ⟨hok, hrewrites, hmro⟩ := hsnap.replaceMro hid hs
  rw [← hstore hok] at hrewrites hmro
  exact ⟨hresult.trans hok, hrewrites, hmro⟩

/-- A new block takes the ancestors in a snapshot as its own. -/
theorem createWithAncestors (hsnap : Snapshot id order) (hlength : 2 ≤ order.length)
    (hcontains : ∀ entry ∈ order, s.Contains entry.block) (name : String) {table : SymbolTable}
    (htable : table.missingPart? = none) :
    (s.createWithAncestors name table order.tail).result = .ok (.ofBlock s.nextId) ∧
      (s.createWithAncestors name table order.tail).store.mro s.nextId =
        .ofBlock s.nextId :: order.tail := by
  have hne : order.tail ≠ [] := by
    rw [← List.length_pos_iff, List.length_tail]
    omega
  have hothers : ∀ a ∈ order.tail, a.block ≠ s.nextId := fun a ha =>
    Store.ne_nextId (hcontains a (List.mem_of_mem_tail ha))
  rw [Store.createWithAncestors_of_complete name htable hne hothers]
  refine ⟨rfl, ?_⟩
  rw [Store.mro, Store.block_push_nextId, ClassBlock.mro_of_started rfl, ← map_toInstantiable,
    List.map_tail, hsnap.instantiable]

end Snapshot

namespace Store

variable {s : Store} {id : ClassId}

/-- Writing the order that is there is accepted and changes nothing. -/
theorem store_replaceMro_self (hordered : (s.block id).Ordered id) (hs : s.isSealed id = false) :
    (s.replaceMro id (s.mro id)).store = s := by
  cases horder : (s.block id).linearized with
  | false =>
      -- Nothing is kept of an order that is not begun, so clearing it changes nothing.
      have hsame : { s.block id with linearized := false, ancestors := [] } = s.block id := by
        rw [← hordered.ancestors_eq_nil horder, ← horder]
      have hmro : s.mro id = [] := ClassBlock.mro_of_fresh horder
      rw [hmro, replaceMro_nil hs, hsame, set_block]
  | true =>
      have hmro : s.mro id = .ofBlock id :: (s.block id).ancestors.map .ofBlock :=
        ClassBlock.mro_of_started horder
      have hothers : ∀ a ∈ (s.block id).ancestors.map ClassRef.ofBlock, a.block ≠ id := by
        intro a ha heq
        obtain ⟨other, hother, rfl⟩ := List.mem_map.1 ha
        exact hordered.not_mem_ancestors (heq ▸ hother)
      have hblocks : ((s.block id).ancestors.map ClassRef.ofBlock).map (·.block) =
          (s.block id).ancestors := by
        rw [List.map_map]
        exact List.map_id _
      have hhead : (ClassRef.ofBlock id).block = id := rfl
      rw [hmro, replaceMro_of_others hs hhead hothers, hblocks, ← horder, set_block]

end Store

namespace Heap

variable {past later : List Action} {id : ClassId}

/-- Every order that was read can be put back. Take the order of a block at some moment `past` of a
possible run from the start, and any moment after it. If the block is open then, the order is taken
as a whole, and also entry by entry once the present one is cleared; either way it is read again,
entry by entry with its flavors, and nothing else of the block and no other block is changed. The
order that the block has at that moment is taken too, and leaves the store as it is. And a new class
over a complete scope takes the ancestors in the snapshot as its own, if there are any. -/
theorem snapshots_restorable (hadm : empty.Admits (past ++ later))
    (hlive : id ∈ (empty.run past).live) :
    let snapshot := (empty.run past).store.mro id
    let s := (empty.run (past ++ later)).store
    (s.isSealed id = false →
      s.PutsBack id snapshot (s.replaceMro id snapshot) ∧
      s.PutsBack id snapshot
        ((s.replaceMro id []).andThen fun _ s => s.extendEach id snapshot) ∧
      (s.replaceMro id (s.mro id)).result = .ok () ∧
        (s.replaceMro id (s.mro id)).store = s) ∧
    (2 ≤ snapshot.length → ∀ (name : String) (table : SymbolTable), table.missingPart? = none →
      let made := s.createWithAncestors name table snapshot.tail
      made.result = .ok (.ofBlock s.nextId) ∧
        made.store.mro s.nextId = .ofBlock s.nextId :: snapshot.tail) := by
  obtain ⟨hpast, hlater⟩ := admits_append.1 hadm
  have hsnap := (hpast.reachable.ordered id).snapshot
  have hordered := hadm.reachable.ordered id
  -- What was made up to the first moment is there at the second.
  have hcontains {other : ClassId} (hother : other ∈ (empty.run past).live) :
      (empty.run (past ++ later)).store.Contains other := by
    rw [run_append]
    exact hpast.reachable.contains_run hlater
      (hpast.reachable.sound.contains_of_live other hother)
  intro snapshot s
  refine ⟨fun hs => ⟨?_, ?_, ?_, ?_⟩, fun hlength name table htable => ?_⟩
  · exact hsnap.replaceMro (hcontains hlive) hs
  · exact hsnap.extendEach (hcontains hlive) hs
  · exact (hordered.snapshot.replaceMro (hcontains hlive) hs).result
  · exact Store.store_replaceMro_self hordered hs
  · refine hsnap.createWithAncestors hlength (fun entry hentry => hcontains ?_) name htable
    exact hpast.reachable.sound.mem_live_of_mem_mro hlive hentry

/-- A class with two ancestors, one of them twice and through an instance. -/
def layered : List Action :=
  let table := BodyScope.empty.toTable
  let base := ClassRef.ofBlock ⟨0⟩
  let mixin := ClassRef.ofBlock ⟨1⟩
  let point := ClassRef.ofBlock ⟨2⟩
  [.call (.create "Base" table), .call (.create "Mixin" table),
    .call (.createWithAncestors "Point" table [mixin, base]), .copy base .toInstance,
    .call (.extendMro point base.toInstance)]

/-- The class becomes an ancestor of its own ancestor, which is sealed; its order is cleared and
begun anew, and it gets a base. -/
def reworked : List Action :=
  let mixin := ClassRef.ofBlock ⟨1⟩
  let point := ClassRef.ofBlock ⟨2⟩
  [.call (.replaceMro mixin [mixin, point]), .call (.sealClass mixin),
    .call (.replaceMro point []), .call (.extendMro point mixin),
    .call (.extendMro point point), .call (.addBase point (.nominal mixin))]

/-- An order of three classes is put back after it was cleared and set otherwise. -/
theorem snapshots_restorable_layered :
    let base := ClassRef.ofBlock ⟨0⟩
    let mixin := ClassRef.ofBlock ⟨1⟩
    let point := ClassRef.ofBlock ⟨2⟩
    let s := (empty.run (layered ++ reworked)).store
    empty.Admits (layered ++ reworked) ∧ ⟨2⟩ ∈ (empty.run layered).live ∧
      (s.isSealed ⟨2⟩ = false ∧ s.mro ⟨2⟩ = [point]) ∧
      (s.replaceMro ⟨2⟩ [point, mixin, base, base]).store.mro ⟨2⟩ = [point, mixin, base, base] ∧
      (s.createWithAncestors "Copy" BodyScope.empty.toTable [mixin, base, base]).store.mro ⟨3⟩ =
        [.ofBlock ⟨3⟩, mixin, base, base] := by
  intro base mixin point s
  have hadm : empty.Admits (layered ++ reworked) := by decide
  have hlive : ⟨2⟩ ∈ (empty.run layered).live := by decide
  have hs : s.isSealed ⟨2⟩ = false := by decide
  have hmro : (empty.run layered).store.mro ⟨2⟩ = [point, mixin, base, base] := by decide
  obtain ⟨hwrite, hmake⟩ := snapshots_restorable hadm hlive
  rw [hmro] at hwrite hmake
  refine ⟨hadm, hlive, ⟨hs, by decide⟩, (hwrite hs).1.mro, ?_⟩
  exact (hmake (by decide) "Copy" _ rfl).2

end Heap

end TypeRegistry
