import TypeRegistry.Proofs.Class.History

/-!
# When a change is refused, and what it changes otherwise

The three changes of a block are all or nothing. Each is refused for one of a few reasons, of which
the first that applies is given, and a refusal leaves every block as it was, however much of a list
was in order. A change that is accepted rewrites the order or the bases of its block and nothing
else.

## Main definitions and statements

* `Store.Rewrites`: one block is rewritten, and no other.
* `Store.RefusesCleanly`, `Store.refusesCleanly_mutate`: a refusal changes nothing and names the
  block.
* `Store.ReplacesExactly`, `Store.ExtendsExactly`, `Store.AddsExactly`: when each change is refused,
  with which error, and what it does otherwise.
* `Heap.Reachable.changes_exact`: so it is for every block in memory, in every reachable heap.
-/

namespace TypeRegistry

/-- The block `b'` has all that `b` has but for the order. -/
structure ClassBlock.SameButOrder (b b' : ClassBlock) : Prop where
  name : b'.name = b.name
  table : b'.table = b.table
  bases : b'.bases = b.bases
  isSealed : b'.isSealed = b.isSealed

/-- The block `b'` has all that `b` has but for the bases. -/
structure ClassBlock.SameButBases (b b' : ClassBlock) : Prop where
  name : b'.name = b.name
  table : b'.table = b.table
  linearized : b'.linearized = b.linearized
  ancestors : b'.ancestors = b.ancestors
  isSealed : b'.isSealed = b.isSealed

namespace Store

variable {s s' : Store} {id : ClassId}

/-- The store `s'` has the blocks of `s`, of which `id` alone is rewritten, in the way of `R`. -/
structure Rewrites (R : ClassBlock → ClassBlock → Prop) (id : ClassId) (s s' : Store) : Prop where
  block : R (s.block id) (s'.block id)
  others : ∀ other, other ≠ id → s'.block other = s.block other
  contains_iff : ∀ other, s'.Contains other ↔ s.Contains other

/-- A write of a related block rewrites the block and nothing else. -/
theorem Rewrites.of_set {R : ClassBlock → ClassBlock → Prop} {b : ClassBlock}
    (hid : s.Contains id) (hb : R (s.block id) b) : Rewrites R id s (s.set id b) where
  block := by
    rw [block_set_self hid]
    exact hb
  others _ hother := block_set_of_ne hother b
  contains_iff _ := contains_set

/-- The outcome `o` of a change of the block `id` is all or nothing as far as refusals go: the seal
refuses before anything else does, and a refusal names the block and leaves the store as it was. -/
structure RefusesCleanly (s : Store) (id : ClassId) (o : Outcome Unit) : Prop where
  /-- The seal is the reason exactly for a sealed block. -/
  frozen_iff : o.result = .error (.frozen (s.className id)) ↔ s.isSealed id = true
  className : ∀ e, o.result = .error e → e.className = s.className id
  unchanged : ∀ e, o.result = .error e → o.store = s

/-- What a replacement of the order of the block `id` by `mro` comes to. -/
structure ReplacesExactly (s : Store) (id : ClassId) (mro : List ClassRef) (o : Outcome Unit) : Prop
    extends RefusesCleanly s id o where
  /-- The first entry is another block. -/
  foreignHead_iff : ∀ found, o.result = .error (.foreignHead (s.className id) found) ↔
    s.isSealed id = false ∧
      ∃ head, mro.head? = some head ∧ head.block ≠ id ∧ s.className head.block = found
  /-- The first entry is the block itself, and so is a later one. -/
  ownAncestor_iff : o.result = .error (.ownAncestor (s.className id)) ↔
    s.isSealed id = false ∧ (∃ head, mro.head? = some head ∧ head.block = id) ∧
      ∃ entry ∈ mro.tail, entry.block = id
  ok_iff : o.result = .ok () ↔
    s.isSealed id = false ∧ (∀ head, mro.head? = some head → head.block = id) ∧
      ∀ entry ∈ mro.tail, entry.block ≠ id
  changed : o.result = .ok () → s.Rewrites ClassBlock.SameButOrder id o.store ∧
    o.store.mro id = mro.map ClassRef.toInstantiable

/-- What an extension of the order of the block `id` by `entry` comes to. -/
structure ExtendsExactly (s : Store) (id : ClassId) (entry : ClassRef) (o : Outcome Unit) : Prop
    extends RefusesCleanly s id o where
  /-- The order is empty, and the entry is another block. -/
  foreignHead_iff : ∀ found, o.result = .error (.foreignHead (s.className id) found) ↔
    s.isSealed id = false ∧ s.mro id = [] ∧ entry.block ≠ id ∧ s.className entry.block = found
  /-- The order is begun, and the entry is the block itself. -/
  ownAncestor_iff : o.result = .error (.ownAncestor (s.className id)) ↔
    s.isSealed id = false ∧ s.mro id ≠ [] ∧ entry.block = id
  ok_iff : o.result = .ok () ↔
    s.isSealed id = false ∧
      (s.mro id = [] ∧ entry.block = id ∨ s.mro id ≠ [] ∧ entry.block ≠ id)
  changed : o.result = .ok () → s.Rewrites ClassBlock.SameButOrder id o.store ∧
    o.store.mro id = s.mro id ++ [entry.toInstantiable]

/-- What the addition of `base` to the bases of the block `id` comes to. -/
structure AddsExactly (s : Store) (id : ClassId) (base : Ty) (o : Outcome Unit) : Prop
    extends RefusesCleanly s id o where
  ok_iff : o.result = .ok () ↔ s.isSealed id = false
  changed : o.result = .ok () → s.Rewrites ClassBlock.SameButBases id o.store ∧
    o.store.bases id = s.bases id ++ [base]

/-- A change is refused cleanly when its own errors name the block and are not about the seal:
nothing is written before all of it is accepted. -/
theorem refusesCleanly_mutate
    {change : ClassBlock → Except ClassError (ClassBlock × List Event)}
    (hchange : ∀ e, change (s.block id) = .error e →
      e.className = s.className id ∧ e ≠ .frozen (s.className id)) :
    s.RefusesCleanly id (s.mutate id change) := by
  -- The seal is looked at before the change, and the block is written after it.
  cases hs : s.isSealed id with
  | true =>
      rw [mutate_of_sealed hs]
      refine ⟨by simp [hs], ?_, fun _ _ => rfl⟩
      rintro _ ⟨⟩
      rfl
  | false =>
      cases hr : change (s.block id) with
      | error e =>
          obtain ⟨hname, hother⟩ := hchange e hr
          rw [mutate_of_error hs hr]
          refine ⟨by simp [hs, hother], ?_, fun _ _ => rfl⟩
          rintro _ ⟨⟩
          exact hname
      | ok made =>
          rw [mutate_of_ok hs hr]
          exact ⟨by simp [hs], nofun, nofun⟩

/-- The checks of an order name the block, and say nothing of a seal. -/
theorem requireHead_error {head : ClassRef} {e : ClassError}
    (he : s.requireHead id head = .error e) :
    e.className = s.className id ∧ e ≠ .frozen (s.className id) := by
  rw [requireHead] at he
  split at he
  · cases he
  · cases he
    exact ⟨rfl, by simp⟩

/-- The check for the block among its ancestors names the block, and says nothing of a seal. -/
theorem refuseSelf_error {ancestors : List ClassRef} {e : ClassError}
    (he : s.refuseSelf id ancestors = .error e) :
    e.className = s.className id ∧ e ≠ .frozen (s.className id) := by
  rw [refuseSelf] at he
  split at he
  · cases he
    exact ⟨rfl, by simp⟩
  · cases he

/-- A refused replacement names the block, and says nothing of a seal. -/
theorem reorder_error {b : ClassBlock} {mro : List ClassRef} {e : ClassError}
    (he : s.reorder id b mro = .error e) :
    e.className = s.className id ∧ e ≠ .frozen (s.className id) := by
  rcases mro with _ | ⟨head, rest⟩
  · cases he
  rw [reorder] at he
  -- The head is checked first, and its error is the one that is given.
  cases hhead : s.requireHead id head with
  | error e' =>
      rw [hhead] at he
      cases he
      exact requireHead_error hhead
  | ok =>
      cases hrest : s.refuseSelf id rest with
      | error e' =>
          rw [hhead, hrest] at he
          cases he
          exact refuseSelf_error hrest
      | ok =>
          rw [hhead, hrest] at he
          cases he

/-- An error of a mapped check is the error of the check. -/
theorem error_of_map_eq_error {α β : Type} {f : α → β} {result : Except ClassError α}
    {e : ClassError} (he : result.map f = .error e) : result = .error e := by
  cases result with
  | error e' =>
      cases he
      rfl
  | ok a => cases he

/-- A replacement is refused for the seal, then for the head, then for the rest, and is otherwise
accepted; it changes the order of its block and nothing else. -/
theorem replaceMro_exactly (hid : s.Contains id) (mro : List ClassRef) :
    s.ReplacesExactly id mro (s.replaceMro id mro) := by
  have hclean : s.RefusesCleanly id (s.replaceMro id mro) :=
    refusesCleanly_mutate fun e he => reorder_error (error_of_map_eq_error he)
  -- One equation for each way through the checks: sealed, reset, the block again among its
  -- ancestors, accepted, headed by another block.
  cases hs : s.isSealed id with
  | true =>
      have ho : s.replaceMro id mro = _ := mutate_of_sealed hs
      refine ⟨hclean, ?_, ?_, ?_, ?_⟩ <;> simp [ho, hs]
  | false =>
      rcases mro with _ | ⟨head, rest⟩
      · have ho := replaceMro_nil hs
        refine ⟨hclean, by simp [ho], by simp [ho], by simp [ho, hs], fun _ => ?_⟩
        rw [ho]
        refine ⟨.of_set hid ⟨rfl, rfl, rfl, rfl⟩, ?_⟩
        rw [Store.mro, block_set_self hid, ClassBlock.mro_of_fresh rfl, List.map_nil]
      by_cases hhead : head.block = id
      · by_cases hown : ∃ a ∈ rest, a.block = id
        · have ho := replaceMro_of_own hs hhead hown
          refine ⟨hclean, ?_, ?_, ?_, ?_⟩ <;> simp [ho, hs, hhead, hown]
        · have hrest : ∀ a ∈ rest, a.block ≠ id := fun a ha e => hown ⟨a, ha, e⟩
          have ho := replaceMro_of_others hs hhead hrest
          refine ⟨hclean, ?_, ?_, ?_, fun _ => ?_⟩
          · simp [ho, hhead]
          · simp [ho, hown]
          · simpa [ho, hs, hhead] using hrest
          · rw [ho]
            refine ⟨.of_set hid ⟨rfl, rfl, rfl, rfl⟩, ?_⟩
            rw [Store.mro, block_set_self hid, ClassBlock.mro_of_started rfl]
            simp [ClassRef.toInstantiable, ClassRef.ofBlock, hhead]
      · have ho : s.replaceMro id (head :: rest) = _ := replaceMro_of_foreign hs hhead
        refine ⟨hclean, ?_, ?_, ?_, ?_⟩ <;> simp [ho, hs, hhead]

/-- An extension is refused for the seal, then for a head that is another block or an ancestor that
is the block itself, and is otherwise accepted; it appends to the order that is read, since an
ordered block keeps nothing of an order that is not started. -/
theorem extendMro_exactly (hid : s.Contains id) (hordered : (s.block id).Ordered id)
    (entry : ClassRef) : s.ExtendsExactly id entry (s.extendMro id entry) := by
  have hclean : s.RefusesCleanly id (s.extendMro id entry) := by
    refine refusesCleanly_mutate fun e he => ?_
    split at he
    · exact refuseSelf_error (error_of_map_eq_error he)
    · exact requireHead_error (error_of_map_eq_error he)
  -- As for a replacement, but an order that is begun is asked for an ancestor, and one that is not
  -- for a head.
  cases hs : s.isSealed id with
  | true =>
      have ho : s.extendMro id entry = _ := mutate_of_sealed hs
      refine ⟨hclean, ?_, ?_, ?_, ?_⟩ <;> simp [ho, hs]
  | false =>
      cases horder : (s.block id).linearized with
      | false =>
          have hmro : s.mro id = [] := ClassBlock.mro_of_fresh horder
          by_cases hentry : entry.block = id
          · have ho := extendMro_of_head hs horder hentry
            refine ⟨hclean, by simp [ho, hentry], by simp [ho, hmro],
              by simp [ho, hs, hmro, hentry], fun _ => ?_⟩
            rw [ho]
            refine ⟨.of_set hid ⟨rfl, rfl, rfl, rfl⟩, ?_⟩
            -- Nothing is kept of an order that is not begun, so the block comes alone.
            rw [hmro, Store.mro, block_set_self hid, ClassBlock.mro_of_started rfl,
              hordered.ancestors_eq_nil horder, ← hentry]
            rfl
          · have ho := extendMro_of_foreign hs horder hentry
            refine ⟨hclean, ?_, ?_, ?_, ?_⟩ <;> simp [ho, hs, hmro, hentry]
      | true =>
          have hmro : s.mro id ≠ [] := by
            rw [Store.mro, ClassBlock.mro_of_started horder]
            exact List.cons_ne_nil _ _
          by_cases hentry : entry.block = id
          · have ho := extendMro_of_own hs horder hentry
            refine ⟨hclean, ?_, ?_, ?_, ?_⟩ <;> simp [ho, hs, hmro, hentry]
          · have ho := extendMro_of_other hs horder hentry
            refine ⟨hclean, by simp [ho, hmro], by simp [ho, hentry],
              by simp [ho, hs, hmro, hentry], fun _ => ?_⟩
            rw [ho]
            refine ⟨.of_set hid ⟨rfl, rfl, rfl, rfl⟩, ?_⟩
            rw [Store.mro, block_set_self hid]
            exact ClassBlock.mro_extend horder entry.block

/-- A base is refused for the seal only; it is appended, and nothing else changes. -/
theorem addBase_exactly (hid : s.Contains id) (base : Ty) :
    s.AddsExactly id base (s.addBase id base) := by
  have hclean : s.RefusesCleanly id (s.addBase id base) := refusesCleanly_mutate nofun
  cases hs : s.isSealed id with
  | true =>
      have ho : s.addBase id base = _ := mutate_of_sealed hs
      refine ⟨hclean, ?_, ?_⟩ <;> simp [ho, hs]
  | false =>
      have ho := addBase_of_open hs base
      refine ⟨hclean, by simp [ho, hs], fun _ => ?_⟩
      rw [ho]
      refine ⟨.of_set hid ⟨rfl, rfl, rfl, rfl, rfl⟩, ?_⟩
      rw [Store.bases, block_set_self hid, Store.bases]

end Store

namespace Heap

variable {h : Heap} {id : ClassId}

/-- In every reachable heap each change of a block in memory is refused exactly when it has to be,
with the error for the first reason that applies and the name of the block, and then every block
stays as it was. The seal comes first. A replacement of the order is then refused for a first entry
that is another block, and after that for a later entry that is the block itself, wherever in the
list it stands; an extension is refused for the one as long as the order is empty and for the other
as soon as it is not. An addition to the bases is refused for the seal alone. A change that is
accepted rewrites the order of this block, or its bases, and nothing else. -/
theorem Reachable.changes_exact (hr : h.Reachable) (hlive : id ∈ h.live) :
    (∀ mro, h.store.ReplacesExactly id mro (h.store.replaceMro id mro)) ∧
    (∀ entry, h.store.ExtendsExactly id entry (h.store.extendMro id entry)) ∧
    ∀ base, h.store.AddsExactly id base (h.store.addBase id base) := by
  have hid := hr.sound.contains_of_live id hlive
  refine ⟨?_, ?_, ?_⟩
  · exact Store.replaceMro_exactly hid
  · exact Store.extendMro_exactly hid (hr.ordered id)
  · exact Store.addBase_exactly hid

/-- Two classes, of which the first has the second as an ancestor and the second is sealed. -/
def openAndSealed : List Action :=
  let table := BodyScope.empty.toTable
  let point := ClassRef.ofBlock ⟨0⟩
  let origin := ClassRef.ofBlock ⟨1⟩
  [.call (.create "Point" table), .call (.create "Origin" table),
    .call (.replaceMro point [point, origin]), .call (.sealClass origin)]

/-- An order that names its block again in its last entry, as an instance, changes nothing. Without
that entry it is accepted and nothing but the order is new. The sealed class gives its seal as the
reason also for an order that is headed by another class. -/
theorem changes_exact_openAndSealed :
    let h := empty.run openAndSealed
    let point := ClassRef.ofBlock ⟨0⟩
    let origin := ClassRef.ofBlock ⟨1⟩
    let cyclic := h.store.replaceMro ⟨0⟩ [point, origin, origin, point.toInstance]
    let longer := h.store.replaceMro ⟨0⟩ [point.toInstance, origin.toInstance, origin]
    h.Reachable ∧ (⟨0⟩ ∈ h.live ∧ ⟨1⟩ ∈ h.live) ∧
      (cyclic.result = .error (.ownAncestor "Point") ∧ cyclic.store = h.store) ∧
      (longer.result = .ok () ∧ h.store.Rewrites ClassBlock.SameButOrder ⟨0⟩ longer.store ∧
        longer.store.mro ⟨0⟩ = [point, origin, origin]) ∧
      (h.store.replaceMro ⟨1⟩ [point]).result = .error (.frozen "Origin") := by
  intro h point origin cyclic longer
  have hadm : empty.Admits openAndSealed := by decide
  have hr : h.Reachable := hadm.reachable
  have hpoint : ⟨0⟩ ∈ h.live := by decide
  have horigin : ⟨1⟩ ∈ h.live := by decide
  have hcyclic := hr.changes_exact hpoint |>.1 [point, origin, origin, point.toInstance]
  have hlonger := hr.changes_exact hpoint |>.1 [point.toInstance, origin.toInstance, origin]
  have hsealed := hr.changes_exact horigin |>.1 [point]
  have hcycle : cyclic.result = .error (.ownAncestor "Point") :=
    hcyclic.ownAncestor_iff.2 ⟨rfl, ⟨point, rfl, rfl⟩, point.toInstance, by simp, rfl⟩
  have hok : longer.result = .ok () := by
    refine hlonger.ok_iff.2 ⟨rfl, ?_, by decide⟩
    rintro _ ⟨⟩
    rfl
  obtain ⟨hrewrites, hmro⟩ := hlonger.changed hok
  exact ⟨hr, ⟨hpoint, horigin⟩, ⟨hcycle, hcyclic.unchanged _ hcycle⟩, ⟨hok, hrewrites, hmro⟩,
    hsealed.frozen_iff.2 rfl⟩

end Heap

end TypeRegistry
