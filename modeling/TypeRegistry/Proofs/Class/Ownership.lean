import TypeRegistry.Proofs.Class.Heap

/-!
# Ownership

A block is freed only when nothing points at it, so a pointer never leads to a block that was freed.
Handles point at blocks in memory, and blocks in memory point at blocks in memory: what is read of
a block can be used.

## Main statements

* `Heap.Sound`: every pointer leads to a block in memory.
* `Heap.Sound.next`: every possible action keeps a heap sound.
* `Heap.Reachable.sound`: every reachable heap is sound.
* `Heap.BlockStep`, `Heap.Sound.block_next`: what an action can do to one block.
* `Heap.Reachable.block_run`, `Heap.Reachable.block_induction`: what holds of a block later on, and
  of every block.
-/

namespace TypeRegistry

/-- A block points at its ancestors and at the classes in its bases. -/
theorem ClassBlock.mem_owned {b : ClassBlock} {id : ClassId} :
    id ∈ b.owned ↔ id ∈ b.ancestors ∨ ∃ base ∈ b.bases, ∃ c ∈ base.classes, c.block = id := by
  simp [owned]

/-- An entry of a resolution order is the block itself or one of its ancestors. -/
theorem ClassBlock.block_mem_of_mem_mro {b : ClassBlock} {id : ClassId} {entry : ClassRef}
    (hentry : entry ∈ b.mro id) : entry.block = id ∨ entry.block ∈ b.ancestors := by
  obtain ⟨other, hother, rfl⟩ := ClassBlock.exists_block_of_mem_mro hentry
  exact List.mem_cons.1 hother

/-- A changed block points at nothing but what it pointed at before and the classes of the call. -/
theorem Effect.owned_subset {b b' : ClassBlock} {call : Call} (heffect : Effect b call b') :
    ∀ id ∈ b'.owned, id ∈ b.owned ∨ ∃ c ∈ call.references, c.block = id := by
  intro id hid
  rw [ClassBlock.mem_owned] at hid ⊢
  -- By what the call did: a cleared order is gone, a new one and an appended entry came with the
  -- call, and so did an added base.
  cases heffect with
  | clear =>
      rcases hid with hid | hid
      · cases hid
      · exact .inl (.inr hid)
  | @reorder c head rest =>
      rcases hid with hid | hid
      · obtain ⟨a, ha, rfl⟩ := List.mem_map.1 hid
        exact .inr ⟨a, by simp [Call.references, ha], rfl⟩
      · exact .inl (.inr hid)
  | start => exact .inl hid
  | @extend c entry =>
      rcases hid with hid | hid
      · rcases List.mem_append.1 hid with hid | hid
        · exact .inl (.inl hid)
        · rw [List.mem_singleton.1 hid]
          exact .inr ⟨entry, by simp [Call.references], rfl⟩
      · exact .inl (.inr hid)
  | @addBase c base =>
      rcases hid with hid | ⟨other, hother, d, hd, rfl⟩
      · exact .inl (.inl hid)
      · rcases List.mem_append.1 hother with hother | hother
        · exact .inl (.inr ⟨other, hother, d, hd, rfl⟩)
        · rw [List.mem_singleton.1 hother] at hd
          exact .inr ⟨d, List.mem_cons_of_mem _ hd, rfl⟩
  | sealBlock => exact .inl hid

/-- A new block points at the classes of the call that made it. -/
theorem Birth.owned_subset {new : ClassId} {b : ClassBlock} {call : Call}
    (hbirth : Birth new call b) : ∀ id ∈ b.owned, ∃ c ∈ call.references, c.block = id := by
  intro id hid
  rw [ClassBlock.mem_owned] at hid
  cases hbirth with
  | plain => simp at hid
  | ordered => simpa [Call.references] using hid

/-- A copy of a handle points at the same block. -/
theorem ClassRef.block_copy (c : ClassRef) (mode : CopyMode) : (c.copy mode).block = c.block := by
  cases mode <;> rfl

namespace Heap

variable {h : Heap} {action : Action}

/-- Every pointer leads to a block that is in memory, and every such block was made. -/
structure Sound (h : Heap) : Prop where
  /-- A handle points at a block in memory. -/
  held_live : ∀ c ∈ h.held, c.block ∈ h.live
  /-- A block in memory points at blocks in memory. -/
  owned_live : ∀ id ∈ h.live, ∀ other ∈ (h.store.block id).owned, other ∈ h.live
  /-- A block in memory was made. -/
  contains_of_live : ∀ id ∈ h.live, h.store.Contains id

/-- The classes of a possible call exist. -/
theorem Sound.contains_references (hs : h.Sound) {call : Call} (ha : h.Allows (.call call)) :
    ∀ c ∈ call.references, h.store.Contains c.block := by
  intro c hc
  exact hs.contains_of_live _ (hs.held_live c (ha c hc))

/-- A call with handles on blocks in memory leaves a sound heap: what it made is held, and what it
wrote points at blocks of its handles. -/
theorem Sound.next_call (hs : h.Sound) {call : Call} (ha : h.Allows (.call call)) :
    (h.next (.call call)).Sound := by
  have hperformed := Store.performed (hs.contains_references ha)
  rw [next]
  generalize (h.store.perform call).result = result,
    (h.store.perform call).store = store at hperformed
  cases hperformed with
  | refused => exact ⟨hs.held_live, hs.owned_live, hs.contains_of_live⟩
  | @changed c b hc heffect =>
      have hlive : c.block ∈ h.live := hs.held_live c (ha c (Call.receiver_mem_references hc))
      refine ⟨hs.held_live, ?_, ?_⟩
      · intro id hid other hother
        -- Only the receiver was written, and what it points at now came with the call.
        by_cases heq : id = c.block
        · subst heq
          rw [settle_ok_none, Store.block_set_self (hs.contains_of_live _ hid)] at hother
          rcases heffect.owned_subset other hother with hbefore | ⟨d, hd, rfl⟩
          · exact hs.owned_live _ hid other hbefore
          · exact hs.held_live d (ha d hd)
        · rw [settle_ok_none, Store.block_set_of_ne heq] at hother
          exact hs.owned_live id hid other hother
      · intro id hid
        exact Store.contains_set.2 (hs.contains_of_live id hid)
  | @created b hbirth =>
      rw [settle_ok_ofBlock]
      refine ⟨?_, ?_, ?_⟩
      · intro c hc
        rcases List.mem_cons.1 hc with rfl | hc
        · exact List.mem_cons_self
        · exact List.mem_cons_of_mem _ (hs.held_live c hc)
      · intro id hid other hother
        -- The ancestors of a new block are held by the caller; older blocks are as they were.
        rcases List.mem_cons.1 hid with rfl | hid
        · rw [Store.block_push_nextId] at hother
          obtain ⟨d, hd, rfl⟩ := hbirth.owned_subset other hother
          exact List.mem_cons_of_mem _ (hs.held_live d (ha d hd))
        · rw [Store.block_push_of_ne (Store.ne_nextId (hs.contains_of_live id hid))] at hother
          exact List.mem_cons_of_mem _ (hs.owned_live id hid other hother)
      · intro id hid
        rcases List.mem_cons.1 hid with rfl | hid
        · exact Store.contains_push_nextId _ _
        · exact Store.contains_push.2 (.inl (hs.contains_of_live id hid))

/-- A heap stays sound when a handle on a block in memory is added. -/
theorem Sound.hold (hs : h.Sound) {c : ClassRef} (hc : c.block ∈ h.live) :
    Sound { h with held := c :: h.held } := by
  refine ⟨?_, hs.owned_live, hs.contains_of_live⟩
  intro d hd
  rcases List.mem_cons.1 hd with rfl | hd
  · exact hc
  · exact hs.held_live d hd

/-- Every possible action keeps a heap sound. -/
theorem Sound.next (hs : h.Sound) (ha : h.Allows action) : (h.next action).Sound := by
  cases action with
  | call call => exact hs.next_call ha
  -- A copy, an entry and a class inside a base are new handles on blocks that old ones lead to.
  | copy c mode =>
      refine hs.hold ?_
      rw [ClassRef.block_copy]
      exact hs.held_live c ha
  | takeEntry c entry =>
      obtain ⟨hc, hentry⟩ := ha
      refine hs.hold ?_
      -- An entry that is read is the block of the handle or one that this block keeps.
      rcases ClassBlock.block_mem_of_mem_mro hentry with heq | hancestor
      · rw [heq]
        exact hs.held_live c hc
      · exact hs.owned_live _ (hs.held_live c hc) _ (ClassBlock.mem_owned.2 (.inl hancestor))
  | takeFromBase c found =>
      obtain ⟨hc, base, hbase, hfound⟩ := ha
      have howned : found.block ∈ (h.store.block c.block).owned :=
        ClassBlock.mem_owned.2 (.inr ⟨base, hbase, found, hfound, rfl⟩)
      exact hs.hold (hs.owned_live _ (hs.held_live c hc) _ howned)
  | drop c =>
      refine ⟨?_, hs.owned_live, hs.contains_of_live⟩
      intro d hd
      exact hs.held_live d (List.mem_of_mem_erase hd)
  | free id =>
      obtain ⟨-, hheld, howned⟩ := ha
      -- Nothing points at the freed block, so every pointer still leads to a block in memory.
      refine ⟨?_, ?_, ?_⟩
      · intro c hc
        exact List.mem_filter.2 ⟨hs.held_live c hc, by simpa using hheld c hc⟩
      · intro other hother target htarget
        have hlive := (List.mem_filter.1 hother).1
        have hne : target ≠ id := fun e => howned other hlive (e ▸ htarget)
        exact List.mem_filter.2 ⟨hs.owned_live other hlive target htarget, by simpa using hne⟩
      · intro other hother
        exact hs.contains_of_live other (List.mem_filter.1 hother).1

/-- In a reachable heap every pointer leads to a block in memory. -/
theorem Reachable.sound (hr : h.Reachable) : h.Sound := by
  refine hr.induction ⟨nofun, nofun, nofun⟩ ?_
  intro h action _ hs ha
  exact hs.next ha

/-- A block that was made stays made. -/
theorem Sound.contains_next (hs : h.Sound) (ha : h.Allows action) {id : ClassId}
    (hid : h.store.Contains id) : (h.next action).store.Contains id := by
  cases action with
  | call call => exact (Store.performed (hs.contains_references ha)).contains hid
  | copy | takeEntry | takeFromBase | drop | free => exact hid

/-- What an action can do to the block `id`, and what is recorded of it. -/
inductive BlockStep (h : Heap) (action : Action) (id : ClassId) : Prop
  /-- The block stays as it is, and no call on it is accepted. -/
  | kept (hblock : (h.next action).store.block id = h.store.block id)
      (hcalls : acceptedCalls id (h.record? action).toList = [])
  /-- A call on the block is accepted. -/
  | changed {call : Call} {c : ClassRef} (hcall : action = .call call)
      (hc : call.receiver? = some c) (hid : c.block = id)
      (hcalls : acceptedCalls id (h.record? action).toList = [call])
      (heffect : Effect (h.store.block id) call ((h.next action).store.block id))
  /-- A call makes the block. -/
  | created {call : Call} (hcall : action = .call call) (hnew : ¬h.store.Contains id)
      (hmade : (h.next action).store.Contains id)
      (hcalls : acceptedCalls id (h.record? action).toList = [call])
      (hbirth : Birth id call ((h.next action).store.block id))

/-- An action leaves a block as it is, or is a call on it that is accepted, or makes it. -/
theorem Sound.block_next (hs : h.Sound) (ha : h.Allows action) (id : ClassId) :
    BlockStep h action id := by
  cases action with
  | call call =>
      have hrefs := hs.contains_references ha
      have hperformed := Store.performed hrefs
      -- The next heap and the record speak of one outcome, which the cases are on.
      have hnext : h.next (.call call) =
        h.settle (h.store.perform call).result (h.store.perform call).store := rfl
      have hrecord : (h.record? (.call call)).toList =
        [⟨call, (h.store.perform call).result, (h.store.perform call).events⟩] := rfl
      generalize (h.store.perform call).result = result,
        (h.store.perform call).store = store at hperformed hnext hrecord
      cases hperformed with
      | refused =>
          refine .kept ?_ ?_
          · rw [hnext, settle_error]
          · rw [hrecord, acceptedCalls_of_other (by simp [Record.subject?])]
      | @changed c b hc heffect =>
          have hsubject : Record.subject? ⟨call, .ok none, (h.store.perform call).events⟩ =
              some c.block := by
            simp [Record.subject?, hc]
          by_cases hid : c.block = id
          · subst hid
            have hcontains := hrefs c (Call.receiver_mem_references hc)
            refine .changed rfl hc rfl ?_ ?_
            · rw [hrecord, acceptedCalls_of_subject hsubject]
            · rw [hnext, settle_ok_none, Store.block_set_self hcontains]
              exact heffect
          · refine .kept ?_ ?_
            · rw [hnext, settle_ok_none, Store.block_set_of_ne (Ne.symm hid)]
            · rw [hrecord, acceptedCalls_of_other (by simpa [hsubject] using hid)]
      | @created b hbirth =>
          have hsubject : Record.subject? ⟨call, .ok (some (.ofBlock h.store.nextId)),
              (h.store.perform call).events⟩ = some h.store.nextId := rfl
          by_cases hid : h.store.nextId = id
          · subst hid
            refine .created rfl (fun hcontains => Store.ne_nextId hcontains rfl) ?_ ?_ ?_
            · rw [hnext, settle_ok_ofBlock]
              exact Store.contains_push_nextId _ _
            · rw [hrecord, acceptedCalls_of_subject hsubject]
            · rw [hnext, settle_ok_ofBlock, Store.block_push_nextId]
              exact hbirth
          · refine .kept ?_ ?_
            · rw [hnext, settle_ok_ofBlock, Store.block_push_of_ne (Ne.symm hid)]
            · rw [hrecord, acceptedCalls_of_other (by simpa [hsubject] using hid)]
  | copy | takeEntry | takeFromBase | drop | free => exact .kept rfl rfl

/-- What a block points at after an action was made before it, if it was so for every block. -/
theorem Sound.owned_next (hs : h.Sound) (ha : h.Allows action)
    (howned : ∀ id, ∀ other ∈ (h.store.block id).owned, h.store.Contains other) (id : ClassId) :
    ∀ other ∈ ((h.next action).store.block id).owned, h.store.Contains other := by
  intro other hother
  -- A block that stays points where it did; a written one also at blocks of the call.
  cases hs.block_next ha id with
  | kept hblock _ =>
      rw [hblock] at hother
      exact howned id other hother
  | changed hcall _ _ _ heffect =>
      subst hcall
      rcases heffect.owned_subset other hother with hbefore | ⟨d, hd, rfl⟩
      · exact howned id other hbefore
      · exact hs.contains_references ha d hd
  | created hcall _ _ _ hbirth =>
      subst hcall
      obtain ⟨d, hd, rfl⟩ := hbirth.owned_subset other hother
      exact hs.contains_references ha d hd

/-- A block points at blocks that were made, also when it was freed itself. -/
theorem Reachable.owned_made (hr : h.Reachable) (id : ClassId) :
    ∀ other ∈ (h.store.block id).owned, h.store.Contains other := by
  -- For every block at once, since a block is written from the handles on others.
  revert id
  refine hr.induction (P := fun h => ∀ id, ∀ other ∈ (h.store.block id).owned,
    h.store.Contains other) nofun ?_
  intro h action hr howned ha id other hother
  exact hr.sound.contains_next ha (hr.sound.owned_next ha howned id other hother)

/-- A block that was made stays made, and what holds of it and is kept by every accepted call on it
holds of it after every possible run. -/
theorem Reachable.block_run {P : ClassBlock → Prop} {id : ClassId} {later : List Action}
    (hr : h.Reachable) (hadm : h.Admits later) (hid : h.store.Contains id)
    (hP : P (h.store.block id))
    (heffect : ∀ call b b', P b → Effect b call b' → P b') :
    (h.run later).store.Contains id ∧ P ((h.run later).store.block id) := by
  -- That the block was made is part of what is kept: a call cannot make it once more.
  refine hr.run_induction hadm (P := fun after =>
    after.store.Contains id ∧ P (after.store.block id)) ⟨hid, hP⟩ ?_
  rintro after action - hafter ⟨hmade, hP⟩ ha
  refine ⟨hafter.sound.contains_next ha hmade, ?_⟩
  cases hafter.sound.block_next ha id with
  | kept hblock _ =>
      rw [hblock]
      exact hP
  | changed _ _ _ _ hchange => exact heffect _ _ _ hP hchange
  | created _ hnew => exact absurd hmade hnew

/-- What holds of a block that was not made, of every new block, and of every changed one if it held
before, holds of every block in every reachable heap. -/
theorem Reachable.block_induction {P : ClassId → ClassBlock → Prop}
    (hdefault : ∀ id, P id default)
    (hbirth : ∀ id call b, Birth id call b → P id b)
    (heffect : ∀ c call b b', call.receiver? = some c → P c.block b → Effect b call b' →
      P c.block b')
    (hr : h.Reachable) (id : ClassId) : P id (h.store.block id) := by
  refine Reachable.induction (P := fun h => P id (h.store.block id)) (hdefault id) ?_ hr
  intro h action hr hP ha
  cases hr.sound.block_next ha id with
  | kept hblock _ =>
      rw [hblock]
      exact hP
  | changed _ hc hid _ hchange =>
      subst hid
      exact heffect _ _ _ _ hc hP hchange
  | created _ _ _ _ hmade => exact hbirth id _ _ hmade

end Heap

end TypeRegistry
