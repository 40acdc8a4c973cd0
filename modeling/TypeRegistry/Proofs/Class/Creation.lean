import TypeRegistry.Proofs.Class.Ownership

/-!
# The call that made a block

Every block was made by one call of the run, and by one only: the identifier that a call takes for
its new block was not taken before, and stays taken. So the calls that made classes and the blocks
that exist correspond one to one, for good.

## Main definitions and statements

* `Heap.CallStep`, `Heap.Sound.callStep`: a call makes a block and gives its class, or does neither.
* `Heap.MadeBy`: a call of a run made a block.
* `Heap.exists_madeBy`: every block that exists was made by a call.
* `Heap.MadeBy.eq_of_block_eq`, `Heap.MadeBy.block_eq`: by one call only, and one call makes one
  block only.
* `Heap.MadeBy.birth`: what the block was right after the call.
-/

namespace TypeRegistry.Heap

variable {h : Heap} {actions later : List Action} {action : Action} {id id' : ClassId}
  {call call' : Call} {k l : Nat}

/-! ### A run up to a moment -/

/-- A block that was made stays made. -/
theorem Reachable.contains_run (hr : h.Reachable) (hadm : h.Admits later)
    (hid : h.store.Contains id) : (h.run later).store.Contains id :=
  (hr.block_run hadm hid (P := fun _ => True) trivial fun _ _ _ _ _ => trivial).1

/-- A possible run is possible up to any moment, and goes on from there. -/
theorem Admits.split (hadm : h.Admits actions) (k : Nat) :
    h.Admits (actions.take k) ∧ (h.run (actions.take k)).Admits (actions.drop k) := by
  rwa [← admits_append, List.take_append_drop]

/-- A run is its first actions and then the others. -/
theorem run_split (h : Heap) (actions : List Action) (k : Nat) :
    (h.run (actions.take k)).run (actions.drop k) = h.run actions := by
  rw [← run_append, List.take_append_drop]

/-- The action at a moment is possible there, and leads to the next moment. -/
theorem Admits.step (hadm : h.Admits actions) (haction : actions[k]? = some action) :
    (h.run (actions.take k)).Allows action ∧
      h.run (actions.take (k + 1)) = (h.run (actions.take k)).next action := by
  have htake : actions.take (k + 1) = actions.take k ++ [action] := by
    rw [List.take_add_one, haction, Option.toList_some]
  have hbefore := (hadm.split (k + 1)).1
  rw [htake, admits_append] at hbefore
  rw [htake, run_append]
  exact ⟨hbefore.2.1, rfl⟩

/-- A block that was made up to a moment exists at every later one. -/
theorem contains_run_take (hadm : empty.Admits actions) (hkl : k ≤ l)
    (hid : (empty.run (actions.take k)).store.Contains id) :
    (empty.run (actions.take l)).store.Contains id := by
  have hbetween := (hadm.split l).1.split k
  have hrun := run_split empty (actions.take l) k
  rw [List.take_take, Nat.min_eq_left hkl] at hbetween hrun
  rw [← hrun]
  exact hbetween.1.reachable.contains_run hbetween.2 hid

/-! ### Calls and the blocks they made -/

/-- What a possible call does to the blocks that exist and to the handles that are held. -/
inductive CallStep (h : Heap) (call : Call) : Prop
  /-- The call makes a block, gives its class and is what the block is born of. -/
  | made {b : ClassBlock} (hbirth : Birth h.store.nextId call b)
      (hresult : (h.store.perform call).result = .ok (some (.ofBlock h.store.nextId)))
      (hstore : (h.next (.call call)).store = h.store.push b)
      (hheld : (h.next (.call call)).held = .ofBlock h.store.nextId :: h.held)
  /-- The call gives no class, and no block is new. -/
  | kept (hresult : ∀ c, (h.store.perform call).result ≠ .ok (some c))
      (hcontains : ∀ id, (h.next (.call call)).store.Contains id ↔ h.store.Contains id)
      (hheld : (h.next (.call call)).held = h.held)

/-- A possible call makes a block and gives its class, or does neither. -/
theorem Sound.callStep (hs : h.Sound) (ha : h.Allows (.call call)) : CallStep h call := by
  have hperformed := Store.performed (hs.contains_references ha)
  -- The next heap is settled from the result and the store, which the cases are on.
  have hnext : h.next (.call call) =
    h.settle (h.store.perform call).result (h.store.perform call).store := rfl
  generalize hresult : (h.store.perform call).result = result,
    (h.store.perform call).store = store at hperformed hnext
  cases hperformed with
  | refused =>
      refine .kept ?_ ?_ ?_
      · rw [hresult]
        nofun
      · intro id
        rw [hnext, settle_error]
      · rw [hnext, settle_error]
  | changed =>
      refine .kept ?_ ?_ ?_
      · rw [hresult]
        nofun
      · intro id
        rw [hnext, settle_ok_none]
        exact Store.contains_set
      · rw [hnext, settle_ok_none]
  | created hbirth => exact .made hbirth hresult (by rw [hnext]; rfl) (by rw [hnext]; rfl)

/-- A class that a call gives is the class object of a new block, and the block is born of the
call. -/
theorem Sound.birth_of_made (hs : h.Sound) (ha : h.Allows (.call call)) {new : ClassRef}
    (hmade : (h.store.perform call).result = .ok (some new)) :
    ∃ id, new = .ofBlock id ∧ ¬h.store.Contains id ∧ (h.next (.call call)).store.Contains id ∧
      Birth id call ((h.next (.call call)).store.block id) := by
  cases hs.callStep ha with
  | kept hresult => exact absurd hmade (hresult new)
  | made hbirth hresult hstore =>
      rw [hresult] at hmade
      cases hmade
      rw [hstore]
      refine ⟨_, rfl, fun hid => Store.ne_nextId hid rfl, Store.contains_push_nextId _ _, ?_⟩
      rw [Store.block_push_nextId]
      exact hbirth

/-- A handle that is held after a call was held before, or is the class that the call gave. -/
theorem Sound.held_next_call (hs : h.Sound) (ha : h.Allows (.call call)) {c : ClassRef}
    (hc : c ∈ (h.next (.call call)).held) :
    c ∈ h.held ∨
      ∃ id, c = .ofBlock id ∧ (h.store.perform call).result = .ok (some (.ofBlock id)) := by
  cases hs.callStep ha with
  | kept _ _ hheld =>
      rw [hheld] at hc
      exact .inl hc
  | made _ hresult _ hheld =>
      rw [hheld] at hc
      rcases List.mem_cons.1 hc with rfl | hc
      · exact .inr ⟨_, rfl, hresult⟩
      · exact .inl hc

/-- A block that an action brings about is given by a call. -/
theorem Sound.made_of_contains_next (hs : h.Sound) (ha : h.Allows action)
    (hnew : ¬h.store.Contains id) (hid : (h.next action).store.Contains id) :
    ∃ call, action = .call call ∧ (h.store.perform call).result = .ok (some (.ofBlock id)) := by
  cases action with
  | call call =>
      refine ⟨call, rfl, ?_⟩
      -- Only a new block is there after the call and not before it.
      cases hs.callStep ha with
      | kept _ hcontains => exact absurd ((hcontains id).1 hid) hnew
      | made _ hresult hstore =>
          rw [hstore] at hid
          obtain rfl := (Store.contains_push.1 hid).resolve_left hnew
          exact hresult
  | copy | takeEntry | takeFromBase | drop | free => exact absurd hid hnew

/-- The action number `k` of a run from the start is a call that made the block `id`. -/
structure MadeBy (actions : List Action) (k : Nat) (call : Call) (id : ClassId) : Prop where
  action : actions[k]? = some (.call call)
  result : ((empty.run (actions.take k)).store.perform call).result = .ok (some (.ofBlock id))

/-- The last call of a run made the block that it gave. -/
theorem MadeBy.last (hresult : ((empty.run actions).store.perform call).result =
    .ok (some (.ofBlock id))) : MadeBy (actions ++ [.call call]) actions.length call id := by
  refine ⟨List.getElem?_concat_length, ?_⟩
  rw [List.take_left]
  exact hresult

/-- The block of a call is new, and born of it. -/
theorem MadeBy.birth (hadm : empty.Admits actions) (hmade : MadeBy actions k call id) :
    ¬(empty.run (actions.take k)).store.Contains id ∧
      (empty.run (actions.take (k + 1))).store.Contains id ∧
      Birth id call ((empty.run (actions.take (k + 1))).store.block id) := by
  obtain ⟨ha, hnext⟩ := hadm.step hmade.action
  rw [hnext]
  have hs := (hadm.split k).1.reachable.sound
  obtain ⟨_, heq, hborn⟩ := hs.birth_of_made ha hmade.result
  cases heq
  exact hborn

/-- The block of a call exists at every later moment. -/
theorem MadeBy.contains (hadm : empty.Admits actions) (hmade : MadeBy actions k call id)
    (hkl : k < l) : (empty.run (actions.take l)).store.Contains id :=
  contains_run_take hadm hkl (hmade.birth hadm).2.1

/-- A call makes one block only. -/
theorem MadeBy.block_eq (hmade : MadeBy actions k call id) (hmade' : MadeBy actions k call' id') :
    id = id' := by
  have hcall := hmade.action.symm.trans hmade'.action
  cases hcall
  have hresult := hmade.result.symm.trans hmade'.result
  cases hresult
  rfl

/-- A block is made by one call only. -/
theorem MadeBy.eq_of_block_eq (hadm : empty.Admits actions) (hmade : MadeBy actions k call id)
    (hmade' : MadeBy actions l call' id) : k = l := by
  -- The later of two calls would take an identifier that is taken.
  rcases Nat.lt_trichotomy k l with hlt | heq | hlt
  · exact absurd (hmade.contains hadm hlt) (hmade'.birth hadm).1
  · exact heq
  · exact absurd (hmade'.contains hadm hlt) (hmade.birth hadm).1

/-- What a call made in a run it made in every longer run. -/
theorem MadeBy.append (hmade : MadeBy actions k call id) (later : List Action) :
    MadeBy (actions ++ later) k call id := by
  obtain ⟨hk, -⟩ := List.getElem?_eq_some_iff.1 hmade.action
  refine ⟨?_, ?_⟩
  · rw [List.getElem?_append_left hk, hmade.action]
  · rw [List.take_append_of_le_length (Nat.le_of_lt hk)]
    exact hmade.result

/-- Every block that exists was made by a call of the run. -/
theorem exists_madeBy (hadm : empty.Admits actions)
    (hid : (empty.run actions).store.Contains id) : ∃ k call, MadeBy actions k call id := by
  induction hadm using Admits.induction with
  | nil => exact absurd hid (Nat.not_lt_zero _)
  | concat actions action hadm ha ih =>
      rw [run_append] at hid
      -- A block is there before the last action, or this action brings it about.
      by_cases hbefore : (empty.run actions).store.Contains id
      · obtain ⟨k, call, hmade⟩ := ih hbefore
        exact ⟨k, call, hmade.append [action]⟩
      · obtain ⟨call, rfl, hresult⟩ :=
          hadm.reachable.sound.made_of_contains_next ha hbefore hid
        exact ⟨actions.length, call, .last hresult⟩

end TypeRegistry.Heap
