import TypeRegistry.Class.Change

/-!
# The outcome of each operation

Every operation on a store in closed form, case by case: what it gives, what it logs and what it
leaves. The first part says how the blocks of a store read after one of them was replaced or a new
one was made.

## Main statements

* `Store.mutate_of_sealed`: a sealed block refuses every change.
* `Store.replaceMro_nil`, `Store.replaceMro_of_foreign`, `Store.replaceMro_of_own`,
  `Store.replaceMro_of_others`: the replacement of a resolution order.
* `Store.extendMro_of_foreign`, `Store.extendMro_of_head`, `Store.extendMro_of_own`,
  `Store.extendMro_of_other`: the extension of a resolution order.
* `Store.create_of_complete`, `Store.createWithAncestors_of_complete`: new blocks.
-/

namespace TypeRegistry

namespace Store

variable {s : Store} {id : ClassId}

/-! ### Blocks of a store -/

/-- The store has a block of this identifier. -/
def Contains (s : Store) (id : ClassId) : Prop :=
  id.index < s.blocks.size

/-- Whether a block exists is decidable. -/
instance (s : Store) (id : ClassId) : Decidable (s.Contains id) :=
  inferInstanceAs (Decidable (_ < _))

/-- The store with one more block. -/
def push (s : Store) (b : ClassBlock) : Store :=
  { s with blocks := s.blocks.push b }

/-- The next identifier is not taken. -/
theorem ne_nextId (hid : s.Contains id) : id ≠ s.nextId := by
  rintro rfl
  exact Nat.lt_irrefl _ hid

/-- There is no block yet under an identifier that is not taken, and nothing to read. -/
theorem block_of_not_contains (hid : ¬s.Contains id) : s.block id = default := by
  have : s.blocks.size ≤ id.index := Nat.le_of_not_lt hid
  simp [block, this]

@[simp]
theorem contains_set {b : ClassBlock} {other : ClassId} :
    (s.set other b).Contains id ↔ s.Contains id := by
  rw [Contains, size_set, Contains]

/-- Putting a block back in its place changes nothing. -/
@[simp]
theorem set_block (s : Store) (id : ClassId) : s.set id (s.block id) = s := by
  -- An identifier out of bounds reads as the default block, so the two arrays are compared slot by
  -- slot and not through `block`.
  obtain ⟨blocks⟩ := s
  rw [set, mk.injEq]
  apply Array.ext_getElem?
  intro i
  by_cases hi : id.index = i
  · subst hi
    by_cases hlt : id.index < blocks.size
    · simp [block, hlt]
    · simp [hlt]
  · simp [hi]

@[simp]
theorem set_set (s : Store) (id : ClassId) (b b' : ClassBlock) :
    (s.set id b).set id b' = s.set id b' := by
  simp [set]

@[simp]
theorem block_push_nextId (s : Store) (b : ClassBlock) : (s.push b).block s.nextId = b := by
  simp [push, block, nextId]

/-- A new block leaves the others as they are. -/
theorem block_push_of_ne {b : ClassBlock} (hid : id ≠ s.nextId) :
    (s.push b).block id = s.block id := by
  have : id.index ≠ s.blocks.size := fun e => hid (by cases id; simp_all [nextId])
  simp [push, block, Array.getElem?_push, this]

/-- The blocks after a push are those before it and the new one. -/
theorem contains_push {b : ClassBlock} :
    (s.push b).Contains id ↔ s.Contains id ∨ id = s.nextId := by
  obtain ⟨index⟩ := id
  simp only [Contains, push, Array.size_push, nextId, ClassId.mk.injEq]
  omega

@[simp]
theorem contains_push_nextId (s : Store) (b : ClassBlock) : (s.push b).Contains s.nextId :=
  contains_push.2 (.inr rfl)

/-- A new block that is replaced was never there. -/
@[simp]
theorem set_push_nextId (s : Store) (b b' : ClassBlock) :
    (s.push b).set s.nextId b' = s.push b' := by
  obtain ⟨blocks⟩ := s
  rw [set, push, push, mk.injEq]
  apply Array.ext_getElem?
  intro i
  by_cases hi : i = blocks.size
  · subst hi
    simp [nextId]
  · simp [nextId, hi, Ne.symm hi, Array.getElem?_push]

/-- What relates two blocks relates what is read where they were written in stores with the same
identifiers, also where there is no block and nothing was written. -/
theorem rel_block_set {R : ClassBlock → ClassBlock → Prop} {s' : Store} {b b' : ClassBlock}
    (hdefault : R default default) (hb : R b b') (hcontains : s.Contains id ↔ s'.Contains id) :
    R ((s.set id b).block id) ((s'.set id b').block id) := by
  by_cases hid : s.Contains id
  · rw [block_set_self hid, block_set_self (hcontains.1 hid)]
    exact hb
  · have hid' : ¬s'.Contains id := fun hc => hid (hcontains.2 hc)
    rw [block_of_not_contains (by simpa using hid), block_of_not_contains (by simpa using hid')]
    exact hdefault

/-- A block with the name of the one it replaces leaves every class its name. -/
theorem className_set {b : ClassBlock} (hname : b.name = s.className id) (other : ClassId) :
    (s.set id b).className other = s.className other := by
  by_cases ho : other = id
  · subst ho
    -- Where there is no block, nothing was written and the default name stays.
    by_cases hid : s.Contains other
    · rw [className, block_set_self hid, hname]
    · have hnot : ¬(s.set other b).Contains other := by simpa using hid
      rw [className, className, block_of_not_contains hid, block_of_not_contains hnot]
  · rw [className, block_set_of_ne ho, className]

/-! ### Changes of a block -/

variable {change : ClassBlock → Except ClassError (ClassBlock × List Event)}

/-- A sealed block refuses every change, whatever it is. -/
theorem mutate_of_sealed (hs : s.isSealed id = true) :
    s.mutate id change =
      ⟨.error (.frozen (s.className id)), [.mutationRejected (s.className id)], s⟩ := by
  rw [mutate, if_pos hs]

/-- An open block takes a change that is accepted, and logs what the change says. -/
theorem mutate_of_ok (hs : s.isSealed id = false) {b : ClassBlock} {events : List Event}
    (hok : change (s.block id) = .ok (b, events)) :
    s.mutate id change = ⟨.ok (), events, s.set id b⟩ := by
  simp [mutate, hs, hok]

/-- A change that is refused is not logged. -/
theorem mutate_of_error (hs : s.isSealed id = false) {e : ClassError}
    (herr : change (s.block id) = .error e) : s.mutate id change = ⟨.error e, [], s⟩ := by
  simp [mutate, hs, herr]

variable {head entry : ClassRef} {rest : List ClassRef}

/-- Other blocks are accepted as ancestors. -/
theorem refuseSelf_of_others (hrest : ∀ a ∈ rest, a.block ≠ id) :
    s.refuseSelf id rest = .ok () := by
  simpa [refuseSelf] using hrest

/-- The block itself is refused as an ancestor, wherever it stands. -/
theorem refuseSelf_of_own (hown : ∃ a ∈ rest, a.block = id) :
    s.refuseSelf id rest = .error (.ownAncestor (s.className id)) := by
  simpa [refuseSelf] using hown

/-- Replacing the order of an open block by an empty one takes it back to its start. -/
theorem replaceMro_nil (hs : s.isSealed id = false) :
    s.replaceMro id [] =
      ⟨.ok (), [.mroSet (s.className id) 0],
        s.set id { s.block id with linearized := false, ancestors := [] }⟩ :=
  mutate_of_ok hs rfl

/-- An order headed by another block is refused. -/
theorem replaceMro_of_foreign (hs : s.isSealed id = false) (hhead : head.block ≠ id) :
    s.replaceMro id (head :: rest) =
      ⟨.error (.foreignHead (s.className id) (s.className head.block)), [], s⟩ := by
  refine mutate_of_error hs ?_
  rw [reorder, requireHead, if_neg hhead]
  rfl

/-- An order in which the block comes again is refused. -/
theorem replaceMro_of_own (hs : s.isSealed id = false) (hhead : head.block = id)
    (hown : ∃ a ∈ rest, a.block = id) :
    s.replaceMro id (head :: rest) = ⟨.error (.ownAncestor (s.className id)), [], s⟩ := by
  refine mutate_of_error hs ?_
  rw [reorder, requireHead, if_pos hhead, refuseSelf_of_own hown]
  rfl

/-- An order of the block and others is kept as the blocks of the others. -/
theorem replaceMro_of_others (hs : s.isSealed id = false) (hhead : head.block = id)
    (hrest : ∀ a ∈ rest, a.block ≠ id) :
    s.replaceMro id (head :: rest) =
      ⟨.ok (), [.mroSet (s.className id) (rest.length + 1)],
        s.set id { s.block id with linearized := true, ancestors := rest.map (·.block) }⟩ := by
  refine mutate_of_ok hs ?_
  rw [reorder, requireHead, if_pos hhead, refuseSelf_of_others hrest]
  simp [bind, Except.bind, pure, Except.pure, Except.map, className]

/-- The first entry of an order has to be the block itself. -/
theorem extendMro_of_foreign (hs : s.isSealed id = false)
    (hfresh : (s.block id).linearized = false) (hentry : entry.block ≠ id) :
    s.extendMro id entry =
      ⟨.error (.foreignHead (s.className id) (s.className entry.block)), [], s⟩ := by
  refine mutate_of_error hs ?_
  rw [if_neg (by simp [hfresh]), requireHead, if_neg hentry]
  rfl

/-- The block itself starts its order. -/
theorem extendMro_of_head (hs : s.isSealed id = false)
    (hfresh : (s.block id).linearized = false) (hentry : entry.block = id) :
    s.extendMro id entry = ⟨.ok (), [], s.set id { s.block id with linearized := true }⟩ := by
  refine mutate_of_ok hs ?_
  rw [if_neg (by simp [hfresh]), requireHead, if_pos hentry]
  rfl

/-- A started order does not take the block again. -/
theorem extendMro_of_own (hs : s.isSealed id = false)
    (hstarted : (s.block id).linearized = true) (hentry : entry.block = id) :
    s.extendMro id entry = ⟨.error (.ownAncestor (s.className id)), [], s⟩ := by
  refine mutate_of_error hs ?_
  rw [if_pos hstarted, refuseSelf_of_own ⟨entry, by simp, hentry⟩]
  rfl

/-- A started order takes any other block. -/
theorem extendMro_of_other (hs : s.isSealed id = false)
    (hstarted : (s.block id).linearized = true) (hentry : entry.block ≠ id) :
    s.extendMro id entry =
      ⟨.ok (), [.ancestorAdded (s.className id) (s.className entry.block)],
        s.set id { s.block id with ancestors := (s.block id).ancestors ++ [entry.block] }⟩ := by
  refine mutate_of_ok hs ?_
  rw [if_pos hstarted, refuseSelf_of_others (by simpa using hentry)]
  rfl

/-- An open block takes any base. -/
theorem addBase_of_open (hs : s.isSealed id = false) (base : Ty) :
    s.addBase id base =
      ⟨.ok (), [.baseAdded (s.className id) (s.render base)],
        s.set id { s.block id with bases := (s.block id).bases ++ [base] }⟩ :=
  mutate_of_ok hs rfl

/-- Sealing raises the flag of the block and does nothing else. -/
theorem store_sealBlock (s : Store) (id : ClassId) :
    (s.sealBlock id).store = s.set id { s.block id with isSealed := true } := by
  cases hs : (s.block id).isSealed with
  | false => simp [sealBlock, hs]
  | true =>
      -- The flag was up, so the write puts back what was there.
      have hsame : { s.block id with isSealed := true } = s.block id := by
        rw [← hs]
      rw [hsame, set_block]
      simp [sealBlock, hs]

/-- Sealing is never refused. -/
theorem result_sealBlock (s : Store) (id : ClassId) : (s.sealBlock id).result = .ok () := by
  simp only [sealBlock]
  split <;> rfl

/-! ### New blocks -/

variable {table : SymbolTable} {ancestors : List ClassRef}

/-- A scope that lacks a map is refused, and this is logged. -/
theorem create_of_incomplete (name : String) {part : ScopePart}
    (htable : table.missingPart? = some part) :
    s.create name table =
      ⟨.error (.incompleteScope name part), [.scopeRejected name part], s⟩ := by
  simp [create, htable]

/-- A scope with both maps gives a block under the next identifier. -/
theorem create_of_complete (name : String) (htable : table.missingPart? = none) :
    s.create name table =
      ⟨.ok (.ofBlock s.nextId), [.created name], s.push { name, table }⟩ := by
  simp [create, htable, push]

/-- The scope is checked before the ancestors, so these do not matter to the refusal. -/
theorem createWithAncestors_of_incomplete (name : String) (ancestors : List ClassRef)
    {part : ScopePart} (htable : table.missingPart? = some part) :
    s.createWithAncestors name table ancestors =
      ⟨.error (.incompleteScope name part), [.scopeRejected name part], s⟩ := by
  simp [createWithAncestors, create_of_incomplete name htable]

/-- Without ancestors a class is made like any other. -/
theorem createWithAncestors_nil (s : Store) (name : String) (table : SymbolTable) :
    s.createWithAncestors name table [] = s.create name table := by
  unfold createWithAncestors
  cases hresult : (s.create name table).result <;> simp [hresult]

/-- A block made with ancestors starts with them in its order. The new block cannot be among them,
so the order is accepted. -/
theorem createWithAncestors_of_complete (name : String) (htable : table.missingPart? = none)
    (hne : ancestors ≠ []) (hothers : ∀ a ∈ ancestors, a.block ≠ s.nextId) :
    s.createWithAncestors name table ancestors =
      ⟨.ok (.ofBlock s.nextId), [.created name, .mroSet name (ancestors.length + 1)],
        s.push { name, table, linearized := true, ancestors := ancestors.map (·.block) }⟩ := by
  obtain ⟨first, rest, rfl⟩ := List.exists_cons_of_ne_nil hne
  have hopen : (s.push { name, table }).isSealed s.nextId = false := by
    rw [isSealed, block_push_nextId]
  have hhead : (ClassRef.ofBlock s.nextId).block = s.nextId := rfl
  -- The order is set on the store that has the new block already, and ends as one push.
  have hreplaced := replaceMro_of_others hopen hhead hothers
  rw [block_push_nextId, set_push_nextId, className, block_push_nextId] at hreplaced
  simp only [createWithAncestors, create_of_complete name htable]
  rw [hhead, hreplaced]
  rfl

end Store

end TypeRegistry
