import TypeRegistry.Class.Call
import TypeRegistry.Proofs.Class.Outcome
import TypeRegistry.Proofs.Shape.Classes

/-!
# What a call can do

One inversion lemma for calls: a call is refused and changes nothing, or changes the block it is
made on, or makes a block. What the change or the new block can be is listed once, with what is
logged of it, so what a step preserves is proved by cases on that list.

## Main statements

* `Effect`: what an accepted call makes of its block.
* `Birth`: the block that a call makes.
* `Store.account`: what an accepted call logs.
* `Store.reported`: every call among existing classes is one of the three, and logs accordingly.
* `Store.performed`: the same without the log.
-/

namespace TypeRegistry

/-- The class references that a call is made with, its receiver included. -/
def Call.references : Call → List ClassRef
  | .create .. => []
  | .createWithAncestors _ _ ancestors => ancestors
  | .replaceMro c mro => c :: mro
  | .extendMro c entry => [c, entry]
  | .addBase c base => c :: base.classes
  | .sealClass c => [c]

/-- The class that a call is made on is one of its references. -/
theorem Call.receiver_mem_references {call : Call} {c : ClassRef} (hc : call.receiver? = some c) :
    c ∈ call.references := by
  cases call <;> simp_all [receiver?, references]

/-- What an accepted call makes of the block `b` of its receiver. -/
inductive Effect (b : ClassBlock) : Call → ClassBlock → Prop
  /-- An empty order takes the order back to its start. -/
  | clear {c : ClassRef} (hopen : b.isSealed = false) :
      Effect b (.replaceMro c []) { b with linearized := false, ancestors := [] }
  /-- An order of the block itself and others is kept as the others. -/
  | reorder {c head : ClassRef} {rest : List ClassRef} (hopen : b.isSealed = false)
      (hhead : head.block = c.block) (hrest : ∀ a ∈ rest, a.block ≠ c.block) :
      Effect b (.replaceMro c (head :: rest))
        { b with linearized := true, ancestors := rest.map (·.block) }
  /-- The block itself starts its order. -/
  | start {c entry : ClassRef} (hopen : b.isSealed = false) (hfresh : b.linearized = false)
      (hentry : entry.block = c.block) :
      Effect b (.extendMro c entry) { b with linearized := true }
  /-- Another block is appended to a started order. -/
  | extend {c entry : ClassRef} (hopen : b.isSealed = false) (hstarted : b.linearized = true)
      (hentry : entry.block ≠ c.block) :
      Effect b (.extendMro c entry) { b with ancestors := b.ancestors ++ [entry.block] }
  /-- A base is appended. -/
  | addBase {c : ClassRef} {base : Ty} (hopen : b.isSealed = false) :
      Effect b (.addBase c base) { b with bases := b.bases ++ [base] }
  /-- The flag is raised. -/
  | sealBlock {c : ClassRef} : Effect b (.sealClass c) { b with isSealed := true }

/-- An accepted call keeps the name of its block. -/
theorem Effect.name_eq {b b' : ClassBlock} {call : Call} (heffect : Effect b call b') :
    b'.name = b.name := by
  cases heffect <;> rfl

/-- The block that a call makes under the identifier `id`. -/
inductive Birth (id : ClassId) : Call → ClassBlock → Prop
  /-- A block without ancestors has no order yet. -/
  | plain {name : String} {table : SymbolTable} {call : Call}
      (hcall : call = .create name table ∨ call = .createWithAncestors name table [])
      (htable : table.missingPart? = none) : Birth id call { name, table }
  /-- A block with ancestors starts with them in its order. -/
  | ordered {name : String} {table : SymbolTable} {ancestors : List ClassRef}
      (htable : table.missingPart? = none) (hne : ancestors ≠ [])
      (hothers : ∀ a ∈ ancestors, a.block ≠ id) :
      Birth id (.createWithAncestors name table ancestors)
        { name, table, linearized := true, ancestors := ancestors.map (·.block) }

/-- A call that makes a block is made on none. -/
theorem Birth.receiver?_eq_none {id : ClassId} {call : Call} {b : ClassBlock}
    (hbirth : Birth id call b) : call.receiver? = none := by
  cases hbirth with
  | plain hcall => rcases hcall with rfl | rfl <;> rfl
  | ordered => rfl

/-- What an accepted call logs that makes the block `b'` of `b`. The length of an order is logged as
the sum of what is kept of it, which is its length only where the block is ordered. -/
def Store.account (s : Store) (b b' : ClassBlock) : Call → List Event
  | .create name _ | .createWithAncestors name _ [] => [.created name]
  | .createWithAncestors name _ (_ :: _) =>
    [.created name, .mroSet name (b'.ancestors.length + b'.linearized.toNat)]
  | .replaceMro .. => [.mroSet b.name (b'.ancestors.length + b'.linearized.toNat)]
  -- The head of an order is not logged.
  | .extendMro _ entry =>
    if b.linearized then [.ancestorAdded b.name (s.className entry.block)] else []
  | .addBase _ base => [.baseAdded b.name (s.render base)]
  -- Nor is it logged when a block is sealed again.
  | .sealClass _ =>
    if b.isSealed then []
    else [.sealedWith b.name (b'.ancestors.length + b'.linearized.toNat)]

/-- The outcome of a call, for each of the three things it can be. -/
inductive Reported (s : Store) (call : Call) : Outcome (Option ClassRef) → Prop
  /-- The block is sealed, which refuses the call and is logged. -/
  | frozen {c : ClassRef} (hc : call.receiver? = some c) (hsealed : s.isSealed c.block = true) :
      Reported s call ⟨.error (.frozen (s.className c.block)),
        [.mutationRejected (s.className c.block)], s⟩
  /-- The arguments refuse a call on an open block, which is not logged. -/
  | refused {c : ClassRef} {e : ClassError} (hc : call.receiver? = some c)
      (hopen : s.isSealed c.block = false) : Reported s call ⟨.error e, [], s⟩
  /-- The scope refuses a new class, which is logged. -/
  | incomplete {name : String} {part : ScopePart} (hc : call.receiver? = none) :
      Reported s call ⟨.error (.incompleteScope name part), [.scopeRejected name part], s⟩
  /-- The call changes the block of its receiver. -/
  | changed {c : ClassRef} {b : ClassBlock} (hc : call.receiver? = some c)
      (heffect : Effect (s.block c.block) call b) :
      Reported s call ⟨.ok none, s.account (s.block c.block) b call, s.set c.block b⟩
  /-- The call makes a block. -/
  | created {b : ClassBlock} (hbirth : Birth s.nextId call b) :
      Reported s call ⟨.ok (some (.ofBlock s.nextId)), s.account default b call, s.push b⟩

/-- The result of a call and the store after it, for each of the three things it can be. -/
inductive Performed (s : Store) (call : Call) :
    Except ClassError (Option ClassRef) → Store → Prop
  /-- The call is refused and leaves the store as it was. -/
  | refused {e : ClassError} : Performed s call (.error e) s
  /-- The call changes the block of its receiver. -/
  | changed {c : ClassRef} {b : ClassBlock} (hc : call.receiver? = some c)
      (heffect : Effect (s.block c.block) call b) :
      Performed s call (.ok none) (s.set c.block b)
  /-- The call makes a block. -/
  | created {b : ClassBlock} (hbirth : Birth s.nextId call b) :
      Performed s call (.ok (some (.ofBlock s.nextId))) (s.push b)

/-- No call takes a block away. -/
theorem Performed.contains {s store : Store} {call : Call}
    {result : Except ClassError (Option ClassRef)} (hperformed : Performed s call result store)
    {id : ClassId} (hid : s.Contains id) : store.Contains id := by
  cases hperformed with
  | refused => exact hid
  | changed => exact Store.contains_set.2 hid
  | created => exact Store.contains_push.2 (.inl hid)

/-- What is reported of a call tells its result and the store after it. -/
theorem Reported.performed {s : Store} {call : Call} {o : Outcome (Option ClassRef)}
    (hreported : Reported s call o) : Performed s call o.result o.store := by
  cases hreported with
  | frozen | refused | incomplete => exact .refused
  | changed hc heffect => exact .changed hc heffect
  | created hbirth => exact .created hbirth

namespace Store

variable {s : Store}

/-- A replacement of a resolution order is refused, clears the order or sets it. -/
theorem reported_replaceMro (c : ClassRef) (mro : List ClassRef) :
    Reported s (.replaceMro c mro) (s.perform (.replaceMro c mro)) := by
  -- The checks come in the order of the cases: the seal, the head, the rest.
  cases hs : s.isSealed c.block with
  | true =>
      rw [perform, replaceMro, mutate_of_sealed hs]
      exact .frozen rfl hs
  | false =>
      rcases mro with _ | ⟨head, rest⟩
      · rw [perform, replaceMro_nil hs]
        exact .changed rfl (.clear hs)
      by_cases hhead : head.block = c.block
      · by_cases hown : ∃ a ∈ rest, a.block = c.block
        · rw [perform, replaceMro_of_own hs hhead hown]
          exact .refused rfl hs
        · have hrest : ∀ a ∈ rest, a.block ≠ c.block := fun a ha e => hown ⟨a, ha, e⟩
          have haccount : [.mroSet (s.className c.block) (rest.length + 1)] =
              s.account (s.block c.block) { s.block c.block with
                linearized := true, ancestors := rest.map (fun a : ClassRef => a.block) }
                (.replaceMro c (head :: rest)) := by
            simp [account, className]
          rw [perform, replaceMro_of_others hs hhead hrest, haccount]
          exact .changed rfl (.reorder hs hhead hrest)
      · rw [perform, replaceMro_of_foreign hs hhead]
        exact .refused rfl hs

/-- An extension of a resolution order is refused, starts the order or appends to it. -/
theorem reported_extendMro (c entry : ClassRef) :
    Reported s (.extendMro c entry) (s.perform (.extendMro c entry)) := by
  cases hs : s.isSealed c.block with
  | true =>
      rw [perform, extendMro, mutate_of_sealed hs]
      exact .frozen rfl hs
  | false =>
      -- The block itself is the only first entry, and the only one that is refused later.
      by_cases hentry : entry.block = c.block
      · cases horder : (s.block c.block).linearized with
        | true =>
            rw [perform, extendMro_of_own hs horder hentry]
            exact .refused rfl hs
        | false =>
            have haccount : [] = s.account (s.block c.block)
                { s.block c.block with linearized := true } (.extendMro c entry) := by
              simp [account, horder]
            rw [perform, extendMro_of_head hs horder hentry, haccount]
            exact .changed rfl (.start hs horder hentry)
      · cases horder : (s.block c.block).linearized with
        | true =>
            have haccount : [.ancestorAdded (s.className c.block) (s.className entry.block)] =
                s.account (s.block c.block) { s.block c.block with
                  ancestors := (s.block c.block).ancestors ++ [entry.block] }
                  (.extendMro c entry) := by
              simp [account, horder, className]
            rw [perform, extendMro_of_other hs horder hentry, haccount]
            exact .changed rfl (.extend hs horder hentry)
        | false =>
            rw [perform, extendMro_of_foreign hs horder hentry]
            exact .refused rfl hs

/-- A new base is refused or appended. -/
theorem reported_addBase (c : ClassRef) (base : Ty) :
    Reported s (.addBase c base) (s.perform (.addBase c base)) := by
  cases hs : s.isSealed c.block with
  | true =>
      rw [perform, addBase, mutate_of_sealed hs]
      exact .frozen rfl hs
  | false =>
      rw [perform, addBase_of_open hs]
      exact .changed rfl (.addBase hs)

/-- Sealing is logged where the block was open. -/
theorem events_sealBlock (s : Store) (c : ClassRef) :
    (s.sealBlock c.block).events = s.account (s.block c.block)
      { s.block c.block with isSealed := true } (.sealClass c) := by
  cases hs : (s.block c.block).isSealed <;> simp [sealBlock, account, hs]

/-- Sealing raises the flag, also where it is up already. -/
theorem reported_sealClass (c : ClassRef) :
    Reported s (.sealClass c) (s.perform (.sealClass c)) := by
  rw [perform, Outcome.map, result_sealBlock, events_sealBlock, store_sealBlock]
  exact .changed rfl .sealBlock

/-- A new class is refused for its scope, or made without an order. -/
theorem reported_create (name : String) (table : SymbolTable) :
    Reported s (.create name table) (s.perform (.create name table)) := by
  cases htable : table.missingPart? with
  | some part =>
      rw [perform, create_of_incomplete name htable]
      exact .incomplete rfl
  | none =>
      rw [perform, create_of_complete name htable]
      exact .created (.plain (.inl rfl) htable)

/-- A new class with ancestors is refused for its scope only, provided the ancestors exist. -/
theorem reported_createWithAncestors (name : String) (table : SymbolTable)
    {ancestors : List ClassRef} (hancestors : ∀ a ∈ ancestors, s.Contains a.block) :
    Reported s (.createWithAncestors name table ancestors)
      (s.perform (.createWithAncestors name table ancestors)) := by
  cases htable : table.missingPart? with
  | some part =>
      rw [perform, createWithAncestors_of_incomplete name ancestors htable]
      exact .incomplete rfl
  | none =>
      rcases ancestors with _ | ⟨first, rest⟩
      · rw [perform, createWithAncestors_nil, create_of_complete name htable]
        exact .created (.plain (.inr rfl) htable)
      · -- An ancestor was made before, so it is not the block that is made now.
        have hothers : ∀ a ∈ first :: rest, a.block ≠ s.nextId := fun a ha =>
          ne_nextId (hancestors a ha)
        have haccount : [.created name, .mroSet name ((first :: rest).length + 1)] =
            s.account default
              { name, table, linearized := true, ancestors := (first :: rest).map (·.block) }
              (.createWithAncestors name table (first :: rest)) := by
          simp [account]
        rw [perform, createWithAncestors_of_complete name htable (List.cons_ne_nil _ _) hothers,
          haccount]
        exact .created (.ordered htable (List.cons_ne_nil _ _) hothers)

/-- A call that is made on a block is refused or changes it, also where there is no such block. -/
theorem reported_of_receiver (s : Store) {call : Call} {c : ClassRef}
    (hc : call.receiver? = some c) : Reported s call (s.perform call) := by
  cases call with
  | create | createWithAncestors => cases hc
  | replaceMro c mro => exact reported_replaceMro c mro
  | extendMro c entry => exact reported_extendMro c entry
  | addBase c base => exact reported_addBase c base
  | sealClass c => exact reported_sealClass c

/-- A call among existing classes is refused and changes nothing, or changes the block it is made
on, or makes a block, and logs what it did. -/
theorem reported {call : Call} (hrefs : ∀ c ∈ call.references, s.Contains c.block) :
    Reported s call (s.perform call) := by
  cases call with
  | create name table => exact reported_create name table
  | createWithAncestors name table ancestors => exact reported_createWithAncestors name table hrefs
  | replaceMro c mro => exact reported_replaceMro c mro
  | extendMro c entry => exact reported_extendMro c entry
  | addBase c base => exact reported_addBase c base
  | sealClass c => exact reported_sealClass c

/-- A call that is made on a block is refused or changes it, also where there is no such block. -/
theorem performed_of_receiver (s : Store) {call : Call} {c : ClassRef}
    (hc : call.receiver? = some c) :
    Performed s call (s.perform call).result (s.perform call).store :=
  (reported_of_receiver s hc).performed

/-- A call among existing classes is refused and changes nothing, or changes the block it is made
on, or makes a block. -/
theorem performed {call : Call} (hrefs : ∀ c ∈ call.references, s.Contains c.block) :
    Performed s call (s.perform call).result (s.perform call).store :=
  (reported hrefs).performed

end Store

end TypeRegistry
