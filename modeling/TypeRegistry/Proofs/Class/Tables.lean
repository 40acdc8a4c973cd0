import TypeRegistry.Proofs.Class.Creation

/-!
# The scope of a class

A class is made over the symbol table of a scope as it is at that moment. The table has to have
both maps, or no class is made. From then on it is never written, so a class answers every question
about a name from the two maps that it was given.

## Main definitions and statements

* `Store.ChecksScope`: a new class is refused for a map that its table lacks, and for nothing else.
* `Store.TablesKept`, `Store.tablesKept_perform`: no call takes a block away or changes a table.
* `Store.MadeOver`: a block has the table that its class was made over, and the table is complete.
* `Store.Exposes`, `Store.MadeOver.exposes`: such a block answers from the two maps of the table.
* `Heap.MadeBy.madeOver`: in a run every call that made a block made it over the table that it was
  given, and the block still has it.
-/

namespace TypeRegistry

namespace SymbolTable

variable {t : SymbolTable}

/-- A table without names lacks these, whatever else it lacks. -/
theorem missingPart?_of_names (hnames : t.names = none) : t.missingPart? = some .names := by
  rw [missingPart?, hnames]

/-- A table with names but without overloads lacks the overloads. -/
theorem missingPart?_of_overloads (hnames : t.names ≠ none) (hoverloads : t.overloads = none) :
    t.missingPart? = some .overloads := by
  obtain ⟨names, hsome⟩ := Option.ne_none_iff_exists'.1 hnames
  rw [missingPart?, hsome, hoverloads]

/-- A table lacks nothing when it has both maps. -/
theorem missingPart?_eq_none_iff :
    t.missingPart? = none ↔ ∃ names overloads, t = ⟨some names, some overloads⟩ := by
  obtain ⟨_ | names, _ | overloads⟩ := t <;> simp [missingPart?]

end SymbolTable

/-- A mapped value is the image of a value. -/
theorem exists_of_map_eq_ok {ε α β : Type} {f : α → β} {result : Except ε α} {b : β}
    (hmap : result.map f = .ok b) : ∃ a, result = .ok a ∧ f a = b := by
  cases result with
  | error e => cases hmap
  | ok a => exact ⟨a, rfl, Except.ok.inj hmap⟩

/-- The symbol table over which a call makes a class, if it makes one. -/
def Call.table? : Call → Option SymbolTable
  | .create _ table | .createWithAncestors _ table _ => some table
  | .replaceMro .. | .extendMro .. | .addBase .. | .sealClass _ => none

/-- An accepted call keeps the table of its block. -/
theorem Effect.table_eq {b b' : ClassBlock} {call : Call} (heffect : Effect b call b') :
    b'.table = b.table := by
  cases heffect <;> rfl

namespace Store

variable {s s' : Store} {id : ClassId} {name : String} {table : SymbolTable} {c : ClassRef}

/-! ### The check of a scope -/

/-- What an attempt to make a class comes to on account of its table. -/
structure ChecksScope (s : Store) (name : String) (table : SymbolTable)
    (outcome : Outcome ClassRef) : Prop where
  refused_iff : (∃ e, outcome.result = .error e) ↔ table.names = none ∨ table.overloads = none
  names : table.names = none → outcome.result = .error (.incompleteScope name .names)
  overloads : table.names ≠ none → table.overloads = none →
    outcome.result = .error (.incompleteScope name .overloads)
  /-- A refused attempt makes no block and changes none. -/
  unchanged : ∀ e, outcome.result = .error e → outcome.store = s

/-- An attempt checks its scope when it is refused for the first map that is lacking and succeeds if
there is none. -/
theorem ChecksScope.intro {outcome : Outcome ClassRef}
    (hrefused : ∀ part, table.missingPart? = some part →
      outcome.result = .error (.incompleteScope name part) ∧ outcome.store = s)
    (hmade : table.missingPart? = none → ∃ c, outcome.result = .ok c) :
    s.ChecksScope name table outcome := by
  have hnames (h : table.names = none) := (hrefused _ (table.missingPart?_of_names h)).1
  have hoverloads (h : table.names ≠ none) (h' : table.overloads = none) :=
    (hrefused _ (table.missingPart?_of_overloads h h')).1
  refine ⟨⟨?_, ?_⟩, hnames, hoverloads, ?_⟩
  · -- With both maps nothing is missing, and the attempt would have succeeded.
    rintro ⟨e, he⟩
    by_contra hboth
    rw [not_or] at hboth
    obtain ⟨names, hsome⟩ := Option.ne_none_iff_exists'.1 hboth.1
    obtain ⟨overloads, hsome'⟩ := Option.ne_none_iff_exists'.1 hboth.2
    obtain ⟨c, hc⟩ := hmade (by rw [SymbolTable.missingPart?, hsome, hsome'])
    rw [hc] at he
    cases he
  · -- The names are looked at first, so the overloads count only where there are names.
    intro hlacking
    by_cases h : table.names = none
    · exact ⟨_, hnames h⟩
    · exact ⟨_, hoverloads h (hlacking.resolve_left h)⟩
  · intro e he
    cases hpart : table.missingPart? with
    | some part => exact (hrefused part hpart).2
    | none =>
        obtain ⟨c, hc⟩ := hmade hpart
        rw [hc] at he
        cases he

/-- Making a class is refused for the scope alone. -/
theorem checksScope_create (s : Store) (name : String) (table : SymbolTable) :
    s.ChecksScope name table (s.create name table) := by
  refine .intro ?_ ?_
  · intro part hpart
    rw [create_of_incomplete name hpart]
    exact ⟨rfl, rfl⟩
  · intro hnone
    rw [create_of_complete name hnone]
    exact ⟨_, rfl⟩

/-- Existing ancestors are no ground for refusing a new class. -/
theorem checksScope_createWithAncestors (name : String) (table : SymbolTable)
    {ancestors : List ClassRef} (hancestors : ∀ a ∈ ancestors, s.Contains a.block) :
    s.ChecksScope name table (s.createWithAncestors name table ancestors) := by
  refine .intro ?_ ?_
  · intro part hpart
    rw [createWithAncestors_of_incomplete name ancestors hpart]
    exact ⟨rfl, rfl⟩
  · intro hnone
    by_cases hne : ancestors = []
    · subst hne
      rw [createWithAncestors_nil, create_of_complete name hnone]
      exact ⟨_, rfl⟩
    · rw [createWithAncestors_of_complete name hnone hne fun a ha => ne_nextId (hancestors a ha)]
      exact ⟨_, rfl⟩

/-! ### Tables are kept -/

/-- Every block of `s` is there in `s'` too, with the same table. -/
def TablesKept (s s' : Store) : Prop :=
  ∀ id, s.Contains id → s'.Contains id ∧ s'.table id = s.table id

theorem TablesKept.refl (s : Store) : s.TablesKept s :=
  fun _ hid => ⟨hid, rfl⟩

theorem TablesKept.trans {s'' : Store} (h : s.TablesKept s') (h' : s'.TablesKept s'') :
    s.TablesKept s'' := by
  intro id hid
  obtain ⟨hid', htable⟩ := h id hid
  obtain ⟨hid'', htable'⟩ := h' id hid'
  exact ⟨hid'', htable'.trans htable⟩

theorem tablesKept_push (s : Store) (b : ClassBlock) : s.TablesKept (s.push b) := by
  intro id hid
  refine ⟨contains_push.2 (.inl hid), ?_⟩
  rw [Store.table, block_push_of_ne (ne_nextId hid), Store.table]

theorem tablesKept_set {b : ClassBlock} (hb : b.table = s.table id) :
    s.TablesKept (s.set id b) := by
  intro other hother
  refine ⟨contains_set.2 hother, ?_⟩
  by_cases heq : other = id
  · subst heq
    rw [Store.table, block_set_self hother, hb]
  · rw [Store.table, block_set_of_ne heq, Store.table]

/-- A call that is refused, changes a block or makes one keeps the tables. -/
theorem TablesKept.of_performed {call : Call} {result : Except ClassError (Option ClassRef)}
    (hperformed : Performed s call result s') : s.TablesKept s' := by
  cases hperformed with
  | refused => exact .refl s
  | changed _ heffect => exact tablesKept_set heffect.table_eq
  | created => exact tablesKept_push s _

/-- Making a class changes no table of another. -/
theorem tablesKept_create (s : Store) (name : String) (table : SymbolTable) :
    s.TablesKept (s.create name table).store :=
  .of_performed (reported_create name table).performed

/-- Making a class with ancestors is making it, and then setting its order if there is a class and
there are ancestors. -/
theorem createWithAncestors_eq_or (s : Store) (name : String) (table : SymbolTable)
    (ancestors : List ClassRef) :
    s.createWithAncestors name table ancestors = s.create name table ∨
      ∃ c mro, (s.create name table).result = .ok c ∧
        (s.createWithAncestors name table ancestors).result =
          (((s.create name table).store.replaceMro c.block mro).result.map fun _ => c) ∧
        (s.createWithAncestors name table ancestors).store =
          ((s.create name table).store.replaceMro c.block mro).store := by
  unfold createWithAncestors
  -- The order is set only for a class that was made, and only if there are ancestors.
  cases hresult : (s.create name table).result with
  | error e => exact .inl (by simp [hresult])
  | ok c =>
      cases ancestors with
      | nil => exact .inl (by simp [hresult])
      | cons first rest =>
          exact .inr ⟨c, c :: first :: rest, rfl, by simp [hresult], by simp [hresult]⟩

/-- After a class is made, setting its order keeps the tables. -/
theorem tablesKept_createWithAncestors (s : Store) (name : String) (table : SymbolTable)
    (ancestors : List ClassRef) :
    (s.create name table).store.TablesKept (s.createWithAncestors name table ancestors).store := by
  rcases s.createWithAncestors_eq_or name table ancestors with heq | ⟨c, mro, -, -, hstore⟩
  · rw [heq]
    exact .refl _
  · rw [hstore]
    exact .of_performed (reported_replaceMro c mro).performed

/-- No call takes a block away or changes a table, also where the classes that it is given do not
exist. -/
theorem tablesKept_perform (s : Store) (call : Call) : s.TablesKept (s.perform call).store := by
  -- Only a class with ancestors is looked at apart: its order may be refused after it was made.
  cases call with
  | create name table => exact tablesKept_create s name table
  | createWithAncestors name table ancestors =>
      exact (tablesKept_create s name table).trans
        (tablesKept_createWithAncestors s name table ancestors)
  | replaceMro c mro => exact .of_performed (reported_replaceMro c mro).performed
  | extendMro c entry => exact .of_performed (reported_extendMro c entry).performed
  | addBase c base => exact .of_performed (reported_addBase c base).performed
  | sealClass c => exact .of_performed (reported_sealClass c).performed

/-! ### What a class is made over -/

/-- The block exists and has this table, which lacks nothing. -/
structure MadeOver (s : Store) (id : ClassId) (table : SymbolTable) : Prop where
  contains : s.Contains id
  table_eq : s.table id = table
  complete : table.missingPart? = none

/-- A class stays made over its table while tables are kept. -/
theorem MadeOver.mono (hmade : s.MadeOver id table) (hkept : s.TablesKept s') :
    s'.MadeOver id table := by
  obtain ⟨hcontains, htable⟩ := hkept id hmade.contains
  exact ⟨hcontains, htable.trans hmade.table_eq, hmade.complete⟩

/-- A new class has the table that it was made over. -/
theorem madeOver_create (hmade : (s.create name table).result = .ok c) :
    (s.create name table).store.MadeOver c.block table := by
  cases htable : table.missingPart? with
  | some part =>
      rw [create_of_incomplete name htable] at hmade
      cases hmade
  | none =>
      rw [create_of_complete name htable] at hmade ⊢
      cases hmade
      refine ⟨contains_push_nextId _ _, ?_, htable⟩
      rw [Store.table]
      exact congrArg ClassBlock.table (block_push_nextId s _)

/-- A class with ancestors is made over the table that was given, which setting its order keeps. -/
theorem madeOver_createWithAncestors {ancestors : List ClassRef}
    (hmade : (s.createWithAncestors name table ancestors).result = .ok c) :
    (s.createWithAncestors name table ancestors).store.MadeOver c.block table := by
  -- The class that is given is the one that was made before its order was set.
  have hcreate : (s.create name table).result = .ok c := by
    rcases s.createWithAncestors_eq_or name table ancestors with heq | ⟨d, mro, hd, hresult, -⟩
    · rw [← heq, hmade]
    · obtain ⟨-, -, rfl⟩ := exists_of_map_eq_ok (hresult.symm.trans hmade)
      exact hd
  exact (madeOver_create hcreate).mono (tablesKept_createWithAncestors s name table ancestors)

/-- A call that gives a class made it over the table that it was given. -/
theorem exists_madeOver_perform {call : Call} (hmade : (s.perform call).result = .ok (some c)) :
    ∃ table, call.table? = some table ∧ (s.perform call).store.MadeOver c.block table := by
  cases call with
  | create name table =>
      obtain ⟨_, hd, heq⟩ := exists_of_map_eq_ok hmade
      cases heq
      exact ⟨table, rfl, madeOver_create hd⟩
  | createWithAncestors name table ancestors =>
      obtain ⟨_, hd, heq⟩ := exists_of_map_eq_ok hmade
      cases heq
      exact ⟨table, rfl, madeOver_createWithAncestors hd⟩
  -- The other calls give no class.
  | replaceMro | extendMro | addBase | sealClass =>
      obtain ⟨_, _, heq⟩ := exists_of_map_eq_ok hmade
      cases heq

/-- The class answers every question about a name from these two maps. -/
structure Exposes (s : Store) (id : ClassId) (names : NameMap) (overloads : OverloadMap) :
    Prop where
  lookup? : ∀ name, s.lookup? id name = names[name]?
  overloadsOf : ∀ name, s.overloadsOf id name = overloads[name]?.getD []

/-- A class answers from the two maps that it was made over. -/
theorem MadeOver.exposes {names : NameMap} {overloads : OverloadMap}
    (hmade : s.MadeOver id ⟨some names, some overloads⟩) : s.Exposes id names overloads where
  lookup? name := by
    rw [Store.lookup?, hmade.table_eq, SymbolTable.lookup?, Option.bind_some]
  overloadsOf name := by
    rw [Store.overloadsOf, hmade.table_eq, SymbolTable.overloadsOf, Option.bind_some]

end Store

namespace Heap

variable {h : Heap} {actions : List Action} {k : Nat} {call : Call} {id : ClassId}

/-- No action takes a block away or changes a table. -/
theorem tablesKept_next (h : Heap) (action : Action) :
    h.store.TablesKept (h.next action).store := by
  cases action with
  | call call => exact h.store.tablesKept_perform call
  | copy | takeEntry | takeFromBase | drop | free => exact .refl _

/-- No run changes the table of a class. -/
theorem tablesKept_run (h : Heap) (actions : List Action) :
    h.store.TablesKept (h.run actions).store := by
  induction actions generalizing h with
  | nil => exact .refl _
  | cons action later ih => exact (h.tablesKept_next action).trans (ih _)

/-- A call that made a block of a run made it over the table that it was given. -/
theorem MadeBy.madeOver (hadm : empty.Admits actions) (hmade : MadeBy actions k call id) :
    ∃ table, call.table? = some table ∧ (empty.run actions).store.MadeOver id table := by
  obtain ⟨table, htable, hover⟩ := Store.exists_madeOver_perform hmade.result
  refine ⟨table, htable, hover.mono ?_⟩
  have hlater := tablesKept_run (empty.run (actions.take (k + 1))) (actions.drop (k + 1))
  rwa [run_split, (hadm.step hmade.action).2] at hlater

end Heap

end TypeRegistry
