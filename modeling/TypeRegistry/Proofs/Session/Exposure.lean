import TypeRegistry.Proofs.Class.Tables
import TypeRegistry.Proofs.Session.Steps

/-!
# What a class exposes of its scope

In a session a class is made over the scope in a slot. The scope can take further declarations, be
copied to other slots and be declared in there; the class can be changed and sealed, and so can
other classes. None of this shows in what the class answers: it exposes the scope as it was when the
class was made.

## Main statements

* `Session.keepsTables_afterAll`: no run takes a block away or changes the table of one.
* `Session.exists_madeOver`: a class is made over the table of the scope in the slot.
* `Session.class_exposes_scope`: a class exposes the complete scope that it was made with, for good.
-/

namespace TypeRegistry.Session

/-! ### Tables are kept -/

/-- No block is gone in the later session, and none has another table. -/
def KeepsTables (session later : Session) : Prop :=
  session.store.TablesKept later.store

/-- Keeping tables composes along the steps of a session. -/
instance : IsPreorder Session KeepsTables where
  refl session := .refl session.store
  trans _ _ _ := Store.TablesKept.trans

/-- The session in which a new class is put in a slot, and what is reported of it. -/
theorem run_putNew (slot : String) (make : Store → Outcome ClassRef) (session : Session) :
    (putNew slot make).run session =
      .ok (⟨(make session.store).result.map
          (session.place slot (make session.store)).classReport, (make session.store).events⟩,
        session.place slot (make session.store)) := rfl

/-- Placing a class in a slot leaves the store as the outcome has it. -/
theorem store_place (session : Session) (slot : String) (outcome : Outcome ClassRef) :
    (session.place slot outcome).store = outcome.store := by
  rw [place]
  split <;> rfl

/-- A step that makes a class keeps the tables when the making does. -/
theorem moves_putNew (slot : String) {make : Store → Outcome ClassRef}
    (hmake : ∀ s : Store, s.TablesKept (make s).store) : Moves KeepsTables (putNew slot make) := by
  intro session result later hok
  rw [run_putNew] at hok
  cases hok
  rw [KeepsTables, store_place]
  exact hmake session.store

/-- A step that changes a class keeps the tables when the change does. -/
theorem moves_alter (c : ClassRef) {change : Store → Outcome Unit}
    (hchange : ∀ s : Store, s.TablesKept (change s).store) :
    Moves KeepsTables (alter c change) := by
  intro session result later hok
  cases hok
  exact hchange session.store

/-- No step takes a block away or changes the table of one. -/
theorem moves_perform (step : Step) : Moves KeepsTables step.perform := by
  -- A step writes beside the store or makes one call on it, after it has read its slots.
  have hmodify {f : Session → Session} (hf : ∀ session, (f session).store = session.store) :
      Moves KeepsTables (modify f : SessionM Unit) := by
    refine .modify fun session => ?_
    rw [KeepsTables, hf]
    exact .refl _
  have hput (slot : String) (scope : HeldScope) : Moves KeepsTables (putScope slot scope) :=
    hmodify fun _ => rfl
  cases step with
  | putScope slot scope => exact hput slot scope
  | copyScope source slot =>
      exact .bind (.of_reads (moves_scopeIn source)) fun scope => hput slot scope
  | declare slot name d =>
      refine .discard (.bind (.of_reads (moves_scopeIn slot)) fun scope => ?_)
      cases scope with
      | fixed table => exact .of_reads (moves_lift (.error ⟨slot⟩))
      | body scope => exact .bind (hput slot _) fun _ => .of_reads (moves_pure _)
  | letType slot e =>
      refine .discard (.bind (.of_reads (moves_typeOf e)) fun t => ?_)
      exact .bind (hmodify fun _ => rfl) fun _ =>
        .of_reads (.bind moves_get fun _ => moves_pure _)
  | nestType slot e w times =>
      exact .bind (.of_reads (moves_typeOf e)) fun t => hmodify fun _ => rfl
  | create slot name scope? =>
      refine .discard (.bind (.of_reads (moves_tableFor scope?)) fun table => ?_)
      exact moves_putNew slot fun s => s.tablesKept_create name table
  | createWithAncestors slot name scope? ancestors =>
      refine .discard (.bind (.of_reads (moves_tableFor scope?)) fun table => ?_)
      refine .bind (.of_reads (.mapM moves_classIn ancestors)) fun ancestors => ?_
      exact moves_putNew slot fun s =>
        s.tablesKept_perform (.createWithAncestors name table ancestors)
  | copyClass source slot mode =>
      refine .discard (.bind (.of_reads (moves_classIn source)) fun c => ?_)
      exact .bind (hmodify fun _ => rfl) fun _ =>
        .of_reads (.bind moves_get fun _ => moves_pure _)
  | dropClass slot =>
      refine .discard (.bind (.of_reads moves_get) fun _ => ?_)
      exact .bind (hmodify fun _ => rfl) fun _ => .of_reads (moves_pure _)
  | replaceMro slot mro =>
      refine .discard (.bind (.of_reads (moves_classIn slot)) fun c => ?_)
      refine .bind (.of_reads (.mapM moves_classIn mro)) fun mro => ?_
      exact moves_alter c fun s => s.tablesKept_perform (.replaceMro c mro)
  | extendMro slot entry =>
      refine .discard (.bind (.of_reads (moves_classIn slot)) fun c => ?_)
      refine .bind (.of_reads (moves_classIn entry)) fun entry => ?_
      exact moves_alter c fun s => s.tablesKept_perform (.extendMro c entry)
  | addBase slot base =>
      refine .discard (.bind (.of_reads (moves_classIn slot)) fun c => ?_)
      refine .bind (.of_reads (moves_typeOf base)) fun base => ?_
      exact moves_alter c fun s => s.tablesKept_perform (.addBase c base)
  | sealClass slot =>
      refine .discard (.bind (.of_reads (moves_classIn slot)) fun c => ?_)
      exact moves_alter c fun s => s.tablesKept_perform (.sealClass c)

/-- A step that fails leaves the session as it was, so it keeps the tables as well. -/
theorem keepsTables_after (session : Session) (step : Step) :
    session.KeepsTables (session.after step) := by
  rw [after]
  split
  · exact moves_perform step _ _ _ ‹_›
  · exact refl_of KeepsTables session

/-- No run takes a block away or changes the table of one. -/
theorem keepsTables_afterAll (session : Session) (steps : List Step) :
    session.KeepsTables (session.afterAll steps) := by
  induction steps generalizing session with
  | nil => exact refl_of KeepsTables session
  | cons step later ih => exact trans_of KeepsTables (session.keepsTables_after step) (ih _)

/-! ### Classes made over a scope -/

variable {session made : Session} {slot scopeSlot name : String} {held : HeldScope}
  {creation : Creation} {report : ClassReport}

/-- The table for a class is that of the scope in the slot, at that moment. -/
theorem run_tableFor (hheld : session.scopes[scopeSlot]? = some held) :
    (tableFor (some scopeSlot)).run session = .ok (held.toTable, session) := by
  have hscope : (scopeIn scopeSlot).run session = .ok (held, session) := by
    show (liftM (require scopeSlot session.scopes[scopeSlot]?) : SessionM _).run session = _
    rw [hheld]
    rfl
  rw [tableFor, StateT.run_bind, hscope]
  rfl

/-- A class that was made is in its slot, and has the table that it was made over. -/
theorem exists_madeOver_of_putNew {make : Store → Outcome ClassRef} {table : SymbolTable}
    (hmake : ∀ s c, (make s).result = .ok c → (make s).store.MadeOver c.block table)
    (hrun : (putNew slot make).run session = .ok (creation, made))
    (hmade : creation.result = .ok report) :
    ∃ c, made.classes[slot]? = some c ∧ made.store.MadeOver c.block table := by
  -- Putting a class is one call on the store, whose outcome is given out.
  rw [run_putNew] at hrun
  cases hrun
  obtain ⟨c, hc, -⟩ := exists_of_map_eq_ok hmade
  refine ⟨c, by simp [place, hc], ?_⟩
  rw [store_place]
  exact hmake session.store c hc

/-- A class that is made in a session is made over the table of the scope in the slot. -/
theorem exists_madeOver (hheld : session.scopes[scopeSlot]? = some held)
    (hrun : (create slot name (some scopeSlot)).run session = .ok (creation, made) ∨
      ∃ ancestors, (createWithAncestors slot name (some scopeSlot) ancestors).run session =
        .ok (creation, made))
    (hmade : creation.result = .ok report) :
    ∃ c, made.classes[slot]? = some c ∧ made.store.MadeOver c.block held.toTable := by
  -- Either step reads the table first and makes the class last, and reads at most in between.
  rcases hrun with hrun | ⟨ancestors, hrun⟩
  · obtain ⟨table, htable, hput⟩ := exists_of_bind_reads (moves_tableFor _) hrun
    rw [run_tableFor hheld] at htable
    cases htable
    exact exists_madeOver_of_putNew (fun _ _ => Store.madeOver_create) hput hmade
  · obtain ⟨table, htable, hrest⟩ := exists_of_bind_reads (moves_tableFor _) hrun
    rw [run_tableFor hheld] at htable
    cases htable
    obtain ⟨refs, -, hput⟩ := exists_of_bind_reads (.mapM moves_classIn ancestors) hrest
    exact exists_madeOver_of_putNew (fun _ _ => Store.madeOver_createWithAncestors) hput hmade

open Heap in
/-- A class exposes exactly the complete scope that it was made with, for good. A new class is
refused for a map that its table lacks, for the names before the overloads and for nothing else, and
then nothing changes. In a run every block that exists was made by a call over a table with both
maps; and the two maps that the call was given are what the class answers from, then and after every
further run. In a session the table is that of the scope in a slot, and it stays what the class
answers from whatever is done next, be it to classes, to the scope or to a copy of it. -/
theorem class_exposes_scope :
    (∀ (s : Store) (name : String) (table : SymbolTable),
      s.ChecksScope name table (s.create name table) ∧
        ∀ ancestors : List ClassRef, (∀ a ∈ ancestors, s.Contains a.block) →
          s.ChecksScope name table (s.createWithAncestors name table ancestors)) ∧
    (∀ actions, empty.Admits actions →
      (∀ id, (empty.run actions).store.Contains id → ∃ k call, MadeBy actions k call id) ∧
      ∀ k call id, MadeBy actions k call id →
        ∃ names overloads, call.table? = some ⟨some names, some overloads⟩ ∧
          (empty.run actions).store.table id = ⟨some names, some overloads⟩ ∧
            ∀ later, ((empty.run actions).run later).store.Exposes id names overloads) ∧
    ∀ (session made : Session) (slot name scopeSlot : String) (held : HeldScope)
      (creation : Creation) (report : ClassReport), session.scopes[scopeSlot]? = some held →
      ((create slot name (some scopeSlot)).run session = .ok (creation, made) ∨
        ∃ ancestors, (createWithAncestors slot name (some scopeSlot) ancestors).run session =
          .ok (creation, made)) →
      creation.result = .ok report →
        ∃ c names overloads, made.classes[slot]? = some c ∧
          held.toTable = ⟨some names, some overloads⟩ ∧
            ∀ steps, (made.afterAll steps).store.Exposes c.block names overloads := by
  -- The check of one attempt, the blocks of a run, and the classes of a session. The last two are
  -- alike: a class is made over its table, tables are kept, and a class answers from its table.
  refine ⟨?_, ?_, ?_⟩
  · intro s name table
    refine ⟨s.checksScope_create name table, fun ancestors hancestors => ?_⟩
    exact Store.checksScope_createWithAncestors name table hancestors
  · intro actions hadm
    refine ⟨fun id => exists_madeBy hadm, fun k call id hmade => ?_⟩
    obtain ⟨table, htable, hover⟩ := hmade.madeOver hadm
    obtain ⟨names, overloads, rfl⟩ := SymbolTable.missingPart?_eq_none_iff.1 hover.complete
    refine ⟨names, overloads, htable, hover.table_eq, fun later => ?_⟩
    exact (hover.mono (tablesKept_run _ later)).exposes
  · intro session made slot name scopeSlot held creation report hheld hrun hmade
    obtain ⟨c, hslot, hover⟩ := exists_madeOver hheld hrun hmade
    obtain ⟨names, overloads, htable⟩ := SymbolTable.missingPart?_eq_none_iff.1 hover.complete
    refine ⟨c, names, overloads, hslot, htable, fun steps => ?_⟩
    rw [htable] at hover
    exact (hover.mono (keepsTables_afterAll made steps)).exposes

/-- A session with a scope in which one name is declared. -/
def withArea : Session :=
  Session.afterAll {} [.putScope "body" (.body .empty), .declare "body" "area" ⟨0⟩]

/-- The scope is declared in, copied and declared in under its other name; the class is sealed. -/
def redeclared : List Step :=
  [.declare "body" "area" ⟨1⟩, .copyScope "body" "copy", .declare "copy" "size" ⟨2⟩,
    .sealClass "point"]

/-- A scope without names is refused, one without either map for the names, and a class made over a
complete one keeps it while the scope goes on. -/
theorem class_exposes_scope_point :
    let table : SymbolTable := { overloads := some ∅ }
    (Store.empty.create "Point" table).result = .error (.incompleteScope "Point" .names) ∧
      ∃ creation made c,
        (create "point" "Point" (some "body")).run withArea = .ok (creation, made) ∧
        made.classes["point"]? = some c ∧
          let after := made.afterAll redeclared
          (after.scopes["copy"]?.map fun scope => scope.toTable.overloadsOf "area") =
              some [⟨0⟩, ⟨1⟩] ∧
            after.store.isSealed c.block = true ∧ after.store.lookup? c.block "area" = some ⟨0⟩ ∧
              after.store.overloadsOf c.block "area" = [⟨0⟩] ∧
                after.store.lookup? c.block "size" = none := by
  obtain ⟨hchecks, -, hsession⟩ := class_exposes_scope
  intro table
  refine ⟨(hchecks _ _ table).1.names rfl, ?_⟩
  have hscope : withArea.scopes["body"]? = some (.body (BodyScope.empty.declare "area" ⟨0⟩).2) := by
    rfl
  obtain ⟨c, names, overloads, hslot, htable, hexposes⟩ :=
    hsession withArea _ "point" "Point" "body" _ _ _ hscope (.inl rfl) rfl
  obtain ⟨hlookup, hoverloads⟩ := hexposes redeclared
  cases htable
  refine ⟨_, _, c, rfl, hslot, rfl, ?_, ?_, ?_, ?_⟩
  · cases hslot
    rfl
  · rw [hlookup]
    rfl
  · rw [hoverloads]
    rfl
  · rw [hlookup]
    rfl

end TypeRegistry.Session
