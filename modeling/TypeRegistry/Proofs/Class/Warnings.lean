import TypeRegistry.Proofs.Class.Ownership

/-!
# Which refusals are logged

A call that is accepted logs no refusal. A call that is refused by the scope of a new class or by
the seal of a block logs this once, with the name of the class. The two refusals of a resolution
order are returned as errors and leave no event.

## Main definitions and statements

* `warnings`: the refusals among some events.
* `ClassError.warning?`: the event with which a refusal is logged, if it is.
* `Outcome.LogsRefusals`: an outcome logs its refusal so, and no other.
* `Heap.Reachable.refusals_logged`: every possible call in a reachable heap does.
* `Heap.orderRefusals_not_logged`: two calls that are refused without an event.
-/

namespace TypeRegistry

/-- The refusals among the events. -/
def warnings (events : List Event) : List Event :=
  events.filter (·.level = .warn)

/-- The event with which a refusal is logged. The checks of a resolution order log nothing. -/
def ClassError.warning? : ClassError → Option Event
  | incompleteScope className part => some (.scopeRejected className part)
  | frozen className => some (.mutationRejected className)
  | foreignHead .. | ownAncestor .. => none

/-- The name of the class that a call is about: the one it is made on, or the one it makes. -/
def Store.subjectName (s : Store) : Call → String
  | .create name _ | .createWithAncestors name _ _ => name
  | .replaceMro c _ | .extendMro c _ | .addBase c _ | .sealClass c => s.className c.block

/-- The outcome of a call about the class `name` logs its refusal, if it is one that is logged, and
no other. -/
structure Outcome.LogsRefusals {α : Type} (name : String) (o : Outcome α) : Prop where
  ok : ∀ a, o.result = .ok a → warnings o.events = []
  error : ∀ e, o.result = .error e → e.className = name ∧ warnings o.events = e.warning?.toList

namespace Outcome.LogsRefusals

variable {α β : Type} {name : String} {events : List Event} {s : Store}

theorem of_ok {a : α} (hevents : warnings events = []) :
    LogsRefusals name (⟨.ok a, events, s⟩ : Outcome α) :=
  ⟨fun _ _ => hevents, nofun⟩

/-- An outcome with an error logs it as its kind says. -/
theorem of_error {e : ClassError} (hname : e.className = name)
    (hevents : warnings events = e.warning?.toList) :
    LogsRefusals name (⟨.error e, events, s⟩ : Outcome α) := by
  refine ⟨nofun, ?_⟩
  rintro _ ⟨⟩
  exact ⟨hname, hevents⟩

/-- The value of an outcome plays no part in what it logs. -/
theorem map {o : Outcome α} (ho : o.LogsRefusals name) (f : α → β) :
    (o.map f).LogsRefusals name := by
  obtain ⟨_ | _, events, store⟩ := o
  · obtain ⟨hname, hevents⟩ := ho.error _ rfl
    exact .of_error hname hevents
  · exact .of_ok (ho.ok _ rfl)

end Outcome.LogsRefusals

namespace Store

open Outcome (LogsRefusals)

variable {s : Store}

/-- A change of a sealed block logs the refusal. -/
theorem logsRefusals_of_sealed {id : ClassId} (hs : s.isSealed id = true)
    (change : ClassBlock → Except ClassError (ClassBlock × List Event)) :
    (s.mutate id change).LogsRefusals (s.className id) := by
  rw [mutate_of_sealed hs]
  exact .of_error rfl rfl

/-- A replacement logs the refusal of a sealed block, and no other. -/
theorem logsRefusals_replaceMro (id : ClassId) (mro : List ClassRef) :
    (s.replaceMro id mro).LogsRefusals (s.className id) := by
  cases hs : s.isSealed id with
  | true => exact logsRefusals_of_sealed hs _
  | false =>
      rcases mro with _ | ⟨head, rest⟩
      · rw [replaceMro_nil hs]
        exact .of_ok rfl
      -- The checks of the order come after the seal was passed, and none of them logs.
      by_cases hhead : head.block = id
      · by_cases hown : ∃ a ∈ rest, a.block = id
        · rw [replaceMro_of_own hs hhead hown]
          exact .of_error rfl rfl
        · rw [replaceMro_of_others hs hhead fun a ha e => hown ⟨a, ha, e⟩]
          exact .of_ok rfl
      · rw [replaceMro_of_foreign hs hhead]
        exact .of_error rfl rfl

/-- An extension logs the refusal of a sealed block, and no other. -/
theorem logsRefusals_extendMro (id : ClassId) (entry : ClassRef) :
    (s.extendMro id entry).LogsRefusals (s.className id) := by
  cases hs : s.isSealed id with
  | true => exact logsRefusals_of_sealed hs _
  | false =>
      by_cases hentry : entry.block = id <;> cases horder : (s.block id).linearized
      · rw [extendMro_of_head hs horder hentry]
        exact .of_ok rfl
      · rw [extendMro_of_own hs horder hentry]
        exact .of_error rfl rfl
      · rw [extendMro_of_foreign hs horder hentry]
        exact .of_error rfl rfl
      · rw [extendMro_of_other hs horder hentry]
        exact .of_ok rfl

/-- A new base is refused by a sealed block only, and this is logged. -/
theorem logsRefusals_addBase (id : ClassId) (base : Ty) :
    (s.addBase id base).LogsRefusals (s.className id) := by
  cases hs : s.isSealed id with
  | true => exact logsRefusals_of_sealed hs _
  | false =>
      rw [addBase_of_open hs]
      exact .of_ok rfl

/-- Sealing is never refused. -/
theorem logsRefusals_sealBlock (id : ClassId) :
    (s.sealBlock id).LogsRefusals (s.className id) := by
  simp only [sealBlock]
  split <;> exact .of_ok rfl

/-- A new class is refused for its scope only, and this is logged. -/
theorem logsRefusals_create (name : String) (table : SymbolTable) :
    (s.create name table).LogsRefusals name := by
  cases htable : table.missingPart? with
  | some part =>
      rw [create_of_incomplete name htable]
      exact .of_error rfl rfl
  | none =>
      rw [create_of_complete name htable]
      exact .of_ok rfl

/-- A new class is refused for its scope only, provided its ancestors exist. -/
theorem logsRefusals_createWithAncestors (name : String) (table : SymbolTable)
    {ancestors : List ClassRef} (hancestors : ∀ a ∈ ancestors, s.Contains a.block) :
    (s.createWithAncestors name table ancestors).LogsRefusals name := by
  cases htable : table.missingPart? with
  | some part =>
      rw [createWithAncestors_of_incomplete name ancestors htable]
      exact .of_error rfl rfl
  | none =>
      rcases ancestors with _ | ⟨first, rest⟩
      · rw [createWithAncestors_nil]
        exact logsRefusals_create name table
      · -- Ancestors that exist are other blocks, so the order of a new block is not refused.
        have hothers : ∀ a ∈ first :: rest, a.block ≠ s.nextId := fun a ha =>
          ne_nextId (hancestors a ha)
        rw [createWithAncestors_of_complete name htable (List.cons_ne_nil _ _) hothers]
        exact .of_ok rfl

/-- A call among existing classes logs its refusal, if it is one that is logged, and no other. -/
theorem logsRefusals_perform {call : Call} (hrefs : ∀ c ∈ call.references, s.Contains c.block) :
    (s.perform call).LogsRefusals (s.subjectName call) := by
  cases call with
  | create name table => exact (logsRefusals_create name table).map some
  | createWithAncestors name table ancestors =>
      exact (logsRefusals_createWithAncestors name table hrefs).map some
  | replaceMro c mro => exact (logsRefusals_replaceMro c.block mro).map _
  | extendMro c entry => exact (logsRefusals_extendMro c.block entry).map _
  | addBase c base => exact (logsRefusals_addBase c.block base).map _
  | sealClass c => exact (logsRefusals_sealBlock c.block).map _

end Store

namespace Heap

variable {h : Heap} {call : Call}

/-- In every reachable heap a possible call that is accepted logs no refusal. One that is refused
gives an error with the name of the class that it is about, and logs a refusal with the same name
once, if the scope or the seal refused it. If an order was refused it logs no refusal. -/
theorem Reachable.refusals_logged (hr : h.Reachable) (ha : h.Allows (.call call)) :
    let o := h.store.perform call
    let name := h.store.subjectName call
    (∀ made, o.result = .ok made → warnings o.events = []) ∧
      ∀ e, o.result = .error e →
        (∃ part, e = .incompleteScope name part ∧
          warnings o.events = [.scopeRejected name part]) ∨
        (e = .frozen name ∧ warnings o.events = [.mutationRejected name]) ∨
        ((∃ found, e = .foreignHead name found) ∨ e = .ownAncestor name) ∧
          warnings o.events = [] := by
  intro o name
  have ho := Store.logsRefusals_perform (hr.sound.contains_references ha)
  refine ⟨ho.ok, ?_⟩
  intro e he
  obtain ⟨hname, hevents⟩ := ho.error e he
  -- The name in the error is that of the class, and its kind decides what was logged.
  cases e with
  | incompleteScope className part =>
      obtain rfl : className = name := hname
      exact .inl ⟨part, rfl, hevents⟩
  | frozen className =>
      obtain rfl : className = name := hname
      exact .inr (.inl ⟨rfl, hevents⟩)
  | foreignHead className found =>
      obtain rfl : className = name := hname
      exact .inr (.inr ⟨.inl ⟨found, rfl⟩, hevents⟩)
  | ownAncestor className =>
      obtain rfl : className = name := hname
      exact .inr (.inr ⟨.inr rfl, hevents⟩)

/-- Two classes, of which the second is sealed. -/
def besideSealed : List Action :=
  let table := BodyScope.empty.toTable
  [.call (.create "Point" table), .call (.create "Origin" table),
    .call (.sealClass (.ofBlock ⟨1⟩))]

/-- The seal logs that it refuses a base. -/
theorem refusals_logged_sealedBase :
    let h := empty.run besideSealed
    let call : Call := .addBase (.ofBlock ⟨1⟩) .any
    h.Reachable ∧ h.Allows (.call call) ∧
      (h.store.perform call).result = .error (.frozen "Origin") ∧
      warnings (h.store.perform call).events = [.mutationRejected "Origin"] := by
  intro h call
  have hadm : empty.Admits besideSealed := by decide
  have hr : h.Reachable := hadm.reachable
  have ha : h.Allows (.call call) := by decide
  have hresult : (h.store.perform call).result = .error (.frozen "Origin") := rfl
  refine ⟨hr, ha, hresult, ?_⟩
  rcases (hr.refusals_logged ha).2 _ hresult with ⟨_, ⟨⟩, _⟩ | ⟨-, hevents⟩ | ⟨⟨_, ⟨⟩⟩ | ⟨⟨⟩⟩, _⟩
  exact hevents

/-- Refusals are not all logged: an order that is headed by another class and one that names its
class twice are refused without any event. -/
theorem orderRefusals_not_logged :
    let h := empty.run besideSealed
    let point := ClassRef.ofBlock ⟨0⟩
    let foreign : Call := .replaceMro point [.ofBlock ⟨1⟩]
    let cyclic : Call := .replaceMro point [point, point]
    h.Reachable ∧
      (h.Allows (.call foreign) ∧
        (h.store.perform foreign).result = .error (.foreignHead "Point" "Origin") ∧
        (h.store.perform foreign).events = []) ∧
      h.Allows (.call cyclic) ∧
        (h.store.perform cyclic).result = .error (.ownAncestor "Point") ∧
        (h.store.perform cyclic).events = [] := by
  intro h point foreign cyclic
  have hadm : empty.Admits besideSealed := by decide
  exact ⟨hadm.reachable, ⟨by decide, rfl, rfl⟩, by decide, rfl, rfl⟩

end Heap

end TypeRegistry
