import Mathlib.Data.List.Induction
import TypeRegistry.Proofs.Class.Effect
import TypeRegistry.Session.Class

/-!
# Handles and the life of blocks

A program works with classes through handles that it holds. It makes calls with them, copies them,
takes further handles from what it reads of a block, and lets go of them. A block stays in memory
while a handle or another block in memory points at it: a block points at its ancestors and at the
classes in its bases. Blocks that point at each other keep each other.

When a block is freed is left open: an action of its own frees a block to which nothing points, so
a run may free it at once, later or never.

## Main definitions and statements

* `Heap.Allows`, `Heap.next`: the actions of a program and what they do.
* `Heap.run`, `Heap.Admits`, `Heap.history`: runs, and the calls made in them.
* `acceptedCalls`: the part of a history that tells of one block.
* `Heap.Admits.induction`, `Heap.Reachable.induction`: what holds at the start and is kept by every
  possible action holds of every possible run, and in every reachable heap.
* `Heap.Reachable.run_induction`: the same from any reachable heap on.
-/

namespace TypeRegistry

/-- The blocks at which a block points: its ancestors and the classes in its bases. -/
def ClassBlock.owned (b : ClassBlock) : List ClassId :=
  b.ancestors ++ b.bases.flatMap fun base => base.classes.map (·.block)

/-- A store, the handles that a program holds, and the blocks that are in memory. -/
structure Heap where
  /-- What was written to the blocks. -/
  store : Store := .empty
  /-- The handles that the program holds, each as often as it holds it; a type that it holds counts
  as a handle on each of its classes. -/
  held : List ClassRef := []
  live : List ClassId := []

/-- A step of a program that works with classes. -/
inductive Action where
  | call (call : Call)
  | copy (c : ClassRef) (mode : CopyMode)
  /-- Keeps an entry of the resolution order that is read through a handle. -/
  | takeEntry (c entry : ClassRef)
  /-- Keeps a class that occurs in a base that is read through a handle. -/
  | takeFromBase (c found : ClassRef)
  /-- Lets go of a handle. -/
  | drop (c : ClassRef)
  | free (id : ClassId)

/-- A call that was made and what came of it. -/
structure Record where
  call : Call
  /-- What it gave. -/
  result : Except ClassError (Option ClassRef)
  /-- What it logged. -/
  events : List Event

/-- The record of a call with this outcome. -/
def Call.record (call : Call) (outcome : Outcome (Option ClassRef)) : Record :=
  ⟨call, outcome.result, outcome.events⟩

/-- The records of a run of calls on a store, oldest first. -/
def Store.records (s : Store) : List Call → List Record
  | [] => []
  | call :: later => call.record (s.perform call) :: (s.perform call).store.records later

/-- The block that the call made or changed, if it was accepted. -/
def Record.subject? (r : Record) : Option ClassId :=
  match r.result with
  | .error _ => none
  | .ok made => (made.or r.call.receiver?).map (·.block)

/-- The accepted calls that made or changed the block `id`, oldest first. -/
def acceptedCalls (id : ClassId) (past : List Record) : List Call :=
  (past.filter fun r => r.subject? = some id).map (·.call)

/-- The calls that were accepted later come after those before. -/
@[simp]
theorem acceptedCalls_append (id : ClassId) (past later : List Record) :
    acceptedCalls id (past ++ later) = acceptedCalls id past ++ acceptedCalls id later := by
  simp [acceptedCalls]

/-- A call counts for the block that it made or changed. -/
theorem acceptedCalls_of_subject {id : ClassId} {r : Record} (hr : r.subject? = some id) :
    acceptedCalls id [r] = [r.call] := by
  simp [acceptedCalls, hr]

/-- A call does not count for another block, nor when it was refused. -/
theorem acceptedCalls_of_other {id : ClassId} {r : Record} (hr : r.subject? ≠ some id) :
    acceptedCalls id [r] = [] := by
  simp [acceptedCalls, hr]

namespace Heap

/-- The heap before anything was made. -/
def empty : Heap := {}

/-- What a program that holds these handles can do. A call is made with handles that it holds, and a
block is freed only when nothing points at it. -/
def Allows (h : Heap) : Action → Prop
  | .call call => ∀ c ∈ call.references, c ∈ h.held
  | .copy c _ => c ∈ h.held
  | .takeEntry c entry => c ∈ h.held ∧ entry ∈ h.store.mro c.block
  | .takeFromBase c found => c ∈ h.held ∧ ∃ base ∈ h.store.bases c.block, found ∈ base.classes
  | .drop c => c ∈ h.held
  | .free id =>
    id ∈ h.live ∧ (∀ c ∈ h.held, c.block ≠ id) ∧
      ∀ other ∈ h.live, id ∉ (h.store.block other).owned

/-- Whether an action is possible is decidable. -/
instance decidableAllows (h : Heap) : (action : Action) → Decidable (h.Allows action)
  | .call call => inferInstanceAs (Decidable (∀ c ∈ call.references, c ∈ h.held))
  | .copy c _ => inferInstanceAs (Decidable (c ∈ h.held))
  | .takeEntry c entry =>
    inferInstanceAs (Decidable (c ∈ h.held ∧ entry ∈ h.store.mro c.block))
  | .takeFromBase c found =>
    inferInstanceAs (Decidable
      (c ∈ h.held ∧ ∃ base ∈ h.store.bases c.block, found ∈ base.classes))
  | .drop c => inferInstanceAs (Decidable (c ∈ h.held))
  | .free id =>
    inferInstanceAs (Decidable
      (id ∈ h.live ∧ (∀ c ∈ h.held, c.block ≠ id) ∧
        ∀ other ∈ h.live, id ∉ (h.store.block other).owned))

/-- The heap once a call gave `result` and left `store`. A class that it made is held. -/
def settle (h : Heap) (result : Except ClassError (Option ClassRef)) (store : Store) : Heap :=
  let made := result.toOption.join.toList
  { store, held := made ++ h.held, live := made.map (·.block) ++ h.live }

/-- The heap after an action. -/
def next (h : Heap) : Action → Heap
  | .call call => h.settle (h.store.perform call).result (h.store.perform call).store
  | .copy c mode => { h with held := c.copy mode :: h.held }
  | .takeEntry _ entry => { h with held := entry :: h.held }
  | .takeFromBase _ found => { h with held := found :: h.held }
  | .drop c => { h with held := h.held.erase c }
  | .free id => { h with live := h.live.filter (· ≠ id) }

/-- The record of an action, if it is a call. -/
def record? (h : Heap) : Action → Option Record
  | .call call => some (call.record (h.store.perform call))
  | _ => none

/-! ### Runs -/

/-- The heap after a run. -/
def run (h : Heap) (actions : List Action) : Heap :=
  actions.foldl next h

/-- Every action of a run is possible when its turn comes. -/
def Admits (h : Heap) : List Action → Prop
  | [] => True
  | action :: later => h.Allows action ∧ (h.next action).Admits later

/-- Whether a run is possible is decidable. -/
instance decidableAdmits (h : Heap) : (actions : List Action) → Decidable (h.Admits actions)
  | [] => inferInstanceAs (Decidable True)
  | action :: later =>
    have := decidableAdmits (h.next action) later
    inferInstanceAs (Decidable (_ ∧ _))

/-- The records of the calls of a run, oldest first. -/
def history (h : Heap) : List Action → List Record
  | [] => []
  | action :: later => (h.record? action).toList ++ (h.next action).history later

/-- The heaps to which a possible run leads from the empty one. -/
def Reachable (h : Heap) : Prop :=
  ∃ actions, empty.Admits actions ∧ empty.run actions = h

variable {h : Heap} {actions later : List Action} {action : Action}

@[simp]
theorem settle_error (h : Heap) (e : ClassError) (store : Store) :
    h.settle (.error e) store = { h with store } := rfl

@[simp]
theorem settle_ok_none (h : Heap) (store : Store) :
    h.settle (.ok none) store = { h with store } := rfl

/-- A class that is made is held by the caller, and its block is in memory. -/
@[simp]
theorem settle_ok_ofBlock (h : Heap) (id : ClassId) (store : Store) :
    h.settle (.ok (some (.ofBlock id))) store =
      { store, held := .ofBlock id :: h.held, live := id :: h.live } := rfl

@[simp]
theorem run_nil (h : Heap) : h.run [] = h := rfl

@[simp]
theorem run_cons (h : Heap) (action : Action) (later : List Action) :
    h.run (action :: later) = (h.next action).run later := rfl

@[simp]
theorem run_append (h : Heap) (actions later : List Action) :
    h.run (actions ++ later) = (h.run actions).run later :=
  List.foldl_append

@[simp]
theorem admits_nil (h : Heap) : h.Admits [] :=
  trivial

@[simp]
theorem admits_cons : h.Admits (action :: later) ↔ h.Allows action ∧ (h.next action).Admits later :=
  Iff.rfl

/-- A run is possible when its first part is and the rest is after it. -/
@[simp]
theorem admits_append :
    h.Admits (actions ++ later) ↔ h.Admits actions ∧ (h.run actions).Admits later := by
  induction actions generalizing h with
  | nil => simp
  | cons action actions ih => simp [ih, and_assoc]

@[simp]
theorem history_nil (h : Heap) : h.history [] = [] := rfl

@[simp]
theorem history_cons (h : Heap) (action : Action) (later : List Action) :
    h.history (action :: later) = (h.record? action).toList ++ (h.next action).history later := rfl

/-- The history of a longer run goes on from the heap that the shorter one left. -/
@[simp]
theorem history_append (h : Heap) (actions later : List Action) :
    h.history (actions ++ later) = h.history actions ++ (h.run actions).history later := by
  induction actions generalizing h with
  | nil => rfl
  | cons action actions ih => simp [ih]

theorem history_concat (h : Heap) (actions : List Action) (action : Action) :
    h.history (actions ++ [action]) =
      h.history actions ++ ((h.run actions).record? action).toList := by
  rw [history_append, history_cons, history_nil, List.append_nil]

/-- What a possible run from the start leads to is reachable. -/
theorem Admits.reachable (hadm : empty.Admits actions) : (empty.run actions).Reachable :=
  ⟨actions, hadm, rfl⟩

/-- A possible run goes on with an action that its last heap allows. -/
theorem Admits.concat (hadm : h.Admits actions) (ha : (h.run actions).Allows action) :
    h.Admits (actions ++ [action]) :=
  admits_append.2 ⟨hadm, ha, trivial⟩

/-- What holds of the run without actions, and of a possible run with one more action if it holds of
the run, holds of every possible run from the start. -/
theorem Admits.induction {motive : (actions : List Action) → empty.Admits actions → Prop}
    (nil : motive [] trivial)
    (concat : ∀ actions action (hadm : empty.Admits actions)
      (ha : (empty.run actions).Allows action),
      motive actions hadm → motive (actions ++ [action]) (hadm.concat ha))
    (hadm : empty.Admits actions) : motive actions hadm := by
  -- The last action is split off, so that the run before it is a possible run from the start too.
  induction actions using List.reverseRecOn with
  | nil => exact nil
  | append_singleton actions action ih =>
      obtain ⟨hbefore, ha, -⟩ := admits_append.1 hadm
      exact concat actions action hbefore ha (ih hbefore)

/-- A possible action leads from a reachable heap to a reachable one. -/
theorem Reachable.next (hr : h.Reachable) (ha : h.Allows action) : (h.next action).Reachable := by
  obtain ⟨actions, hadm, rfl⟩ := hr
  have hreachable := (hadm.concat ha).reachable
  rw [run_append] at hreachable
  exact hreachable

/-- What holds in a reachable heap and is kept by every action of a possible run holds after the
run. -/
theorem Reachable.run_induction {P : Heap → Prop} (hr : h.Reachable) (hadm : h.Admits later)
    (hP : P h) (hnext : ∀ h action, action ∈ later → h.Reachable → P h → h.Allows action →
      P (h.next action)) : P (h.run later) := by
  induction later generalizing h with
  | nil => exact hP
  | cons action later ih =>
      obtain ⟨ha, hlater⟩ := hadm
      refine ih (hr.next ha) hlater (hnext h action List.mem_cons_self hr hP ha) ?_
      intro h action haction
      exact hnext h action (List.mem_cons_of_mem _ haction)

/-- What holds at the start and is kept by every possible action holds in every reachable heap. -/
theorem Reachable.induction {P : Heap → Prop} (hempty : P empty)
    (hnext : ∀ h action, h.Reachable → P h → h.Allows action → P (h.next action))
    (hr : h.Reachable) : P h := by
  obtain ⟨actions, hadm, rfl⟩ := hr
  induction hadm using Admits.induction with
  | nil => exact hempty
  | concat actions action hadm ha ih =>
      rw [run_append]
      exact hnext _ _ hadm.reachable ih ha

end Heap

end TypeRegistry
