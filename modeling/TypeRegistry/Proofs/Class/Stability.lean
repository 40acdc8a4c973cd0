import TypeRegistry.Proofs.Class.Identity
import TypeRegistry.Proofs.Class.ResolutionOrder
import TypeRegistry.Proofs.Shape.Replacement
import TypeRegistry.Shape.Describe

/-!
# Texts and equality stand still

The texts of a type show its classes by name and flavor, and names never change; equality asks which
block a class is. Neither looks into a block. So what a program does with classes shows in no text
of a type and in no comparison, and blocks that refer to each other in a circle do no harm.

The debug text of a block shows a little more: its name, the names in its order, and its seal.

## Main statements

* `Heap.Reachable.className_run`: names never change.
* `Heap.Reachable.view_run`: nor does the view of a type.
* `Heap.Reachable.describe_run`: a block is shown alike as long as its order and seal are spared.
* `Heap.texts_stable`: what of the texts and of equality stands still, and what the rest is made of.
-/

namespace TypeRegistry

/-- The call leaves the order and the seal of the block `id` alone: it makes a class, or is made on
another block, or adds a base. -/
def Call.Spares (call : Call) (id : ClassId) : Prop :=
  match call with
  | .replaceMro c _ | .extendMro c _ | .sealClass c => c.block ≠ id
  | .create .. | .createWithAncestors .. | .addBase .. => True

/-- The texts and the kind of a type are the same in both stores. -/
structure Store.ShowsAlike (s s' : Store) (t : Ty) : Prop where
  render : s'.render t = s.render t
  plain : (s'.view t).describe.plain = (s.view t).describe.plain
  pretty : (s'.view t).describe.pretty = (s.view t).describe.pretty
  kind : (s'.view t).kind = (s.view t).kind

theorem Store.ShowsAlike.of_view_eq {s s' : Store} {t : Ty} (hview : s'.view t = s.view t) :
    s.ShowsAlike s' t where
  render := congrArg Shape.render hview
  plain := congrArg (·.describe.plain) hview
  pretty := congrArg (·.describe.pretty) hview
  kind := congrArg Shape.kind hview

/-- The name of a class, the names in its order and its seal make up the debug tree of its block. -/
theorem Store.describe_congr {s s' : Store} {id id' : ClassId}
    (hname : s.className id = s'.className id') (hmro : s.mroNames id = s'.mroNames id')
    (hsealed : s.isSealed id = s'.isSealed id') : s.describe id = s'.describe id' := by
  rw [describe, describe, hname, hmro, hsealed]

/-- An accepted call that spares a block keeps its order and its seal: it adds a base. -/
theorem Effect.sameOrder {b b' : ClassBlock} {call : Call} {c : ClassRef}
    (heffect : Effect b call b') (hc : call.receiver? = some c) (hspares : call.Spares c.block) :
    b'.SameOrder b := by
  cases heffect with
  | addBase => exact ⟨rfl, rfl, rfl⟩
  | clear | reorder | start | extend | sealBlock =>
      cases hc
      exact absurd rfl hspares

namespace Heap

variable {h : Heap} {action : Action} {later : List Action} {id : ClassId}

/-- No run changes the name of a class. -/
theorem Reachable.className_run (hr : h.Reachable) (hadm : h.Admits later)
    (hid : h.store.Contains id) : (h.run later).store.className id = h.store.className id := by
  refine (hr.block_run hadm hid (P := fun b => b.name = h.store.className id) rfl ?_).2
  intro call b b' hname heffect
  exact heffect.name_eq.trans hname

/-- No run changes what the texts of a type show. -/
theorem Reachable.view_run (hr : h.Reachable) (hadm : h.Admits later) {t : Ty}
    (ht : ∀ c ∈ t.classes, h.store.Contains c.block) :
    (h.run later).store.view t = h.store.view t := by
  refine Shape.map_congr _ fun c hc => ?_
  rw [Store.classView, Store.classView, hr.className_run hadm (ht c hc)]

/-- An action that spares a block keeps its order and its seal. -/
theorem Sound.sameOrder_next (hs : h.Sound) (ha : h.Allows action) (hid : h.store.Contains id)
    (hspares : ∀ call, action = .call call → call.Spares id) :
    ((h.next action).store.block id).SameOrder (h.store.block id) := by
  cases hs.block_next ha id with
  | kept hblock _ =>
      rw [hblock]
      exact .refl _
  | changed hcall hc heq _ heffect =>
      subst heq
      exact heffect.sameOrder hc (hspares _ hcall)
  | created _ hnew => exact absurd hid hnew

/-- A run that spares a block keeps its order and its seal. -/
theorem Reachable.sameOrder_run (hr : h.Reachable) (hadm : h.Admits later)
    (hid : h.store.Contains id) (hspares : ∀ call, .call call ∈ later → call.Spares id) :
    ((h.run later).store.block id).SameOrder (h.store.block id) := by
  -- That the block was made is kept along, so that no later action counts as its making.
  have hrun := hr.run_induction hadm (P := fun after =>
    after.store.Contains id ∧ (after.store.block id).SameOrder (h.store.block id))
    ⟨hid, .refl _⟩ ?_
  · exact hrun.2
  · rintro after action haction hafter ⟨hmade, horder⟩ ha
    have hnext := hafter.sound.sameOrder_next ha hmade fun call hcall =>
      hspares call (hcall ▸ haction)
    exact ⟨hafter.sound.contains_next ha hmade, hnext.trans horder⟩

/-- A run that spares a block in memory changes nothing of what is shown of it. -/
theorem Reachable.describe_run (hr : h.Reachable) (hadm : h.Admits later) (hlive : id ∈ h.live)
    (hspares : ∀ call, .call call ∈ later → call.Spares id) :
    (h.run later).store.describe id = h.store.describe id := by
  have hid := hr.sound.contains_of_live id hlive
  have horder := hr.sameOrder_run hadm hid hspares
  have hmro : (h.run later).store.mro id = h.store.mro id := horder.mro id
  refine Store.describe_congr (hr.className_run hadm hid) ?_ horder.isSealed
  rw [Store.mroNames, Store.mroNames, hmro]
  -- The entries were made before the run too, and keep their names.
  refine List.map_congr_left fun entry hentry => hr.className_run hadm ?_
  exact hr.sound.contains_of_live _ (hr.sound.mem_live_of_mem_mro hlive hentry)

/-- Texts and equality do not follow the class graph. Take any further run from a reachable heap.
For a type whose classes are made, the text, both debug texts and the kind are the same after it as
before, whatever was done to the blocks. Two types are equal when they are the same but for the
spelling of paths, with no block read. The debug texts of a block are a matter of its name, the
names in its order and its seal, and they are the same after the run unless it changes the order or
the seal of this very block. -/
theorem texts_stable (hr : h.Reachable) (hadm : h.Admits later) :
    (∀ t : Ty, (∀ c ∈ t.classes, h.store.Contains c.block) →
      h.store.ShowsAlike (h.run later).store t) ∧
    (∀ t u : Ty, (t == u) = true ↔ t.form = u.form) ∧
    (∀ (s s' : Store) (id id' : ClassId), s.className id = s'.className id' →
      s.mroNames id = s'.mroNames id' → s.isSealed id = s'.isSealed id' →
        (s.describe id).plain = (s'.describe id').plain ∧
          (s.describe id).pretty = (s'.describe id').pretty) ∧
    ∀ id ∈ h.live, (∀ call, .call call ∈ later → call.Spares id) →
      ((h.run later).store.describe id).plain = (h.store.describe id).plain ∧
        ((h.run later).store.describe id).pretty = (h.store.describe id).pretty := by
  refine ⟨?_, Ty.beq_iff_form_eq, ?_, ?_⟩
  · intro t ht
    exact .of_view_eq (hr.view_run hadm ht)
  · intro s s' id id' hname hmro hsealed
    rw [Store.describe_congr hname hmro hsealed]
    exact ⟨rfl, rfl⟩
  · -- What is shown of a block is its name, the names in its order and its seal, and a run that
    -- spares it keeps all three.
    intro id hlive hspares
    rw [hr.describe_run hadm hlive hspares]
    exact ⟨rfl, rfl⟩

/-- Two classes that are each other's ancestors, of which the first is among its own bases, once as
it is and once inside a union in a return type. -/
def entangled : List Action :=
  let table := BodyScope.empty.toTable
  let point := ClassRef.ofBlock ⟨0⟩
  let origin := ClassRef.ofBlock ⟨1⟩
  [.call (.create "Point" table), .call (.createWithAncestors "Origin" table [point]),
    .call (.replaceMro point [point, origin]), .call (.addBase point (.nominal point)),
    .copy point .toInstance,
    .call (.addBase point
      (.function { returns := some (.union [.nominal point.toInstance, .never]) }))]

/-- The order of the first class is cleared, it gets a further base and it is sealed; the second
class gets bases alone. -/
def loosened : List Action :=
  let point := ClassRef.ofBlock ⟨0⟩
  let origin := ClassRef.ofBlock ⟨1⟩
  [.call (.addBase origin (.nominal point.toInstance)), .call (.replaceMro point []),
    .call (.addBase origin (.nominal origin)), .call (.addBase point (.nominal origin)),
    .call (.sealClass point)]

/-- The texts of types that hold each other's classes stay, whatever happens to the orders. -/
theorem texts_stable_entangled :
    empty.Admits (entangled ++ loosened) ∧
      (let before := (empty.run entangled).store
      let after := ((empty.run entangled).run loosened).store
      before.ShowsAlike after (.union [.nominal (.ofBlock ⟨0⟩),
        .overloaded [{ parameters := [⟨"other", .positional, .nominal (.ofBlock ⟨1⟩)⟩] }]]) ∧
      (before.mroNames ⟨0⟩ = ["Point", "Origin"] ∧ after.mroNames ⟨0⟩ = []) ∧
      (after.describe ⟨1⟩).plain = (before.describe ⟨1⟩).plain) := by
  have hadm : empty.Admits (entangled ++ loosened) := by decide
  obtain ⟨hbefore, hlater⟩ := admits_append.1 hadm
  obtain ⟨htypes, -, -, hblocks⟩ := texts_stable hbefore.reachable hlater
  refine ⟨hadm, htypes _ ?_, ?_, (hblocks ⟨1⟩ ?_ ?_).1⟩
  · decide
  · decide
  · decide
  · simp [loosened, Call.Spares, ClassRef.ofBlock]

end Heap

end TypeRegistry
