import TypeRegistry.Proofs.Class.Ownership

/-!
# Sealing is for good

A sealed block reads alike at every later moment of every run, and refuses every change that is
tried on it. No call on another block reaches it, whatever the two have to do with each other, and
no call but its own sealing raises its flag.

## Main statements

* `Effect.eq_of_sealed`: no accepted call changes a sealed block.
* `Heap.Reachable.block_run_of_sealed`: no run changes a sealed block.
* `Heap.sealing_permanent`: from the call that sealed a block on, what is read of it stays as it is
  and every change is refused.
-/

namespace TypeRegistry

/-- The call is a change of the block `id`, other than its sealing. -/
def Call.Mutates (call : Call) (id : ClassId) : Prop :=
  match call with
  | .replaceMro c _ | .extendMro c _ | .addBase c _ => c.block = id
  | .create .. | .createWithAncestors .. | .sealClass _ => False

/-- All that a program can read of the block `id`, its seal apart, is the same in both stores. -/
structure Store.ReadsAlike (s s' : Store) (id : ClassId) : Prop where
  className : s'.className id = s.className id
  mro : s'.mro id = s.mro id
  mroLength : s'.mroLength id = s.mroLength id
  bases : s'.bases id = s.bases id
  lookup? : ∀ name, s'.lookup? id name = s.lookup? id name
  overloadsOf : ∀ name, s'.overloadsOf id name = s.overloadsOf id name

namespace Store

variable {s s' : Store} {id : ClassId}

theorem ReadsAlike.of_block_eq (hblock : s'.block id = s.block id) : s.ReadsAlike s' id where
  className := congrArg ClassBlock.name hblock
  mro := congrArg (ClassBlock.mro · id) hblock
  mroLength := congrArg ClassBlock.mroLength hblock
  bases := congrArg ClassBlock.bases hblock
  lookup? name := congrArg (·.table.lookup? name) hblock
  overloadsOf name := congrArg (·.table.overloadsOf name) hblock

/-- The check of the seal comes before every other: what the change would be does not matter. -/
theorem result_perform_of_sealed (hs : s.isSealed id = true) {call : Call}
    (hcall : call.Mutates id) : (s.perform call).result = .error (.frozen (s.className id)) := by
  cases call with
  | replaceMro c mro =>
      cases hcall
      rw [perform, replaceMro, mutate_of_sealed hs]
      rfl
  | extendMro c entry =>
      cases hcall
      rw [perform, extendMro, mutate_of_sealed hs]
      rfl
  | addBase c base =>
      cases hcall
      rw [perform, addBase, mutate_of_sealed hs]
      rfl
  | create | createWithAncestors | sealClass => cases hcall

end Store

/-- No accepted call changes a sealed block: it is refused, or seals the block again. -/
theorem Effect.eq_of_sealed {b b' : ClassBlock} {call : Call} (heffect : Effect b call b')
    (hs : b.isSealed = true) : b' = b := by
  cases heffect with
  | clear hopen | reorder hopen | start hopen | extend hopen | addBase hopen =>
      rw [hs] at hopen
      cases hopen
  | sealBlock => rw [← hs]

/-- Among the accepted calls only the sealing of a block seals it. -/
theorem Effect.eq_sealClass {b b' : ClassBlock} {call : Call} (heffect : Effect b call b')
    (hs : b.isSealed = false) (hs' : b'.isSealed = true) : ∃ c, call = .sealClass c := by
  cases heffect with
  | clear | reorder | start | extend | addBase =>
      rw [hs] at hs'
      cases hs'
  | @sealBlock c => exact ⟨c, rfl⟩

/-- A new block is open. -/
theorem Birth.isSealed_eq_false {id : ClassId} {call : Call} {b : ClassBlock}
    (hbirth : Birth id call b) : b.isSealed = false := by
  cases hbirth <;> rfl

namespace Heap

variable {h : Heap} {id : ClassId} {action : Action}

/-- No action changes a sealed block. -/
theorem Sound.block_next_of_sealed (hsound : h.Sound) (ha : h.Allows action)
    (hs : h.store.isSealed id = true) : (h.next action).store.block id = h.store.block id := by
  cases hsound.block_next ha id with
  | kept hblock _ => exact hblock
  | changed _ _ _ _ heffect => exact heffect.eq_of_sealed hs
  | created _ hnew _ _ _ =>
      -- A block that was not made is not sealed either.
      rw [Store.isSealed, Store.block_of_not_contains hnew] at hs
      cases hs

/-- No action opens a sealed block. -/
theorem Sound.isSealed_next (hsound : h.Sound) (ha : h.Allows action)
    (hs : h.store.isSealed id = true) : (h.next action).store.isSealed id = true := by
  rw [Store.isSealed, hsound.block_next_of_sealed ha hs]
  exact hs

/-- An action that seals a block is the sealing of this block. -/
theorem Sound.eq_sealClass_of_next (hsound : h.Sound) (ha : h.Allows action)
    (hs : h.store.isSealed id = false) (hs' : (h.next action).store.isSealed id = true) :
    ∃ c, action = .call (.sealClass c) ∧ c.block = id := by
  -- A block that stays open was left alone, and a new one is open as well.
  cases hsound.block_next ha id with
  | kept hblock _ =>
      rw [Store.isSealed, hblock, ← Store.isSealed, hs] at hs'
      cases hs'
  | changed hcall hc hid _ heffect =>
      obtain ⟨d, rfl⟩ := heffect.eq_sealClass hs hs'
      cases hc
      exact ⟨_, hcall, hid⟩
  | created _ _ _ _ hbirth =>
      rw [Store.isSealed, hbirth.isSealed_eq_false] at hs'
      cases hs'

/-- No run changes a sealed block. -/
theorem Reachable.block_run_of_sealed (hr : h.Reachable) (hs : h.store.isSealed id = true)
    {later : List Action} (hadm : h.Admits later) :
    (h.run later).store.block id = h.store.block id := by
  refine hr.run_induction hadm (P := fun after => after.store.block id = h.store.block id) rfl ?_
  rintro after action - hafter hblock ha
  have hs' : after.store.isSealed id = true := by
    rw [Store.isSealed, hblock]
    exact hs
  rw [hafter.sound.block_next_of_sealed ha hs', hblock]

/-- Every change of a sealed block that a run tries is refused, under the name of the block. -/
theorem Reachable.result_of_sealed (hr : h.Reachable) (hs : h.store.isSealed id = true)
    {later : List Action} (hadm : h.Admits later) :
    ∀ r ∈ h.history later, r.call.Mutates id →
      r.result = .error (.frozen (h.store.className id)) := by
  induction later generalizing h with
  | nil => exact nofun
  | cons action later ih =>
      obtain ⟨ha, hlater⟩ := hadm
      have hs' := hr.sound.isSealed_next ha hs
      have hname : (h.next action).store.className id = h.store.className id :=
        congrArg ClassBlock.name (hr.sound.block_next_of_sealed ha hs)
      intro r hmem hmutates
      -- The record is that of the first action, or of a later one on the same block.
      rw [history_cons, List.mem_append] at hmem
      rcases hmem with hnow | hlaterMem
      · cases action with
        | call call =>
            rw [record?, Option.toList_some, List.mem_singleton] at hnow
            subst hnow
            exact Store.result_perform_of_sealed hs hmutates
        | copy | takeEntry | takeFromBase | drop | free => cases hnow
      · rw [← hname]
        exact ih (hr.next ha) hs' hlater r hlaterMem hmutates

/-- A block that is sealed after a run from the start was sealed by one of its calls, and was open
before that call. -/
theorem exists_sealing {past : List Action} (hadm : empty.Admits past)
    (hs : (empty.run past).store.isSealed id = true) :
    ∃ before c between, past = before ++ .call (.sealClass c) :: between ∧ c.block = id ∧
      (empty.run before).store.isSealed id = false ∧
        (empty.run (before ++ [.call (.sealClass c)])).store.isSealed id = true := by
  induction hadm using Admits.induction with
  | nil => cases hs
  | concat past action hpast ha ih =>
      -- Either it was sealed before the last action, or the last action sealed it.
      cases hbefore : (empty.run past).store.isSealed id with
      | true =>
          obtain ⟨before, c, between, rfl, hc, hopen⟩ := ih hbefore
          exact ⟨before, c, between ++ [action], by simp, hc, hopen⟩
      | false =>
          have hnext := hs
          rw [run_append] at hnext
          obtain ⟨c, rfl, hc⟩ := hpast.reachable.sound.eq_sealClass_of_next ha hbefore hnext
          exact ⟨past, c, [], rfl, hc, hbefore, hs⟩

/-- Sealing is for good. In every possible run from the start, an action that raises the flag of a
block is the sealing of this very block. A block that is sealed at some moment `past` was sealed by
a call before which it was open. At every moment `later` it is sealed still, all that can be read of
it is as it was right after that call, and every change of it that was tried since that call was
refused with the name of the block. -/
theorem sealing_permanent {actions : List Action} (hadm : empty.Admits actions) (id : ClassId) :
    (∀ before action after, actions = before ++ action :: after →
      (empty.run before).store.isSealed id = false →
      (empty.run (before ++ [action])).store.isSealed id = true →
        ∃ c, action = .call (.sealClass c) ∧ c.block = id) ∧
    ∀ past later, actions = past ++ later → (empty.run past).store.isSealed id = true →
      ∃ before c between, past = before ++ .call (.sealClass c) :: between ∧ c.block = id ∧
        (empty.run before).store.isSealed id = false ∧
        let sealing := empty.run (before ++ [.call (.sealClass c)])
        (empty.run actions).store.isSealed id = true ∧
        sealing.store.ReadsAlike (empty.run actions).store id ∧
        ∀ r ∈ sealing.history (between ++ later), r.call.Mutates id →
          r.result = .error (.frozen (sealing.store.className id)) := by
  refine ⟨?_, ?_⟩
  · -- The action was possible at its moment, so it is a step of a reachable heap.
    rintro before action after rfl hopen hsealed
    obtain ⟨hbefore, ha, -⟩ := admits_append.1 hadm
    rw [run_append] at hsealed
    exact hbefore.reachable.sound.eq_sealClass_of_next ha hopen hsealed
  · rintro past later rfl hs
    obtain ⟨hpast, hlater⟩ := admits_append.1 hadm
    obtain ⟨before, c, between, rfl, hc, hopen, hsealed⟩ := exists_sealing hpast hs
    refine ⟨before, c, between, rfl, hc, hopen, ?_⟩
    -- The run is cut right after the sealing, and nothing changes the block from there on.
    have hcut : before ++ .call (.sealClass c) :: between ++ later =
        (before ++ [.call (.sealClass c)]) ++ (between ++ later) := by
      simp
    rw [hcut] at hadm ⊢
    obtain ⟨hsealing, hrest⟩ := admits_append.1 hadm
    have hr := hsealing.reachable
    have hblock := hr.block_run_of_sealed hsealed hrest
    rw [← run_append] at hblock
    refine ⟨?_, .of_block_eq hblock, hr.result_of_sealed hsealed hrest⟩
    rw [Store.isSealed, hblock]
    exact hsealed

/-- A class is sealed through one of its instances. -/
def sealedPoint : List Action :=
  let table := BodyScope.empty.toTable
  let point := ClassRef.ofBlock ⟨0⟩
  [.call (.create "Point" table), .call (.create "Origin" table), .call (.extendMro point point),
    .copy point .toInstance, .call (.sealClass point.toInstance)]

/-- Every way to change the sealed class is tried, and another class takes it as an ancestor. -/
def attemptsOnPoint : List Action :=
  let point := ClassRef.ofBlock ⟨0⟩
  let origin := ClassRef.ofBlock ⟨1⟩
  [.call (.replaceMro point []), .call (.extendMro point.toInstance point),
    .call (.addBase point .any), .call (.replaceMro origin [origin, point]),
    .call (.sealClass point)]

/-- A class is sealed, and neither its own handles nor those of others change it afterwards. -/
theorem sealing_permanent_point :
    empty.Admits (sealedPoint ++ attemptsOnPoint) ∧
      (empty.run sealedPoint).store.isSealed ⟨0⟩ = true ∧
      ∃ before c between, sealedPoint = before ++ .call (.sealClass c) :: between ∧
        c.block = ⟨0⟩ ∧ (empty.run before).store.isSealed ⟨0⟩ = false ∧
        let sealing := empty.run (before ++ [.call (.sealClass c)])
        (empty.run (sealedPoint ++ attemptsOnPoint)).store.isSealed ⟨0⟩ = true ∧
        sealing.store.ReadsAlike (empty.run (sealedPoint ++ attemptsOnPoint)).store ⟨0⟩ ∧
        ∀ r ∈ sealing.history (between ++ attemptsOnPoint), r.call.Mutates ⟨0⟩ →
          r.result = .error (.frozen (sealing.store.className ⟨0⟩)) := by
  have hadm : empty.Admits (sealedPoint ++ attemptsOnPoint) := by decide
  have hs : (empty.run sealedPoint).store.isSealed ⟨0⟩ = true := by decide
  exact ⟨hadm, hs, (sealing_permanent hadm ⟨0⟩).2 sealedPoint attemptsOnPoint rfl hs⟩

end Heap

end TypeRegistry
