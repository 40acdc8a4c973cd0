import Mathlib.Data.List.DropRight
import TypeRegistry.Proofs.Class.ResolutionOrder

/-!
# A block and its history

A block keeps of its resolution order a flag and the blocks after the head; what flavors the order
was given with, and in how many calls, is lost. What is read back is nevertheless what the accepted
calls on the block tell: the bases that were added, and the order that was set last followed by the
entries that were added since, each as a class object.

## Main definitions and statements

* `basesAdded`, `lastOrder`, `entriesSince`: the bases and the order that calls tell of.
* `ClassBlock.Retells`: a block reads as some calls tell.
* `Effect.block_retells`, `Birth.block_retells`: one more call is told too.
* `Heap.reads_history`: after every run a block reads as the calls on it that were accepted.
-/

namespace TypeRegistry

namespace Call

/-- The type that a call adds to the bases. -/
def base? : Call → Option Ty
  | .addBase _ base => some base
  | _ => none

/-- The order that a call puts in the place of the one before. -/
def replacement? : Call → Option (List ClassRef)
  | .replaceMro _ mro => some mro
  | _ => none

/-- The entry that a call adds to the order. -/
def extension? : Call → Option ClassRef
  | .extendMro _ entry => some entry
  | _ => none

/-- The ancestors with which a call makes a block. -/
def ancestors? : Call → Option (List ClassRef)
  | .createWithAncestors _ _ ancestors => some ancestors
  | _ => none

end Call

/-! ### What calls tell of a block -/

/-- The bases that the calls added, oldest first. -/
def basesAdded (calls : List Call) : List Ty :=
  calls.filterMap Call.base?

/-- The order with which a block is made: itself and its ancestors, unless it has none. -/
def initialOrder (id : ClassId) (calls : List Call) : List ClassRef :=
  match calls.findSome? Call.ancestors? with
  | none | some [] => []
  | some (first :: rest) => .ofBlock id :: first :: rest

/-- The order that was set last; as long as none was set, the one with which the block was made. -/
def lastOrder (id : ClassId) (calls : List Call) : List ClassRef :=
  (calls.reverse.findSome? Call.replacement?).getD (initialOrder id calls)

/-- The entries that were added since an order was set last, oldest first. -/
def entriesSince (calls : List Call) : List ClassRef :=
  (calls.rtakeWhile fun call => call.replacement?.isNone).filterMap Call.extension?

section Concat

variable {id : ClassId} {calls : List Call} {call : Call}

/-- A call appends the base that it gives, if any. -/
theorem basesAdded_concat (calls : List Call) (call : Call) :
    basesAdded (calls ++ [call]) = basesAdded calls ++ call.base?.toList := by
  rw [basesAdded, List.filterMap_append, basesAdded]
  cases hbase : call.base? <;> simp [hbase]

/-- A call that gives no base leaves the bases as they were. -/
theorem basesAdded_of_other (hbase : call.base? = none) :
    basesAdded (calls ++ [call]) = basesAdded calls := by
  rw [basesAdded_concat, hbase, Option.toList_none, List.append_nil]

/-- A replacement counts from then on. -/
theorem lastOrder_of_replacement {mro : List ClassRef} (hmro : call.replacement? = some mro) :
    lastOrder id (calls ++ [call]) = mro := by
  rw [lastOrder, List.reverse_append, List.reverse_singleton, List.singleton_append,
    List.findSome?_cons_of_isSome (by rw [hmro]; rfl)]
  simp [hmro]

/-- A replacement takes no entries of the order before. -/
theorem entriesSince_of_replacement {mro : List ClassRef} (hmro : call.replacement? = some mro) :
    entriesSince (calls ++ [call]) = [] := by
  -- The calls since the last replacement are counted from the end, where it stands now.
  rw [entriesSince, List.rtakeWhile_concat_neg]
  · rfl
  · simp [hmro]

/-- An order stays the last one until a call gives another. -/
theorem lastOrder_of_other (hmro : call.replacement? = none) (hmade : call.ancestors? = none) :
    lastOrder id (calls ++ [call]) = lastOrder id calls := by
  have hinitial : initialOrder id (calls ++ [call]) = initialOrder id calls := by
    simp [initialOrder, List.findSome?_append, hmade]
  rw [lastOrder, hinitial, List.reverse_append, List.reverse_singleton, List.singleton_append,
    List.findSome?_cons_of_isNone (by rw [hmro]; rfl), lastOrder]

/-- Until an order is replaced, the entries that are appended add up. -/
theorem entriesSince_of_other (hmro : call.replacement? = none) :
    entriesSince (calls ++ [call]) = entriesSince calls ++ call.extension?.toList := by
  rw [entriesSince, List.rtakeWhile_concat_pos]
  · rw [List.filterMap_append, entriesSince]
    cases hentry : call.extension? <;> simp [hentry]
  · simp [hmro]

end Concat

/-! ### Blocks that read as calls tell -/

/-- The block `b` under the identifier `id` reads as the calls tell. -/
structure ClassBlock.Retells (id : ClassId) (b : ClassBlock) (calls : List Call) : Prop where
  /-- The bases are those that were added, flavors included. -/
  bases : b.bases = basesAdded calls
  /-- The order is the one that was set and what was added to it, without the flavors. -/
  mro : b.mro id = (lastOrder id calls ++ entriesSince calls).map ClassRef.toInstantiable

/-- The class objects of some entries are those of their blocks. -/
theorem map_toInstantiable (entries : List ClassRef) :
    entries.map ClassRef.toInstantiable = (entries.map (·.block)).map .ofBlock := by
  rw [List.map_map]
  rfl

namespace ClassBlock

variable {id : ClassId} {b : ClassBlock} {calls : List Call} {call : Call}

/-- A block that is appended to the ancestors is appended to a started order. -/
theorem mro_extend (hstarted : b.linearized = true) (other : ClassId) :
    { b with ancestors := b.ancestors ++ [other] }.mro id = b.mro id ++ [.ofBlock other] := by
  rw [mro_of_started hstarted, mro, if_pos hstarted, List.map_cons, List.map_append]
  rfl

/-- A call that leaves the order alone is told by the bases. -/
theorem Retells.append_of_mro_eq {b' : ClassBlock} (hb : b.Retells id calls)
    (hmro : b'.mro id = b.mro id) (hbases : b'.bases = b.bases ++ call.base?.toList)
    (hreplacement : call.replacement? = none) (hentry : call.extension? = none)
    (hmade : call.ancestors? = none) : b'.Retells id (calls ++ [call]) := by
  refine ⟨?_, ?_⟩
  · rw [hbases, hb.bases, basesAdded_concat]
  · rw [hmro, hb.mro, lastOrder_of_other hreplacement hmade, entriesSince_of_other hreplacement,
      hentry, Option.toList_none, List.append_nil]

/-- An accepted replacement is what is read afterwards. -/
theorem Retells.append_replaceMro {b' : ClassBlock} (hb : b.Retells id calls) {c : ClassRef}
    {mro : List ClassRef} (hmro : b'.mro id = mro.map ClassRef.toInstantiable)
    (hbases : b'.bases = b.bases) : b'.Retells id (calls ++ [.replaceMro c mro]) := by
  have hreplacement : (Call.replaceMro c mro).replacement? = some mro := rfl
  refine ⟨?_, ?_⟩
  · rw [hbases, hb.bases, basesAdded_of_other rfl]
  · rw [hmro, lastOrder_of_replacement hreplacement, entriesSince_of_replacement hreplacement,
      List.append_nil]

/-- An accepted entry is read after what was read before. -/
theorem Retells.append_extendMro {b' : ClassBlock} (hb : b.Retells id calls) {c entry : ClassRef}
    (hmro : b'.mro id = b.mro id ++ [.ofBlock entry.block]) (hbases : b'.bases = b.bases) :
    b'.Retells id (calls ++ [.extendMro c entry]) := by
  have hreplacement : (Call.extendMro c entry).replacement? = none := rfl
  have hentry : (Call.extendMro c entry).extension? = some entry := rfl
  refine ⟨?_, ?_⟩
  · rw [hbases, hb.bases, basesAdded_of_other rfl]
  · have hone : [ClassRef.ofBlock entry.block] = [entry].map ClassRef.toInstantiable := rfl
    rw [hmro, hb.mro, lastOrder_of_other hreplacement rfl, entriesSince_of_other hreplacement,
      hentry, Option.toList_some, hone, ← List.map_append, List.append_assoc]

end ClassBlock

/-- A new block reads as the call that made it. -/
theorem Birth.block_retells {id : ClassId} {call : Call} {b : ClassBlock}
    (hbirth : Birth id call b) : b.Retells id [call] := by
  -- Only a class with ancestors has an order from the start.
  cases hbirth with
  | plain hcall => rcases hcall with rfl | rfl <;> exact ⟨rfl, rfl⟩
  | @ordered name table ancestors _ hne =>
      obtain ⟨first, rest, rfl⟩ := List.exists_cons_of_ne_nil hne
      refine ⟨rfl, ?_⟩
      have horder : lastOrder id [.createWithAncestors name table (first :: rest)] =
        .ofBlock id :: first :: rest := rfl
      have hsince : entriesSince [.createWithAncestors name table (first :: rest)] = [] := rfl
      rw [horder, hsince, List.append_nil, map_toInstantiable, ClassBlock.mro_of_started rfl]
      rfl

/-- A block that reads as the calls on it so far reads as these and one more that was accepted. -/
theorem Effect.block_retells {c : ClassRef} {call : Call} {b b' : ClassBlock} {calls : List Call}
    (hc : call.receiver? = some c) (hordered : b.Ordered c.block) (hb : b.Retells c.block calls)
    (heffect : Effect b call b') : b'.Retells c.block (calls ++ [call]) := by
  cases heffect with
  | clear => exact hb.append_replaceMro (ClassBlock.mro_of_fresh rfl) rfl
  | @reorder c head rest _ hhead _ =>
      cases hc
      refine hb.append_replaceMro ?_ rfl
      -- The head is not kept: it was checked to be the block, which is put back when read.
      rw [map_toInstantiable, List.map_cons, hhead, ClassBlock.mro_of_started rfl]
      rfl
  | @start c entry _ hfresh hentry =>
      cases hc
      refine hb.append_extendMro ?_ rfl
      -- Nothing was kept of an order that is not started, so the block comes alone.
      rw [ClassBlock.mro_of_started rfl, ClassBlock.mro_of_fresh hfresh,
        hordered.ancestors_eq_nil hfresh, hentry]
      rfl
  | @extend c entry _ hstarted _ =>
      exact hb.append_extendMro (ClassBlock.mro_extend hstarted entry.block) rfl
  | addBase => exact hb.append_of_mro_eq rfl rfl rfl rfl rfl
  | sealBlock => exact hb.append_of_mro_eq rfl (List.append_nil _).symm rfl rfl rfl

namespace Heap

variable {id : ClassId}

/-- No call on a block is accepted before the block is made. -/
theorem acceptedCalls_of_not_contains {actions : List Action} (hadm : empty.Admits actions)
    (hnew : ¬(empty.run actions).store.Contains id) :
    acceptedCalls id (empty.history actions) = [] := by
  induction hadm using Admits.induction with
  | nil => rfl
  | concat actions action hadm ha ih =>
      have hsound := hadm.reachable.sound
      rw [run_append] at hnew
      have hnot : ¬(empty.run actions).store.Contains id := fun hid =>
        hnew (hsound.contains_next ha hid)
      rw [history_concat, acceptedCalls_append, ih hnot, List.nil_append]
      cases hsound.block_next ha id with
      | kept _ hcalls => exact hcalls
      -- The receiver of a call is held, so it was made.
      | changed hcall hc hid _ _ =>
          subst hcall hid
          exact absurd (hsound.contains_references ha _ (Call.receiver_mem_references hc)) hnot
      | created _ _ hmade _ _ => exact absurd hmade hnew

/-- After every possible run from the start, a block that was made reads as the calls on it that
were accepted. -/
theorem retells_history {actions : List Action} (hadm : empty.Admits actions) (id : ClassId) :
    ((empty.run actions).store.block id).Retells id (acceptedCalls id (empty.history actions)) := by
  induction hadm using Admits.induction with
  | nil => exact ⟨rfl, rfl⟩
  | concat actions action hadm ha ih =>
      have hr := hadm.reachable
      rw [history_concat, acceptedCalls_append, run_append, run_cons, run_nil]
      cases hr.sound.block_next ha id with
      | kept hblock hcalls =>
          rw [hblock, hcalls, List.append_nil]
          exact ih
      | changed _ hc hid hcalls heffect =>
          subst hid
          rw [hcalls]
          exact heffect.block_retells hc (hr.ordered _) ih
      -- The history of a new block begins with the call that made it.
      | created _ hnew _ hcalls hbirth =>
          rw [hcalls, acceptedCalls_of_not_contains hadm hnew, List.nil_append]
          exact hbirth.block_retells

/-- What is read through a handle after any possible run from the start is the history of its block,
whatever was refused, done to other blocks or let go of in between. The bases are those of the
accepted calls that added one. The order is the class objects of the list that an accepted call
set last, and of the entries that were accepted since; where none was set, it begins with the block
and the ancestors it was made with, if there were any. -/
theorem reads_history {actions : List Action} (hadm : empty.Admits actions) (c : ClassRef) :
    let calls := acceptedCalls c.block (empty.history actions)
    let order := lastOrder c.block calls ++ entriesSince calls
    (empty.run actions).store.bases c.block = basesAdded calls ∧
      (empty.run actions).store.mro c.block = order.map ClassRef.toInstantiable ∧
      (empty.run actions).store.mroLength c.block = order.length := by
  intro calls order
  have hretells := retells_history hadm c.block
  refine ⟨hretells.bases, hretells.mro, ?_⟩
  rw [Store.mroLength, ← ClassBlock.length_mro _ c.block, hretells.mro, List.length_map]

/-- The second class is made with an ancestor, gets an order through one of its instances and then
another entry, while other classes change and calls are refused. The handle on its first ancestor is
dropped, and the class is sealed. -/
def secondClass : List Action :=
  let table := BodyScope.empty.toTable
  let first := ClassRef.ofBlock ⟨0⟩
  let second := ClassRef.ofBlock ⟨1⟩
  let third := ClassRef.ofBlock ⟨2⟩
  [.call (.create "First" table), .call (.createWithAncestors "Second" table [first]),
    .call (.create "Third" table), .copy first .toInstance, .copy second .toInstance,
    .call (.extendMro second third), .call (.addBase second (.nominal first.toInstance)),
    .call (.replaceMro second.toInstance [second.toInstance, third]),
    .call (.replaceMro second [first]), .call (.extendMro third third),
    .call (.addBase third .any), .call (.extendMro second first.toInstance),
    .call (.extendMro second second), .call (.addBase second.toInstance .any),
    .call (.addBase second .any), .drop first, .drop first.toInstance,
    .call (.sealClass second), .call (.replaceMro second [])]

/-- What is read of the second class is what its history tells, also through another handle. -/
theorem reads_history_secondClass :
    let first := ClassRef.ofBlock ⟨0⟩
    let second := ClassRef.ofBlock ⟨1⟩
    let third := ClassRef.ofBlock ⟨2⟩
    empty.Admits secondClass ∧
      (empty.run secondClass).store.bases second.block = [.nominal first.toInstance, .any, .any] ∧
      (empty.run secondClass).store.mro second.block =
        ([second.toInstance, third] ++ [first.toInstance]).map ClassRef.toInstantiable := by
  intro first second third
  have hadm : empty.Admits secondClass := by decide
  obtain ⟨hbases, hmro, -⟩ := reads_history hadm second
  refine ⟨hadm, ?_, ?_⟩
  · rw [hbases]
    rfl
  · rw [hmro]
    rfl

end Heap

end TypeRegistry
