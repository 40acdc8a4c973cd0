import Mathlib.Data.List.Perm.Basic
import TypeRegistry.Proofs.Class.Heap
import TypeRegistry.Proofs.Class.Outcome

/-!
# Calls on different blocks

Blocks refer to each other, and what is refused or logged of one block names others. Still a call on
a block reads nothing of another block but its name, which no call changes, and writes no other
block. So calls on different blocks do not disturb each other, whichever comes first.

## Main definitions and statements

* `Call.target?`: the block that a call is made on.
* `Store.SameSight`: stores that look the same from a block.
* `Store.SameSight.perform`: what a call does is a matter of what is seen from its block.
* `Store.SameSight.run`: in a run of calls on many blocks, those on one block do what they do when
  they are made alone.
* `Store.changes_commute`: calls on different blocks can change places.
-/

namespace TypeRegistry

/-- The block that a call is made on. A call that makes a class has none. -/
def Call.target? (call : Call) : Option ClassId :=
  call.receiver?.map (·.block)

/-- The calls of a run that are made on the block `id`. -/
def callsOn (id : ClassId) (calls : List Call) : List Call :=
  calls.filter (·.target? = some id)

/-- The records of the calls on the block `id`. -/
def recordsOn (id : ClassId) (records : List Record) : List Record :=
  records.filter (·.call.target? = some id)

section On

variable {id : ClassId} {call : Call} {later : List Call} {outcome : Outcome (Option ClassRef)}
  {records : List Record}

theorem callsOn_cons_self (hcall : call.target? = some id) :
    callsOn id (call :: later) = call :: callsOn id later :=
  List.filter_cons_of_pos (decide_eq_true hcall)

theorem callsOn_cons_of_ne (hcall : call.target? ≠ some id) :
    callsOn id (call :: later) = callsOn id later :=
  List.filter_cons_of_neg (by rwa [decide_eq_true_eq])

theorem callsOn_append (id : ClassId) (calls later : List Call) :
    callsOn id (calls ++ later) = callsOn id calls ++ callsOn id later :=
  List.filter_append calls later

/-- Of calls on other blocks none is counted. -/
theorem callsOn_eq_nil {calls : List Call} (hcalls : ∀ call ∈ calls, call.target? ≠ some id) :
    callsOn id calls = [] :=
  List.filter_eq_nil_iff.2 (by simpa using hcalls)

theorem recordsOn_cons_self (hcall : call.target? = some id) :
    recordsOn id (call.record outcome :: records) = call.record outcome :: recordsOn id records :=
  List.filter_cons_of_pos (decide_eq_true hcall)

theorem recordsOn_cons_of_ne (hcall : call.target? ≠ some id) :
    recordsOn id (call.record outcome :: records) = recordsOn id records :=
  List.filter_cons_of_neg (by rwa [decide_eq_true_eq])

end On

namespace Store

variable {s s' s'' : Store} {id other : ClassId} {b : ClassBlock} {call : Call}

/-- Stores with the same blocks are equal. -/
theorem eq_of_block_eq (hsize : s.blocks.size = s'.blocks.size)
    (hblock : ∀ id, s.block id = s'.block id) : s = s' := by
  obtain ⟨blocks⟩ := s
  obtain ⟨blocks'⟩ := s'
  rw [mk.injEq]
  -- With one size, the slots within bounds are the same, and each of them is a block.
  apply Array.ext hsize
  intro i hi hi'
  simpa [block, hi, hi'] using hblock ⟨i⟩

/-- Blocks under different identifiers can be written in either order. -/
theorem set_comm (hne : id ≠ other) (b b' : ClassBlock) :
    (s.set id b).set other b' = (s.set other b').set id b := by
  have hindex : id.index ≠ other.index := fun e => hne (by cases id; cases other; simp_all)
  rw [set, set, set, set, mk.injEq]
  exact Array.setIfInBounds_comm _ _ hindex

/-! ### What is seen from a block -/

/-- Both stores look the same from the block `id`: the block itself is the same, and every class has
the same name. -/
structure SameSight (id : ClassId) (s s' : Store) : Prop where
  contains : s.Contains id ↔ s'.Contains id
  block : s.block id = s'.block id
  className : s.className = s'.className

namespace SameSight

theorem refl (id : ClassId) (s : Store) : SameSight id s s :=
  ⟨Iff.rfl, rfl, rfl⟩

theorem trans (h : SameSight id s s') (h' : SameSight id s' s'') : SameSight id s s'' :=
  ⟨h.contains.trans h'.contains, h.block.trans h'.block, h.className.trans h'.className⟩

theorem isSealed (h : SameSight id s s') : s.isSealed id = s'.isSealed id :=
  congrArg ClassBlock.isSealed h.block

end SameSight

section ClassName

variable (hname : s.className = s'.className)
include hname

/-- The check of a head reads names and nothing else. -/
theorem requireHead_congr : s.requireHead = s'.requireHead := by
  funext id head
  rw [requireHead, requireHead, hname]

/-- The check for the block among its ancestors reads names and nothing else. -/
theorem refuseSelf_congr : s.refuseSelf = s'.refuseSelf := by
  funext id ancestors
  rw [refuseSelf, refuseSelf, hname]

/-- A replacement of an order reads names and the block that is given to it. -/
theorem reorder_congr : s.reorder = s'.reorder := by
  funext id b mro
  rcases mro with _ | ⟨head, rest⟩
  · rfl
  · rw [reorder, reorder, requireHead_congr hname, refuseSelf_congr hname]

/-- Texts of types are made of names. -/
theorem render_congr : s.render = s'.render := by
  have hview : s.classView = s'.classView := by
    funext c
    rw [classView, classView, hname]
  funext t
  rw [render, render, view, view, hview]

end ClassName

/-! ### What a call on a block does -/

/-- The outcomes of two stores give and log the same, and write the same block under `id`. -/
def WriteAlike {α : Type} (id : ClassId) (s s' : Store) (o o' : Outcome α) : Prop :=
  ∃ result events b, o = ⟨result, events, s.set id b⟩ ∧ o' = ⟨result, events, s'.set id b⟩

/-- Outcomes that write alike do so when their values are mapped. -/
theorem WriteAlike.map {α β : Type} {o o' : Outcome α} (h : WriteAlike id s s' o o') (f : α → β) :
    WriteAlike id s s' (o.map f) (o'.map f) := by
  obtain ⟨result, events, b, rfl, rfl⟩ := h
  exact ⟨result.map f, events, b, rfl, rfl⟩

namespace SameSight

/-- One change of a block does the same in stores that look the same from the block. -/
theorem mutate (h : SameSight id s s')
    {change change' : ClassBlock → Except ClassError (ClassBlock × List Event)}
    (hchange : change = change') :
    WriteAlike id s s' (s.mutate id change) (s'.mutate id change') := by
  subst hchange
  cases hs : s.isSealed id with
  | true =>
      have hs' : s'.isSealed id = true := h.isSealed ▸ hs
      -- A refusal writes the block that is there.
      refine ⟨.error (.frozen (s.className id)), [.mutationRejected (s.className id)], s.block id,
        ?_, ?_⟩
      · rw [mutate_of_sealed hs, set_block]
      · rw [mutate_of_sealed hs', h.className, h.block, set_block]
  | false =>
      have hs' : s'.isSealed id = false := h.isSealed ▸ hs
      cases hr : change (s.block id) with
      | error e =>
          refine ⟨.error e, [], s.block id, ?_, ?_⟩
          · rw [mutate_of_error hs hr, set_block]
          · rw [mutate_of_error hs' (h.block ▸ hr), h.block, set_block]
      | ok made =>
          obtain ⟨b, events⟩ := made
          exact ⟨.ok (), events, b, mutate_of_ok hs hr, mutate_of_ok hs' (h.block ▸ hr)⟩

/-! The changes read the store for names alone. -/

theorem replaceMro (h : SameSight id s s') (mro : List ClassRef) :
    WriteAlike id s s' (s.replaceMro id mro) (s'.replaceMro id mro) :=
  h.mutate (by rw [reorder_congr h.className])

theorem extendMro (h : SameSight id s s') (entry : ClassRef) :
    WriteAlike id s s' (s.extendMro id entry) (s'.extendMro id entry) :=
  h.mutate (by rw [requireHead_congr h.className, refuseSelf_congr h.className, h.className])

/-- Appending a base writes the same wherever the sight is the same: its text is made of names. -/
theorem addBase (h : SameSight id s s') (base : Ty) :
    WriteAlike id s s' (s.addBase id base) (s'.addBase id base) :=
  h.mutate (by rw [render_congr h.className])

theorem sealBlock (h : SameSight id s s') :
    WriteAlike id s s' (s.sealBlock id) (s'.sealBlock id) := by
  have hevents : (s.sealBlock id).events = (s'.sealBlock id).events := by
    rw [Store.sealBlock, Store.sealBlock, h.block]
    split <;> rfl
  refine ⟨.ok (), (s.sealBlock id).events, { s.block id with isSealed := true }, ?_, ?_⟩
  · rw [← result_sealBlock s id, ← store_sealBlock]
  · rw [hevents, h.block, ← result_sealBlock s' id, ← store_sealBlock]

/-- What a call on a block gives, logs and writes is a matter of what is seen from the block. -/
theorem writeAlike (h : SameSight id s s') (hcall : call.target? = some id) :
    WriteAlike id s s' (s.perform call) (s'.perform call) := by
  cases call with
  | create | createWithAncestors => cases hcall
  | replaceMro c mro =>
      cases hcall
      exact (h.replaceMro mro).map _
  | extendMro c entry =>
      cases hcall
      exact (h.extendMro entry).map _
  | addBase c base =>
      cases hcall
      exact (h.addBase base).map _
  | sealClass c =>
      cases hcall
      exact h.sealBlock.map _

end SameSight

/-- A call on a block writes no other block, and keeps the name of its own. -/
theorem exists_store_perform_eq (s : Store) (hcall : call.target? = some id) :
    ∃ b, b.name = s.className id ∧ (s.perform call).store = s.set id b := by
  obtain ⟨c, hc, rfl⟩ := Option.map_eq_some_iff.1 hcall
  have hperformed := s.performed_of_receiver hc
  generalize (s.perform call).result = result, (s.perform call).store = store at hperformed
  cases hperformed with
  -- A refusal writes back what is there.
  | refused => exact ⟨s.block c.block, rfl, (s.set_block c.block).symm⟩
  | changed hc' heffect =>
      obtain rfl := Option.some.inj (hc.symm.trans hc')
      exact ⟨_, heffect.name_eq, rfl⟩
  | created hbirth =>
      rw [hbirth.receiver?_eq_none] at hc
      cases hc

/-- A call on a block leaves every class its name. -/
theorem className_perform (s : Store) (hcall : call.target? = some id) :
    (s.perform call).store.className = s.className := by
  obtain ⟨b, hname, hstore⟩ := s.exists_store_perform_eq hcall
  ext1 other
  rw [hstore, className_set hname]

/-- A call on another block is not seen. -/
theorem sameSight_perform (s : Store) (hcall : call.target? = some other) (hne : id ≠ other) :
    SameSight id (s.perform call).store s := by
  have hclassName := s.className_perform hcall
  obtain ⟨b, -, hstore⟩ := s.exists_store_perform_eq hcall
  rw [hstore] at hclassName ⊢
  exact ⟨contains_set, block_set_of_ne hne b, hclassName⟩

/-- A call on a block has the same record in stores that look the same from the block, and leaves
stores that do. -/
theorem SameSight.perform (h : SameSight id s s') (hcall : call.target? = some id) :
    call.record (s.perform call) = call.record (s'.perform call) ∧
      SameSight id (s.perform call).store (s'.perform call).store := by
  have hclassName := s.className_perform hcall
  have hclassName' := s'.className_perform hcall
  -- One block is written into both stores, under one result.
  obtain ⟨result, events, b, hs, hs'⟩ := h.writeAlike hcall
  rw [hs] at hclassName ⊢
  rw [hs'] at hclassName' ⊢
  refine ⟨rfl, ?_, ?_, ?_⟩
  · rw [contains_set, contains_set, h.contains]
  · exact rel_block_set rfl rfl h.contains
  · rw [hclassName, hclassName', h.className]

/-! ### Runs -/

variable {calls calls' : List Call}

/-- In a run of calls on many blocks, those on one block have the records and do to the block what
they have and do when they are made alone. -/
theorem SameSight.run (h : SameSight id s s')
    (hcalls : ∀ call ∈ calls, ∃ other, call.target? = some other) :
    recordsOn id (s.records calls) = s'.records (callsOn id calls) ∧
      SameSight id (s.run calls) (s'.run (callsOn id calls)) := by
  -- The first store goes through all calls, the second only through those on the block.
  induction calls generalizing s s' with
  | nil => exact ⟨rfl, h⟩
  | cons call later ih =>
      obtain ⟨⟨other, hother⟩, hlater⟩ := List.forall_mem_cons.1 hcalls
      by_cases hid : call.target? = some id
      · obtain ⟨hrecord, hstore⟩ := h.perform hid
        obtain ⟨hrecords, hrun⟩ := ih hstore hlater
        rw [callsOn_cons_self hid, records, records, recordsOn_cons_self hid, hrecord, hrecords]
        exact ⟨rfl, hrun⟩
      -- The run alone does not make the call, and the block does not see it.
      · have hne : id ≠ other := fun e => hid (e ▸ hother)
        obtain ⟨hrecords, hrun⟩ := ih ((s.sameSight_perform hother hne).trans h) hlater
        rw [callsOn_cons_of_ne hid, records, recordsOn_cons_of_ne hid]
        exact ⟨hrecords, hrun⟩

/-- Calls on blocks make no block. -/
theorem size_run (s : Store) (hcalls : ∀ call ∈ calls, ∃ other, call.target? = some other) :
    (s.run calls).blocks.size = s.blocks.size := by
  induction calls generalizing s with
  | nil => rfl
  | cons call later ih =>
      obtain ⟨⟨other, hother⟩, hlater⟩ := List.forall_mem_cons.1 hcalls
      obtain ⟨b, -, hstore⟩ := s.exists_store_perform_eq hother
      calc (s.run (call :: later)).blocks.size
          = (s.perform call).store.blocks.size := ih (s.perform call).store hlater
        _ = s.blocks.size := by rw [hstore, size_set]

/-- Runs of calls on blocks in which the calls on each block are the same and come in the same order
have the same records on each block, and leave the same store. -/
theorem records_run_congr (s : Store) (hcalls : ∀ call ∈ calls, ∃ other, call.target? = some other)
    (hcalls' : ∀ call ∈ calls', ∃ other, call.target? = some other)
    (horder : ∀ id, callsOn id calls = callsOn id calls') :
    (∀ id, recordsOn id (s.records calls) = recordsOn id (s.records calls')) ∧
      s.run calls = s.run calls' := by
  -- Each run is compared with the calls on one block made alone; stores are the same when they are
  -- so block by block.
  refine ⟨?_, eq_of_block_eq ?_ ?_⟩
  · intro id
    rw [((SameSight.refl id s).run hcalls).1, ((SameSight.refl id s).run hcalls').1, horder]
  · rw [s.size_run hcalls, s.size_run hcalls']
  · intro id
    have hblock := ((SameSight.refl id s).run hcalls).2.block
    have hblock' := ((SameSight.refl id s).run hcalls').2.block
    rw [hblock, hblock', horder]

/-- Two calls on different blocks have the same records in either order, and leave the same
store. -/
theorem records_run_pair (s : Store) {first second : Call} (hfirst : first.target? = some id)
    (hsecond : second.target? = some other) (hne : id ≠ other) :
    (∃ r r', s.records [first, second] = [r, r'] ∧ s.records [second, first] = [r', r]) ∧
      s.run [first, second] = s.run [second, first] := by
  -- Neither call is seen from the block of the other, so each has one outcome in both orders.
  obtain ⟨result, events, b, hlate, hearly⟩ :=
    (s.sameSight_perform hsecond hne).writeAlike hfirst
  obtain ⟨result', events', b', hlate', hearly'⟩ :=
    (s.sameSight_perform hfirst hne.symm).writeAlike hsecond
  refine ⟨⟨⟨first, result, events⟩, ⟨second, result', events'⟩, ?_, ?_⟩, ?_⟩
  · rw [records, records, records, Call.record, Call.record, hlate', hearly]
  · rw [records, records, records, Call.record, Call.record, hlate, hearly']
  · calc s.run [first, second]
        = ((s.perform first).store.perform second).store := rfl
      _ = (s.set id b).set other b' := by rw [hlate', hearly]
      _ = (s.set other b').set id b := set_comm hne b b'
      _ = ((s.perform second).store.perform first).store := by rw [hlate, hearly']
      _ = s.run [second, first] := rfl

/-- Calls on different blocks are independent, whatever they name. Two of them give and log the same
in either order and leave the same store. So do the calls of a run that is reordered, where those on
each block keep their order: for each block, the calls on it give and log the same one by one, and
in the end the block has the same order, the same bases and the same seal; indeed the same store is
left. -/
theorem changes_commute (s : Store) :
    (∀ (first second : Call) (id other : ClassId), first.target? = some id →
      second.target? = some other → id ≠ other →
        (∃ r r', s.records [first, second] = [r, r'] ∧ s.records [second, first] = [r', r]) ∧
          s.run [first, second] = s.run [second, first]) ∧
    ∀ calls calls' : List Call, (∀ call ∈ calls, ∃ id, call.target? = some id) →
      calls.Perm calls' → (∀ id, callsOn id calls = callsOn id calls') →
        (∀ id, recordsOn id (s.records calls) = recordsOn id (s.records calls') ∧
          (s.run calls).mro id = (s.run calls').mro id ∧
          (s.run calls).bases id = (s.run calls').bases id ∧
          (s.run calls).isSealed id = (s.run calls').isSealed id) ∧
        s.run calls = s.run calls' := by
  refine ⟨?_, ?_⟩
  · intro first second id other hfirst hsecond hne
    exact s.records_run_pair hfirst hsecond hne
  · intro calls calls' hcalls hperm horder
    have hcalls' : ∀ call ∈ calls', ∃ id, call.target? = some id := fun call hcall =>
      hcalls call (hperm.mem_iff.2 hcall)
    obtain ⟨hrecords, hstore⟩ := s.records_run_congr hcalls hcalls' horder
    refine ⟨?_, hstore⟩
    intro id
    rw [hstore]
    exact ⟨hrecords id, rfl, rfl, rfl⟩

/-- Two open classes without ancestors. -/
def pointAndOrigin : Store :=
  empty.run [.create "Point" BodyScope.empty.toTable, .create "Origin" BodyScope.empty.toTable]

/-- Calls on the first class: two of them name the second, and one comes after the seal. -/
def changesOfPoint : List Call :=
  let point := ClassRef.ofBlock ⟨0⟩
  let origin := ClassRef.ofBlock ⟨1⟩
  [.extendMro point point, .extendMro point.toInstance origin, .addBase point (.nominal origin),
    .sealClass point, .extendMro point origin]

/-- Calls on the second class: they name the first, and two of them are refused. -/
def changesOfOrigin : List Call :=
  let point := ClassRef.ofBlock ⟨0⟩
  let origin := ClassRef.ofBlock ⟨1⟩
  [.replaceMro origin [point], .replaceMro origin [origin, point], .extendMro origin origin,
    .addBase origin (.nominal point.toInstance)]

/-- Changes of two classes that refer to each other, refused ones among them, taken in both orders.
-/
theorem changes_commute_pointAndOrigin :
    (∀ first ∈ changesOfPoint, ∀ second ∈ changesOfOrigin,
      pointAndOrigin.run [first, second] = pointAndOrigin.run [second, first]) ∧
    (∀ id, recordsOn id (pointAndOrigin.records (changesOfPoint ++ changesOfOrigin)) =
      recordsOn id (pointAndOrigin.records (changesOfOrigin ++ changesOfPoint))) ∧
    (pointAndOrigin.run (changesOfOrigin ++ changesOfPoint)).mro ⟨0⟩ =
      [.ofBlock ⟨0⟩, .ofBlock ⟨1⟩] := by
  have hpoint : ∀ call ∈ changesOfPoint, call.target? = some ⟨0⟩ := by
    simp [changesOfPoint, Call.target?, Call.receiver?, ClassRef.toInstance, ClassRef.ofBlock]
  have horigin : ∀ call ∈ changesOfOrigin, call.target? = some ⟨1⟩ := by
    simp [changesOfOrigin, Call.target?, Call.receiver?, ClassRef.ofBlock]
  have hcalls : ∀ call ∈ changesOfPoint ++ changesOfOrigin, ∃ id, call.target? = some id := by
    intro call hcall
    rcases List.mem_append.1 hcall with hcall | hcall
    · exact ⟨_, hpoint call hcall⟩
    · exact ⟨_, horigin call hcall⟩
  have horder (id : ClassId) : callsOn id (changesOfPoint ++ changesOfOrigin) =
      callsOn id (changesOfOrigin ++ changesOfPoint) := by
    rw [callsOn_append, callsOn_append]
    -- One of the two parts has no call on the block.
    by_cases hid : id = ⟨0⟩
    · have hnone : callsOn id changesOfOrigin = [] :=
        callsOn_eq_nil fun call hcall => by simp [horigin call hcall, hid]
      rw [hnone, List.append_nil, List.nil_append]
    · have hnone : callsOn id changesOfPoint = [] :=
        callsOn_eq_nil fun call hcall => by simpa [hpoint call hcall] using Ne.symm hid
      rw [hnone, List.append_nil, List.nil_append]
  obtain ⟨hpair, hreorder⟩ := changes_commute pointAndOrigin
  obtain ⟨hblocks, hstore⟩ := hreorder _ _ hcalls List.perm_append_comm horder
  refine ⟨?_, fun id => (hblocks id).1, ?_⟩
  · intro first hfirst second hsecond
    exact (hpair first second _ _ (hpoint first hfirst) (horigin second hsecond) (by decide)).2
  · rw [← hstore]
    decide

end Store
end TypeRegistry
