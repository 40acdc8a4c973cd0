import TypeRegistry.Proofs.Class.Heap
import TypeRegistry.Proofs.Class.Outcome

/-!
# Decisions by identity

Whether an order is accepted is a matter of which blocks it names. What the classes are called, and
whether a reference stands for a class or for its values, decides nothing, nor do the bases of a
class: two runs that differ in these alone accept the same calls, refuse the others for the same
kind of reason, and leave blocks with the same orders.

## Main definitions and statements

* `Call.Alike`: calls that differ in names, flavors and bases alone.
* `Store.Alike`: stores whose blocks have the same orders and seals.
* `Store.Alike.perform`: alike calls on alike stores have alike outcomes.
* `Store.decisions_by_identity`: alike runs decide alike, call by call.
-/

namespace TypeRegistry

/-- Two results are alike: both are values that `R` relates, or both are errors of one kind. -/
inductive Agree {α β : Type} (R : α → β → Prop) :
    Except ClassError α → Except ClassError β → Prop
  | ok {a : α} {b : β} (hab : R a b) : Agree R (.ok a) (.ok b)
  | error {e e' : ClassError} (hkind : e.kindName = e'.kindName) : Agree R (.error e) (.error e')

namespace Agree

variable {α β γ δ : Type} {R : α → β → Prop} {Q : γ → δ → Prop} {r : Except ClassError α}
  {r' : Except ClassError β}

/-- Agreement is kept by functions that keep the relation. -/
theorem map {f : α → γ} {g : β → δ} (h : Agree R r r') (hfg : ∀ a b, R a b → Q (f a) (g b)) :
    Agree Q (r.map f) (r'.map g) := by
  cases h with
  | ok hab => exact .ok (hfg _ _ hab)
  | error hkind => exact .error hkind

/-- Agreement is kept by steps that agree on related values. -/
theorem bind {f : α → Except ClassError γ} {g : β → Except ClassError δ} (h : Agree R r r')
    (hfg : ∀ a b, R a b → Agree Q (f a) (g b)) : Agree Q (r >>= f) (r' >>= g) := by
  cases h with
  | ok hab => exact hfg _ _ hab
  | error hkind => exact .error hkind

end Agree

/-- Two calls differ in the names of new classes, in flavors and in bases alone. -/
inductive Call.Alike : Call → Call → Prop
  | create (name name' : String) (table : SymbolTable) :
      Alike (.create name table) (.create name' table)
  | createWithAncestors (name name' : String) (table : SymbolTable)
      {ancestors ancestors' : List ClassRef}
      (hancestors : ancestors.map (·.block) = ancestors'.map (·.block)) :
      Alike (.createWithAncestors name table ancestors)
        (.createWithAncestors name' table ancestors')
  | replaceMro {c c' : ClassRef} {mro mro' : List ClassRef} (hc : c.block = c'.block)
      (hmro : mro.map (·.block) = mro'.map (·.block)) :
      Alike (.replaceMro c mro) (.replaceMro c' mro')
  | extendMro {c c' entry entry' : ClassRef} (hc : c.block = c'.block)
      (hentry : entry.block = entry'.block) : Alike (.extendMro c entry) (.extendMro c' entry')
  | addBase {c c' : ClassRef} (hc : c.block = c'.block) (base base' : Ty) :
      Alike (.addBase c base) (.addBase c' base')
  | sealClass {c c' : ClassRef} (hc : c.block = c'.block) : Alike (.sealClass c) (.sealClass c')

/-- Two blocks have the same order and the same seal. -/
structure ClassBlock.SameOrder (b b' : ClassBlock) : Prop where
  linearized : b.linearized = b'.linearized
  ancestors : b.ancestors = b'.ancestors
  isSealed : b.isSealed = b'.isSealed

namespace ClassBlock.SameOrder

variable {b b' : ClassBlock}

theorem refl (b : ClassBlock) : b.SameOrder b :=
  ⟨rfl, rfl, rfl⟩

theorem trans {b'' : ClassBlock} (h : b.SameOrder b') (h' : b'.SameOrder b'') : b.SameOrder b'' :=
  ⟨h.linearized.trans h'.linearized, h.ancestors.trans h'.ancestors, h.isSealed.trans h'.isSealed⟩

theorem mro (h : b.SameOrder b') (id : ClassId) : b.mro id = b'.mro id := by
  rw [ClassBlock.mro, ClassBlock.mro, h.linearized, h.ancestors]

theorem mroLength (h : b.SameOrder b') : b.mroLength = b'.mroLength := by
  rw [ClassBlock.mroLength, ClassBlock.mroLength, h.linearized, h.ancestors]

end ClassBlock.SameOrder

/-- Two stores have blocks under the same identifiers, with the same orders and seals. -/
structure Store.Alike (s s' : Store) : Prop where
  size : s.blocks.size = s'.blocks.size
  block : ∀ id, (s.block id).SameOrder (s'.block id)

/-- Two outcomes have the same value, or errors of one kind, and leave alike stores. -/
structure Outcome.Alike {α : Type} (o o' : Outcome α) : Prop where
  result : Agree Eq o.result o'.result
  store : o.store.Alike o'.store

/-- The value of an outcome decides nothing. -/
theorem Outcome.Alike.map {α β : Type} {o o' : Outcome α} (h : o.Alike o') (f : α → β) :
    (o.map f).Alike (o'.map f) := by
  refine ⟨h.result.map ?_, h.store⟩
  rintro a _ rfl
  rfl

namespace Store.Alike

variable {s s' : Store} {id : ClassId} {b b' : ClassBlock}

theorem contains_iff (h : s.Alike s') (id : ClassId) : s.Contains id ↔ s'.Contains id := by
  rw [Contains, Contains, h.size]

theorem nextId (h : s.Alike s') : s.nextId = s'.nextId := by
  rw [Store.nextId, Store.nextId, h.size]

theorem isSealed (h : s.Alike s') (id : ClassId) : s.isSealed id = s'.isSealed id :=
  (h.block id).isSealed

/-- Alike blocks written under one identifier leave alike stores. -/
theorem set (h : s.Alike s') (hb : b.SameOrder b') : (s.set id b).Alike (s'.set id b') := by
  refine ⟨by rw [size_set, size_set, h.size], ?_⟩
  intro other
  by_cases ho : other = id
  · subst ho
    exact rel_block_set (.refl _) hb (h.contains_iff other)
  · rw [block_set_of_ne ho, block_set_of_ne ho]
    exact h.block other

/-- Alike stores are left by making alike blocks. -/
theorem push (h : s.Alike s') (hb : b.SameOrder b') : (s.push b).Alike (s'.push b') := by
  refine ⟨by simp [Store.push, h.size], ?_⟩
  intro other
  by_cases ho : other = s.nextId
  · have ho' : other = s'.nextId := ho.trans h.nextId
    rw [ho, block_push_nextId, ← ho, ho', block_push_nextId]
    exact hb
  · have ho' : other ≠ s'.nextId := h.nextId ▸ ho
    rw [block_push_of_ne ho, block_push_of_ne ho']
    exact h.block other

/-! ### Checks -/

/-- The head of an order is checked by its block alone. -/
theorem requireHead (s s' : Store) (id : ClassId) {head head' : ClassRef}
    (hhead : head.block = head'.block) :
    Agree Eq (s.requireHead id head) (s'.requireHead id head') := by
  rw [Store.requireHead, Store.requireHead, ← hhead]
  split
  · exact .ok rfl
  · exact .error rfl

/-- The ancestors in an order are checked by their blocks alone. -/
theorem refuseSelf (s s' : Store) (id : ClassId) {ancestors ancestors' : List ClassRef}
    (hancestors : ancestors.map (·.block) = ancestors'.map (·.block)) :
    Agree Eq (s.refuseSelf id ancestors) (s'.refuseSelf id ancestors') := by
  have hany : ancestors.any (·.block = id) = ancestors'.any (·.block = id) := by
    have hblocks := congrArg (List.any · (· = id)) hancestors
    simpa only [List.any_map, Function.comp_def] using hblocks
  rw [Store.refuseSelf, Store.refuseSelf, hany]
  split
  · exact .error rfl
  · exact .ok rfl

/-! ### Changes -/

/-- Alike changes of alike stores have alike outcomes: the seal is checked first, and the changed
block is written only where the change is accepted. -/
theorem mutate (h : s.Alike s') (id : ClassId)
    {change change' : ClassBlock → Except ClassError (ClassBlock × List Event)}
    (hchange : ∀ b b', b.SameOrder b' →
      Agree (fun p p' => p.1.SameOrder p'.1) (change b) (change' b')) :
    (s.mutate id change).Alike (s'.mutate id change') := by
  -- The seal is the same on both sides, so either both changes are looked at or neither is.
  cases hs : s.isSealed id with
  | true =>
      have hs' : s'.isSealed id = true := h.isSealed id ▸ hs
      rw [mutate_of_sealed hs, mutate_of_sealed hs']
      exact ⟨.error rfl, h⟩
  | false =>
      have hs' : s'.isSealed id = false := h.isSealed id ▸ hs
      have hagree := hchange _ _ (h.block id)
      generalize hr : change (s.block id) = r, hr' : change' (s'.block id) = r' at hagree
      cases hagree with
      | ok hb =>
          rw [mutate_of_ok hs hr, mutate_of_ok hs' hr']
          exact ⟨.ok rfl, h.set hb⟩
      | error hkind =>
          rw [mutate_of_error hs hr, mutate_of_error hs' hr']
          exact ⟨.error hkind, h⟩

/-- A replacement is decided by the blocks of its entries. -/
theorem reorder (s s' : Store) (id : ClassId) (hb : b.SameOrder b') {mro mro' : List ClassRef}
    (hmro : mro.map (·.block) = mro'.map (·.block)) :
    Agree ClassBlock.SameOrder (s.reorder id b mro) (s'.reorder id b' mro') := by
  -- Orders of the same blocks are empty together.
  rcases mro with _ | ⟨head, rest⟩ <;> rcases mro' with _ | ⟨head', rest'⟩
  · exact .ok ⟨rfl, rfl, hb.isSealed⟩
  · cases hmro
  · cases hmro
  · rw [List.map_cons, List.map_cons] at hmro
    obtain ⟨hhead, hrest⟩ := List.cons.inj hmro
    refine (requireHead s s' id hhead).bind fun _ _ _ => ?_
    refine (refuseSelf s s' id hrest).bind fun _ _ _ => ?_
    exact .ok ⟨rfl, hrest, hb.isSealed⟩

theorem replaceMro (h : s.Alike s') (id : ClassId) {mro mro' : List ClassRef}
    (hmro : mro.map (·.block) = mro'.map (·.block)) :
    (s.replaceMro id mro).Alike (s'.replaceMro id mro') := by
  refine h.mutate id fun b b' hb => ?_
  exact (reorder s s' id hb hmro).map fun _ _ hab => hab

theorem extendMro (h : s.Alike s') (id : ClassId) {entry entry' : ClassRef}
    (hentry : entry.block = entry'.block) :
    (s.extendMro id entry).Alike (s'.extendMro id entry') := by
  refine h.mutate id fun b b' hb => ?_
  have hone : [entry].map (·.block) = [entry'].map (·.block) := congrArg (fun x => [x]) hentry
  -- Both orders are started or neither is, so the entry is checked in the same way.
  rw [← hb.linearized]
  split
  · refine (refuseSelf s s' id hone).map fun _ _ _ => ?_
    exact ⟨rfl, by rw [hb.ancestors, hentry], hb.isSealed⟩
  · refine (requireHead s s' id hentry).map fun _ _ _ => ?_
    exact ⟨rfl, hb.ancestors, hb.isSealed⟩

/-- Appending bases keeps stores alike, for no decision looks at the bases. -/
theorem addBase (h : s.Alike s') (id : ClassId) (base base' : Ty) :
    (s.addBase id base).Alike (s'.addBase id base') :=
  h.mutate id fun _ _ hb => .ok ⟨hb.linearized, hb.ancestors, hb.isSealed⟩

theorem sealBlock (h : s.Alike s') (id : ClassId) : (s.sealBlock id).Alike (s'.sealBlock id) := by
  refine ⟨?_, ?_⟩
  · rw [result_sealBlock, result_sealBlock]
    exact .ok rfl
  · rw [store_sealBlock, store_sealBlock]
    exact h.set ⟨(h.block id).linearized, (h.block id).ancestors, rfl⟩

/-! ### New blocks -/

/-- New classes keep stores alike, whatever their names are. -/
theorem create (h : s.Alike s') (name name' : String) (table : SymbolTable) :
    (s.create name table).Alike (s'.create name' table) := by
  cases htable : table.missingPart? with
  | some part =>
      rw [create_of_incomplete name htable, create_of_incomplete name' htable]
      exact ⟨.error rfl, h⟩
  | none =>
      rw [create_of_complete name htable, create_of_complete name' htable, ← h.nextId]
      exact ⟨.ok rfl, h.push ⟨rfl, rfl, rfl⟩⟩

/-- New classes with the same blocks as ancestors keep stores alike. -/
theorem createWithAncestors (h : s.Alike s') (name name' : String) (table : SymbolTable)
    {ancestors ancestors' : List ClassRef}
    (hancestors : ancestors.map (·.block) = ancestors'.map (·.block)) :
    (s.createWithAncestors name table ancestors).Alike
      (s'.createWithAncestors name' table ancestors') := by
  cases htable : table.missingPart? with
  | some part =>
      rw [createWithAncestors_of_incomplete name _ htable,
        createWithAncestors_of_incomplete name' _ htable]
      exact ⟨.error rfl, h⟩
  | none =>
      rcases ancestors with _ | ⟨first, rest⟩ <;> rcases ancestors' with _ | ⟨first', rest'⟩
      · rw [createWithAncestors_nil, createWithAncestors_nil]
        exact h.create name name' table
      · cases hancestors
      · cases hancestors
      · simp only [Store.createWithAncestors, create_of_complete name htable,
          create_of_complete name' htable, ← h.nextId]
        -- The new blocks are alike, and are given alike orders.
        have hpush : (s.push { name, table }).Alike (s'.push { name := name', table }) :=
          h.push ⟨rfl, rfl, rfl⟩
        have hmro : (ClassRef.ofBlock s.nextId :: first :: rest).map (·.block) =
            (ClassRef.ofBlock s.nextId :: first' :: rest').map (·.block) :=
          congrArg (List.cons s.nextId) hancestors
        have hordered := (hpush.replaceMro s.nextId hmro).map fun _ => ClassRef.ofBlock s.nextId
        exact ⟨hordered.result, hordered.store⟩

/-- Alike calls on alike stores have alike outcomes. -/
theorem perform (h : s.Alike s') {call call' : Call} (hcall : call.Alike call') :
    (s.perform call).Alike (s'.perform call') := by
  cases hcall with
  | create name name' table => exact (h.create name name' table).map some
  | createWithAncestors name name' table hancestors =>
      exact (h.createWithAncestors name name' table hancestors).map some
  | replaceMro hc hmro =>
      rw [Store.perform, Store.perform, ← hc]
      exact (h.replaceMro _ hmro).map _
  | extendMro hc hentry =>
      rw [Store.perform, Store.perform, ← hc]
      exact (h.extendMro _ hentry).map _
  | addBase hc base base' =>
      rw [Store.perform, Store.perform, ← hc]
      exact (h.addBase _ base base').map _
  | sealClass hc =>
      rw [Store.perform, Store.perform, ← hc]
      exact (h.sealBlock _).map _

end Store.Alike

namespace Store

/-- Alike runs from alike stores decide alike, call by call, and leave alike stores. -/
theorem Alike.run {s s' : Store} (h : s.Alike s') {calls calls' : List Call}
    (hcalls : List.Forall₂ Call.Alike calls calls') :
    List.Forall₂ (fun r r' : Record => Agree Eq r.result r'.result) (s.records calls)
        (s'.records calls') ∧
      (s.run calls).Alike (s'.run calls') := by
  -- The stores vary: the rest of the run starts from those that the first call leaves.
  induction hcalls generalizing s s' with
  | nil => exact ⟨.nil, h⟩
  | cons hcall _ ih =>
      have hperform := h.perform hcall
      obtain ⟨hrecords, hrun⟩ := ih hperform.store
      exact ⟨.cons hperform.result hrecords, hrun⟩

/-- Whether a call is accepted depends on the blocks it names and on nothing else. Take two runs of
calls from the start that differ in the names of the classes that are made, in the flavors of the
references that are used, and in bases alone. Call by call both are accepted and make the same
block, if any, or both are refused for one kind of reason. In the end the blocks have the same seals
and the same orders of the same length, and references to the same blocks are the same class. -/
theorem decisions_by_identity {calls calls' : List Call}
    (hcalls : List.Forall₂ Call.Alike calls calls') :
    List.Forall₂ (fun r r' : Record => Agree Eq r.result r'.result) (empty.records calls)
        (empty.records calls') ∧
      (∀ id, (empty.run calls).isSealed id = (empty.run calls').isSealed id ∧
        (empty.run calls).mroLength id = (empty.run calls').mroLength id ∧
        (empty.run calls).mro id = (empty.run calls').mro id) ∧
      ∀ c c' d d' : ClassRef, c.block = c'.block → d.block = d'.block →
        c.isSameClass d = c'.isSameClass d' := by
  -- A store without blocks is alike itself.
  have hempty : empty.Alike empty := ⟨rfl, fun id => .refl _⟩
  obtain ⟨hrecords, hrun⟩ := hempty.run hcalls
  refine ⟨hrecords, ?_, ?_⟩
  · intro id
    have hblock := hrun.block id
    exact ⟨hblock.isSealed, hblock.mroLength, hblock.mro id⟩
  · intro c c' d d' hc hd
    rw [ClassRef.isSameClass, ClassRef.isSameClass, hc, hd]

/-- Three classes, one of which is refused as its own ancestor and one of which is sealed, between
calls that are accepted. -/
def distinctNames : List Call :=
  let table := BodyScope.empty.toTable
  let first := ClassRef.ofBlock ⟨0⟩
  let second := ClassRef.ofBlock ⟨1⟩
  let third := ClassRef.ofBlock ⟨2⟩
  [.create "First" table, .createWithAncestors "Second" table [first], .create "Third" table,
    .replaceMro first [first, second, third], .replaceMro second [second, third, second],
    .extendMro third first, .extendMro third third, .sealClass third, .extendMro third first]

/-- The same with one name for all classes and instances in place of classes. -/
def equalNames : List Call :=
  let table := BodyScope.empty.toTable
  let first := ClassRef.toInstance (.ofBlock ⟨0⟩)
  let second := ClassRef.toInstance (.ofBlock ⟨1⟩)
  let third := ClassRef.toInstance (.ofBlock ⟨2⟩)
  [.create "Point" table, .createWithAncestors "Point" table [first], .create "Point" table,
    .replaceMro first [first, second.toInstantiable, third],
    .replaceMro second [second, third, second.toInstantiable], .extendMro third first,
    .extendMro third.toInstantiable third, .sealClass third, .extendMro third first]

/-- Three classes of one name are told apart as three classes of three names are. -/
theorem decisions_by_identity_names :
    List.Forall₂ Call.Alike distinctNames equalNames ∧
      List.Forall₂ (fun r r' : Record => Agree Eq r.result r'.result)
        (empty.records distinctNames) (empty.records equalNames) ∧
      (empty.run equalNames).mro ⟨0⟩ = [.ofBlock ⟨0⟩, .ofBlock ⟨1⟩, .ofBlock ⟨2⟩] := by
  have hcalls : List.Forall₂ Call.Alike distinctNames equalNames :=
    .cons (.create _ _ _) <| .cons (.createWithAncestors _ _ _ rfl) <| .cons (.create _ _ _) <|
      .cons (.replaceMro rfl rfl) <| .cons (.replaceMro rfl rfl) <| .cons (.extendMro rfl rfl) <|
        .cons (.extendMro rfl rfl) <| .cons (.sealClass rfl) <| .cons (.extendMro rfl rfl) .nil
  obtain ⟨hrecords, hblocks, -⟩ := decisions_by_identity hcalls
  refine ⟨hcalls, hrecords, ?_⟩
  rw [← (hblocks ⟨0⟩).2.2]
  decide

end Store

end TypeRegistry
