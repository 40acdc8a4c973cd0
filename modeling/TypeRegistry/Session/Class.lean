import TypeRegistry.Class.Change
import TypeRegistry.Session.Basic

/-!
# Class steps of a session

Classes are made, changed and read through slots. Each step reads its slots first, so a step with an
empty slot makes no call on the store. What is reported of a block names, for each entry of its
resolution order, the slots that hold a class of that block.

## Main definitions

* `Session.create`, `Session.createWithAncestors`: new classes.
* `Session.replaceMro`, `Session.extendMro`, `Session.addBase`, `Session.sealClass`: changes.
* `Session.blockReport`: what is reported of a block.
-/

namespace TypeRegistry

/-- An entry of a resolution order as it is reported. -/
structure MroEntry where
  /-- What the texts of the entry show. -/
  view : ClassView
  /-- The slots that hold a class of the same block, in the order of their names. -/
  slots : List String
deriving DecidableEq, Repr

/-- What is reported of a block. -/
structure BlockReport where
  /-- Whether the block is frozen. -/
  isSealed : Bool
  mroLength : Nat
  mro : List MroEntry
  /-- The canonical texts of the bases. -/
  bases : List String
deriving DecidableEq, Repr

/-- What is reported of a class: what its texts show, and its block. -/
structure ClassReport where
  /-- What the texts of the class show. -/
  view : ClassView
  block : BlockReport
deriving DecidableEq, Repr

/-- What is reported of an attempt to make a class. -/
structure Creation where
  /-- The class, or why it was not made. -/
  result : Except ClassError ClassReport
  events : List Event

/-- What is reported of an attempt to change a class. -/
structure Alteration where
  /-- Why the change was refused, if it was. -/
  result : Except ClassError Unit
  events : List Event
  block : BlockReport

/-- Which class a copy of a class is. -/
inductive CopyMode where
  /-- The same class with the same flavor. -/
  | same
  | toInstance
  /-- The class itself. -/
  | toInstantiable
  /-- The class object made anew from the block. -/
  | fromBlock
deriving DecidableEq, Repr

/-- The copy of a class. -/
def ClassRef.copy (c : ClassRef) : CopyMode → ClassRef
  | .same => c
  | .toInstance => c.toInstance
  | .toInstantiable => c.toInstantiable
  | .fromBlock => .ofBlock c.block

namespace Session

/-! ### Reports -/

/-- The report on a block as it is now. -/
def blockReport (session : Session) (id : ClassId) : BlockReport where
  isSealed := session.store.isSealed id
  mroLength := session.store.mroLength id
  mro := (session.store.mro id).map fun c => ⟨session.store.classView c, session.slotsOf c.block⟩
  bases := (session.store.bases id).map session.store.render

/-- The report on a class as it is now. -/
def classReport (session : Session) (c : ClassRef) : ClassReport where
  view := session.store.classView c
  block := session.blockReport c.block

/-- What is reported of the class in a slot. -/
def reportOn (slot : String) : SessionM ClassReport := do
  let c ← classIn slot
  return (← get).classReport c

/-! ### New classes -/

/-- The session after an attempt to make a class for a slot. If no class was made, the slot keeps
what it held. -/
def place (session : Session) (slot : String) (outcome : Outcome ClassRef) : Session :=
  let session := { session with store := outcome.store }
  match outcome.result with
  | .ok c => { session with classes := session.classes.insert slot c }
  | .error _ => session

/-- Makes a class and puts it in a slot. -/
def putNew (slot : String) (make : Store → Outcome ClassRef) : SessionM Creation := do
  let outcome := make (← get).store
  modify (·.place slot outcome)
  return ⟨outcome.result.map (← get).classReport, outcome.events⟩

/-- The symbol table for a new class: that of the scope in a slot as it is now, or an empty one. -/
def tableFor : Option String → SessionM SymbolTable
  | none => return BodyScope.empty.toTable
  | some slot => return (← scopeIn slot).toTable

/-- Makes a class over the scope in a slot. -/
def create (slot name : String) (scope? : Option String) : SessionM Creation := do
  let table ← tableFor scope?
  putNew slot (·.create name table)

/-- Makes a class over the scope in a slot, with the ancestors in these slots. -/
def createWithAncestors (slot name : String) (scope? : Option String) (ancestors : List String) :
    SessionM Creation := do
  let table ← tableFor scope?
  let ancestors ← ancestors.mapM classIn
  putNew slot (·.createWithAncestors name table ancestors)

/-- The session in which each of these slots holds a new class of the given name, made in order. -/
def ofClasses (classes : List (String × String)) : Session :=
  classes.foldl (fun session (slot, name) =>
    session.place slot (session.store.create name BodyScope.empty.toTable)) {}

/-! ### Copies -/

/-- Puts a copy of a class in a slot. Gives what the texts of the copy show and the slots that now
hold a class of its block. -/
def copyClass (source slot : String) (mode : CopyMode) : SessionM MroEntry := do
  let c := (← classIn source).copy mode
  modify fun session => { session with classes := session.classes.insert slot c }
  let session ← get
  return ⟨session.store.classView c, session.slotsOf c.block⟩

/-- Empties a class slot. Gives whether there was a class in it. The store keeps the block. -/
def dropClass (slot : String) : SessionM Bool := do
  let held := (← get).classes.contains slot
  modify fun session => { session with classes := session.classes.erase slot }
  return held

/-! ### Changes -/

/-- Changes a class, and reports its block afterwards. -/
def alter (c : ClassRef) (change : Store → Outcome Unit) : SessionM Alteration := do
  let outcome := change (← get).store
  modify fun session => { session with store := outcome.store }
  return ⟨outcome.result, outcome.events, (← get).blockReport c.block⟩

/-- Replaces the resolution order of a class by the classes in these slots. -/
def replaceMro (slot : String) (mro : List String) : SessionM Alteration := do
  let c ← classIn slot
  let mro ← mro.mapM classIn
  alter c (·.replaceMro c.block mro)

/-- Appends the class in a slot to the resolution order of a class. -/
def extendMro (slot entry : String) : SessionM Alteration := do
  let c ← classIn slot
  let entry ← classIn entry
  alter c (·.extendMro c.block entry)

/-- Appends the type of an expression to the bases of a class. -/
def addBase (slot : String) (base : TypeExpr) : SessionM Alteration := do
  let c ← classIn slot
  let base ← typeOf base
  alter c (·.addBase c.block base)

/-- Freezes the block of the class in a slot. -/
def sealClass (slot : String) : SessionM Alteration := do
  let c ← classIn slot
  alter c (·.sealBlock c.block)

/-! ### Reading classes -/

/-- What the texts of the class in a slot show. -/
def classViewIn (slot : String) : SessionM ClassView := do
  let c ← classIn slot
  return (← get).store.classView c

/-- The symbol table of the class in a slot. -/
def tableOf (slot : String) : SessionM SymbolTable := do
  let c ← classIn slot
  return (← get).store.table c.block

/-- The debug tree of the block of the class in a slot. -/
def describeBlock (slot : String) : SessionM Debug.Node := do
  let c ← classIn slot
  return (← get).store.describe c.block

/-- The views of the bases of the class in a slot. -/
def basesOf (slot : String) : SessionM (List TypeView) := do
  let c ← classIn slot
  let store := (← get).store
  return (store.bases c.block).map store.view

/-- Whether the bases of the class in a slot are equal to the types of these expressions. -/
def basesEqual (slot : String) (es : List TypeExpr) : SessionM Bool := do
  let c ← classIn slot
  let types ← es.mapM typeOf
  return (← get).store.bases c.block == types

end Session

end TypeRegistry
