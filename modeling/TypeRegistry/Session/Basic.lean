import TypeRegistry.Class.Change
import TypeRegistry.Scope.BodyScope

/-!
# Sessions

A session names what it works with: it keeps classes, scopes and types in slots, each kind in
slots of its own, over one store. A step that reads a slot in which there is nothing fails with
the name of the slot and changes nothing; of several such slots the first in reading order is
named.

## Main definitions

* `Session`: a store and the three families of slots.
* `SessionM`: a step of a session.
* `Session.typeOf`: the type that an expression over slots stands for.
-/

namespace TypeRegistry

/-- What a slot for scopes holds. -/
inductive HeldScope where
  /-- A scope that takes declarations. -/
  | body (scope : BodyScope)
  /-- A symbol table that stays as it is. -/
  | fixed (table : SymbolTable)

/-- The lookup surface of a scope. -/
def HeldScope.toTable : HeldScope → SymbolTable
  | body scope => scope.toTable
  | fixed table => table

/-- A store with named classes, scopes and types. -/
structure Session where
  store : Store := .empty
  classes : Std.TreeMap String ClassRef := ∅
  scopes : Std.TreeMap String HeldScope := ∅
  types : Std.TreeMap String Ty := ∅

/-- A slot that was read and holds nothing. -/
structure EmptySlot where
  name : String
deriving DecidableEq, Repr

/-- A step of a session. A step that fails leaves the session as it was. -/
abbrev SessionM := StateT Session (Except EmptySlot)

/-- A mention of a slot inside a type expression. -/
inductive SlotRef where
  /-- The class in a slot, with the flavor it has there. -/
  | ofClass (slot : String)
  /-- The instances of the class in a slot. -/
  | ofInstance (slot : String)
  /-- The type in a slot. -/
  | ofType (slot : String)
deriving DecidableEq, Repr

/-- A type that mentions slots where a type has classes. -/
abbrev TypeExpr := Shape SlotRef SourcePath

namespace Session

/-- What a slot holds, or the report that it is empty. -/
def require {α : Type} (slot : String) : Option α → Except EmptySlot α
  | some content => .ok content
  | none => .error ⟨slot⟩

/-- The type that a mention of a slot stands for. -/
def look (session : Session) : SlotRef → Except EmptySlot Ty
  | .ofClass slot => do
    return .nominal (← require slot session.classes[slot]?)
  | .ofInstance slot => do
    return .nominal (← require slot session.classes[slot]?).toInstance
  | .ofType slot => require slot session.types[slot]?

/-- The slots that now hold a class of the block, in the order of their names. -/
def slotsOf (session : Session) (id : ClassId) : List String :=
  (session.classes.toList.filter fun (_, c) => c.block = id).map Prod.fst

/-! ### Reading slots -/

/-- The class in a slot. -/
def classIn (slot : String) : SessionM ClassRef := do
  require slot (← get).classes[slot]?

/-- The scope in a slot. -/
def scopeIn (slot : String) : SessionM HeldScope := do
  require slot (← get).scopes[slot]?

/-- The type that an expression stands for. -/
def typeOf (e : TypeExpr) : SessionM Ty := do
  e.resolve (← get).look

/-- What the texts of the type of an expression show. -/
def viewOf (e : TypeExpr) : SessionM TypeView := do
  let t ← typeOf e
  return (← get).store.view t

/-! ### Types -/

/-- Stores the type of an expression in a slot. -/
def letType (slot : String) (e : TypeExpr) : SessionM TypeView := do
  let t ← typeOf e
  modify fun session => { session with types := session.types.insert slot t }
  return (← get).store.view t

/-- A way to put one type inside another. -/
inductive Wrapper where
  /-- As the only member of a union. -/
  | union
  /-- As the return type of an anonymous function without parameters. -/
  | returns
  /-- As the type of the only parameter of an anonymous function. -/
  | parameter
deriving DecidableEq, Repr

/-- The type around `t`. -/
def Wrapper.wrap (w : Wrapper) (t : Ty) : Ty :=
  match w with
  | union => .union [t]
  | returns => .function { returns := some t }
  | parameter => .function { parameters := [{ name := "p", type := t }] }

/-- Stores the type of an expression, wrapped so many times, in a slot. -/
def nestType (slot : String) (e : TypeExpr) (w : Wrapper) (times : Nat) : SessionM Unit := do
  let t ← typeOf e
  let nested := Nat.repeat w.wrap times t
  modify fun session => { session with types := session.types.insert slot nested }

/-! ### Scopes -/

/-- Puts a scope in a slot, in the place of the one that was there. -/
def putScope (slot : String) (scope : HeldScope) : SessionM Unit :=
  modify fun session => { session with scopes := session.scopes.insert slot scope }

/-- Puts a copy of a scope in a slot. Later declarations in one do not show in the other. -/
def copyScope (source slot : String) : SessionM Unit := do
  putScope slot (← scopeIn source)

/-- Declares a name in the scope of a slot. Gives the declaration that bound the name before and the
scope afterwards. A slot with a fixed table counts as empty, for a table takes no declarations. -/
def declare (slot name : String) (d : Declaration) :
    SessionM (Option Declaration × BodyScope) := do
  match ← scopeIn slot with
  | .fixed _ => throw ⟨slot⟩
  | .body scope =>
    let (previous, scope) := scope.declare name d
    putScope slot (.body scope)
    return (previous, scope)

end Session

end TypeRegistry
