import TypeRegistry.Debug.Node
import TypeRegistry.Scope.Basic

/-!
# Errors of class metadata

The four ways in which making or changing a class can be refused. No other operation on types fails.
-/

namespace TypeRegistry

/-- Why a class was not made or not changed. Each error carries the name of the class. -/
inductive ClassError where
  /-- The scope offered as a class body lacks a map. -/
  | incompleteScope (className : String) (part : ScopePart)
  /-- The class is sealed. -/
  | frozen (className : String)
  /-- The offered resolution order starts with another class, called `found`. -/
  | foreignHead (className found : String)
  /-- The class is offered as its own ancestor. -/
  | ownAncestor (className : String)
deriving DecidableEq, Repr

namespace ClassError

/-- The name of the kind of an error. -/
def kindName : ClassError → String
  | incompleteScope .. => "MissingScopeCapability"
  | frozen .. => "SealedClass"
  | foreignHead .. => "MroOrder"
  | ownAncestor .. => "MroCycle"

/-- The name of the class that an error is about: the one that was not changed, or not made. -/
def className : ClassError → String
  | incompleteScope className _ => className
  | frozen className => className
  | foreignHead className _ => className
  | ownAncestor className => className

/-- The message of an error. What stood in the way is named where it can be one of several things.
-/
def message : ClassError → String
  | incompleteScope className part =>
    "scope for class `" ++ className ++ "` does not provide " ++ part.render
  | frozen className =>
    "class `" ++ className ++ "` is sealed and can no longer be modified"
  | foreignHead className found =>
    "MRO of class `" ++ className ++ "` must start with the class itself, found `" ++ found ++ "`"
  | ownAncestor className =>
    "class `" ++ className ++ "` appears among its own ancestors"

/-- The fields of an error beside the class name. -/
def details : ClassError → List (String × Debug.Node)
  | incompleteScope _ part => [("capability", .word part.name)]
  | frozen _ => []
  | foreignHead _ found => [("found", .text found)]
  | ownAncestor _ => []

/-- The debug tree of an error. -/
def describe (e : ClassError) : Debug.Node :=
  .record e.kindName (("class_name", .text e.className) :: e.details) false

end ClassError

end TypeRegistry
