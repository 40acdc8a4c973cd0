import TypeRegistry.Scope.Basic

/-!
# Body scopes

The scope of a class body, filled by one declaration after another. Declaring a name again rebinds
it and keeps the older declarations as overloads.
-/

namespace TypeRegistry

/-- The declarations of a class body. -/
structure BodyScope where
  /-- The latest declaration of each name. -/
  names : NameMap := ∅
  /-- All declarations of each name, oldest first. -/
  overloads : OverloadMap := ∅

namespace BodyScope

/-- The scope without declarations. -/
def empty : BodyScope := {}

/-- Declares `name`. Gives the declaration that bound the name before and the new scope. -/
def declare (scope : BodyScope) (name : String) (d : Declaration) :
    Option Declaration × BodyScope :=
  (scope.names[name]?,
    { names := scope.names.insert name d
      overloads := scope.overloads.insert name (scope.overloads.getD name [] ++ [d]) })

/-- The number of names that are declared, however often. -/
def size (scope : BodyScope) : Nat :=
  scope.names.size

/-- Whether nothing is declared. -/
def isEmpty (scope : BodyScope) : Bool :=
  scope.names.isEmpty

/-- The lookup surface of the scope as it is now. It lacks nothing. -/
def toTable (scope : BodyScope) : SymbolTable where
  names := some scope.names
  overloads := some scope.overloads

end BodyScope

end TypeRegistry
