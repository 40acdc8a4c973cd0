import Std.Data.TreeMap

/-!
# Symbol tables

A class body is looked up through a symbol table of two maps: one from a name to the declaration
that binds it now, one from a name to all its declarations. A scope may lack either map, and a
class needs both, so a table knows which one it lacks first.

## Main definitions

* `SymbolTable`: the two optional maps.
* `SymbolTable.missingPart?`: the first map that is lacking.
* `SymbolTable.lookup?`, `SymbolTable.overloadsOf`: the two ways to look a name up.
-/

namespace TypeRegistry

/-- A declaration, known by its number. -/
structure Declaration where
  number : UInt32
deriving DecidableEq, Repr

/-- From each name to the declaration that binds it. -/
abbrev NameMap := Std.TreeMap String Declaration

/-- From each name to all its declarations, oldest first. -/
abbrev OverloadMap := Std.TreeMap String (List Declaration)

/-- A map that a scope can provide: a part of what looking names up needs. -/
inductive ScopePart where
  /-- The map from names to declarations. -/
  | names
  /-- The map from names to all their declarations. -/
  | overloads
deriving DecidableEq, Repr

namespace ScopePart

/-- The bare name of a part. -/
def name : ScopePart → String
  | names => "NamesInScope"
  | overloads => "NamesInScopeOverload"

/-- The text of a part in a message. -/
def render : ScopePart → String
  | names => "`names_in_scope`"
  | overloads => "`names_in_scope_overload`"

end ScopePart

/-- The lookup surface of a scope, either part of which may be lacking. -/
structure SymbolTable where
  /-- The declaration that binds each name, if the scope provides it. -/
  names : Option NameMap := none
  /-- All declarations of each name, if the scope provides them. -/
  overloads : Option OverloadMap := none

namespace SymbolTable

/-- The first part that the table lacks, or `none` if it is complete. -/
def missingPart? (t : SymbolTable) : Option ScopePart :=
  match t.names, t.overloads with
  | none, _ => some .names
  | some _, none => some .overloads
  | some _, some _ => none

/-- The declaration that binds `name`. -/
def lookup? (t : SymbolTable) (name : String) : Option Declaration :=
  t.names.bind (·[name]?)

/-- All declarations of `name`, oldest first; none if the name or the map is absent. -/
def overloadsOf (t : SymbolTable) (name : String) : List Declaration :=
  (t.overloads.bind (·[name]?)).getD []

end SymbolTable

end TypeRegistry
