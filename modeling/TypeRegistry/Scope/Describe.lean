import TypeRegistry.Debug.Node
import TypeRegistry.Scope.BodyScope

/-!
# The debug tree of a body scope

Both maps show in full, ordered by name.
-/

namespace TypeRegistry

open Debug

/-- The debug tree of a declaration. -/
def Declaration.describe (d : Declaration) : Node :=
  .variant "DeclId" (.number d.number.toNat)

/-- The debug tree of a body scope. -/
def BodyScope.describe (scope : BodyScope) : Node :=
  .record "MemberScope"
    [("names", .table (scope.names.toList.map fun (name, d) => (.text name, d.describe))),
      ("overloads", .table (scope.overloads.toList.map fun (name, ds) =>
        (.text name, .list (ds.map Declaration.describe))))]
    false

end TypeRegistry
