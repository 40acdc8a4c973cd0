import TypeRegistry.Class.Reference
import TypeRegistry.Shape.Equality
import TypeRegistry.Shape.Map

/-!
# Types

A type refers to classes by their blocks. Its texts show names instead, so they are texts of its
view, in which every class reference is replaced by the name and flavor it has. Names never
change, and so neither does the view of a type.
-/

namespace TypeRegistry

/-- A type. -/
abbrev Ty := Shape ClassRef SourcePath

/-- A type as its texts show it. -/
abbrev TypeView := Shape ClassView SourcePath

end TypeRegistry
