import TypeRegistry.Module
import TypeRegistry.Signature

/-!
# Type shapes

The ten kinds of type: five markers without parts, modules, functions, overload sets, unions and
classes. What stands for a class and what stands for a path is left open: with class references
and paths a shape is a type, with class names and flavors it is what the texts of the type show,
and with components for paths it is what equality compares.

Nothing is normalised. A union keeps its members as given, duplicates and inner unions included, and
an overload set keeps its signatures.
-/

namespace TypeRegistry

/-- The kind of a type. -/
inductive Kind where
  /-- A name without a type yet. -/
  | unbound
  /-- A type that could not be found. -/
  | unknown
  /-- The type without values. -/
  | never
  /-- The type of all values. -/
  | any
  | typeVar
  | module
  | function
  | overloaded
  | union
  | nominal
deriving DecidableEq, Repr

/-- The name of a kind in debug text. -/
def Kind.name : Kind → String
  | unbound => "Unbound"
  | unknown => "Unknown"
  | never => "Never"
  | any => "Any"
  | typeVar => "TypeVar"
  | module => "Module"
  | function => "Function"
  | overloaded => "Overloaded"
  | union => "Union"
  | nominal => "Class"

/-- A type, with `κ` for its classes and `π` for the paths of its modules. -/
inductive Shape (κ π : Type) where
  /-- A name without a type yet. -/
  | unbound
  /-- A type that could not be found. -/
  | unknown
  /-- The type without values. -/
  | never
  /-- The type of all values. -/
  | any
  /-- A type parameter. -/
  | typeVar
  /-- A module. -/
  | module (m : Module π)
  /-- A function with this signature. -/
  | function (signature : Signature (Shape κ π))
  /-- A callable with any of these signatures, in the order of their declaration. -/
  | overloaded (signatures : List (Signature (Shape κ π)))
  /-- A value of any of these types, in the order given. -/
  | union (members : List (Shape κ π))
  /-- A class. -/
  | nominal (c : κ)

namespace Shape

variable {κ π : Type}

/-- The kind of a type. -/
def kind : Shape κ π → Kind
  | unbound => .unbound
  | unknown => .unknown
  | never => .never
  | any => .any
  | typeVar => .typeVar
  | module _ => .module
  | function _ => .function
  | overloaded _ => .overloaded
  | union _ => .union
  | nominal _ => .nominal

/-- Whether the type is the marker for a name without a type yet. -/
def isUnbound (t : Shape κ π) : Bool :=
  t.kind = .unbound

/-- Whether the type is the marker for a type that could not be found. -/
def isUnknown (t : Shape κ π) : Bool :=
  t.kind = .unknown

/-- Whether the type is the one without values. -/
def isNever (t : Shape κ π) : Bool :=
  t.kind = .never

/-- Whether the type is the one of all values. -/
def isAny (t : Shape κ π) : Bool :=
  t.kind = .any

/-- The class of a class type. -/
def nominal? : Shape κ π → Option κ
  | nominal c => some c
  | _ => none

/-- The signature of a function type. -/
def signature? : Shape κ π → Option (Signature (Shape κ π))
  | function s => some s
  | _ => none

end Shape

end TypeRegistry
