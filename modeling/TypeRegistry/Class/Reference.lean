/-!
# Class references

A class reference points at the block of a class body and says whether it stands for the class
itself or for a value of the class. The class object, its instances and every copy of them point
at the same block, and the block is what makes two references the same class; names play no part
in it.

## Main definitions

* `ClassRef`: a block and a flavor.
* `ClassView`: the name and the flavor, which is all that the texts of a class type show.
-/

namespace TypeRegistry

/-- The block of a class body, by the order of creation. -/
structure ClassId where
  /-- How many blocks were created before this one. -/
  index : Nat
deriving DecidableEq, Repr

/-- What a class type stands for. -/
inductive Flavor where
  /-- The class itself, which can be called to make a value. -/
  | instantiable
  /-- A value of the class. -/
  | instantiated
deriving DecidableEq, Repr

/-- The name of a flavor in debug text. -/
def Flavor.name : Flavor → String
  | instantiable => "Instantiable"
  | instantiated => "Instance"

/-- A class type: a class body and what is meant of it. -/
structure ClassRef where
  /-- The block of the class body. -/
  block : ClassId
  /-- Whether the class or a value of it is meant. -/
  flavor : Flavor
deriving DecidableEq, Repr

namespace ClassRef

/-- The class object of a block. -/
def ofBlock (block : ClassId) : ClassRef :=
  ⟨block, .instantiable⟩

/-- The type of the values of the class. -/
def toInstance (c : ClassRef) : ClassRef :=
  { c with flavor := .instantiated }

/-- The type of the class itself. -/
def toInstantiable (c : ClassRef) : ClassRef :=
  { c with flavor := .instantiable }

/-- Whether both references point at the same class body, whatever their flavors. -/
def isSameClass (c d : ClassRef) : Bool :=
  c.block = d.block

end ClassRef

/-- What the texts of a class type show. -/
structure ClassView where
  /-- The name of the class. -/
  name : String
  /-- Whether the class or a value of it is meant. -/
  flavor : Flavor
deriving DecidableEq, Repr

namespace ClassView

/-- Whether the class itself is meant. -/
def isInstantiable (c : ClassView) : Bool :=
  c.flavor = .instantiable

/-- Whether a value of the class is meant. -/
def isInstance (c : ClassView) : Bool :=
  c.flavor = .instantiated

/-- Whether the class is declared under `name`. -/
def isNamed (c : ClassView) (name : String) : Bool :=
  c.name = name

/-- The canonical text of a class type. The flavor does not show. -/
def render (c : ClassView) : String :=
  "<class " ++ c.name ++ ">"

end ClassView

end TypeRegistry
