import TypeRegistry.SourcePath

/-!
# Modules

A compiled unit, known by its name, by its source file, by both or by neither. Where both are known
the name speaks for it.
-/

namespace TypeRegistry

/-- A compiled unit. `π` is the type of its path. -/
structure Module (π : Type) where
  name : Option String := none
  /-- The path of its source file. -/
  path : Option π := none
deriving DecidableEq, Repr

namespace Module

variable {π ρ : Type}

/-- Modules are equal for `==` when their names are equal and their paths are equal for `==`. -/
instance [BEq π] : BEq (Module π) where
  beq m n := m.name == n.name && m.path == n.path

/-- The module without name and path. -/
def empty : Module π := {}

/-- The module that has a name and no path. -/
def named (name : String) : Module π :=
  { name := some name }

/-- The module that has a path and no name. -/
def ofPath (path : π) : Module π :=
  { path := some path }

/-- The module with another path and the same name. -/
def withPath (m : Module π) (path : π) : Module π :=
  { m with path := some path }

/-- The module with its path replaced by its image. -/
def map (g : π → ρ) (m : Module π) : Module ρ where
  name := m.name
  path := m.path.map g

/-- What a module is called: its name if it has one, else its path as text, if it has one. -/
def label? (m : Module SourcePath) : Option String :=
  m.name <|> m.path.map SourcePath.display

end Module

end TypeRegistry
