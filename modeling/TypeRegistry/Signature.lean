/-!
# Function signatures

A signature is an optional name, the parameters in the order of their declaration, and an optional
return type. What the types are is left open, so one signature serves for types that hold class
references, for types that hold class names, and for rendered types.

## Main definitions

* `Parameter`, `Signature`: the data.
* `Signature.Edit`: a step of building a signature, and `Signature.build` for a run of steps.
* `Signature.parameterNamed?`: the first parameter of a given name.
-/

namespace TypeRegistry

/-- How an argument reaches a parameter. -/
inductive PassingMode where
  /-- By position only. -/
  | positionalOnly
  /-- By position or by keyword. -/
  | positional
  /-- By keyword only. -/
  | keywordOnly
  /-- Takes the positional arguments that are left over. -/
  | restPositional
  /-- Takes the keyword arguments that are left over. -/
  | restKeyword
deriving DecidableEq, Repr

namespace PassingMode

/-- The name of a passing mode in debug text. -/
def name : PassingMode → String
  | positionalOnly => "PositionalOnly"
  | positional => "Positional"
  | keywordOnly => "KeywordOnly"
  | restPositional => "VarPositional"
  | restKeyword => "VarKeyword"

/-- Whether a parameter of this mode takes any number of arguments. -/
def isVariadic : PassingMode → Bool
  | restPositional | restKeyword => true
  | positionalOnly | positional | keywordOnly => false

end PassingMode

/-- A declared parameter. -/
structure Parameter (τ : Type) where
  name : String
  /-- How an argument reaches it. -/
  mode : PassingMode := .positional
  type : τ
deriving DecidableEq, Repr

/-- A function signature. -/
structure Signature (τ : Type) where
  /-- The name of the function; an anonymous function has none. -/
  name : Option String := none
  /-- The parameters, in the order of their declaration. -/
  parameters : List (Parameter τ) := []
  /-- The return type, if one is known. -/
  returns : Option τ := none
deriving DecidableEq, Repr

variable {τ σ : Type}

/-- The parameter with its type replaced by its image. -/
def Parameter.map (f : τ → σ) (p : Parameter τ) : Parameter σ where
  name := p.name
  mode := p.mode
  type := f p.type

namespace Signature

/-- The signature with every type replaced by its image. -/
def map (f : τ → σ) (s : Signature τ) : Signature σ where
  name := s.name
  parameters := s.parameters.map (Parameter.map f)
  returns := s.returns.map f

/-- The signature without a name, parameters or a return type. -/
def anonymous : Signature τ := {}

/-- The signature that has a name and nothing else. -/
def named (name : String) : Signature τ :=
  { name := some name }

/-- The number of parameters, variadic ones included. -/
def arity (s : Signature τ) : Nat :=
  s.parameters.length

/-- The first parameter called `name`. -/
def parameterNamed? (s : Signature τ) (name : String) : Option (Parameter τ) :=
  s.parameters.find? (·.name = name)

/-- A step of building a signature. -/
inductive Edit (τ : Type) where
  /-- Puts these parameters in place of the present ones. -/
  | setParameters (parameters : List (Parameter τ))
  /-- Appends a parameter. -/
  | addParameter (parameter : Parameter τ)
  /-- Puts this return type in place of the present one. -/
  | setReturns (type : τ)

/-- The signature after a step. Parameters and return type do not touch each other. -/
def apply (s : Signature τ) : Edit τ → Signature τ
  | .setParameters parameters => { s with parameters }
  | .addParameter parameter => { s with parameters := s.parameters ++ [parameter] }
  | .setReturns type => { s with returns := some type }

/-- The signature after a run of steps. -/
def build (s : Signature τ) (edits : List (Edit τ)) : Signature τ :=
  edits.foldl apply s

end Signature

end TypeRegistry
