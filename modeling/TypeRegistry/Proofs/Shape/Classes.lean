import TypeRegistry.Shape.Basic

/-!
# The classes of a type

The classes that a type mentions at any depth: a type that is kept anywhere keeps each of them.

## Main statements

* `Shape.classes_function`, `Shape.classes_overloaded`, `Shape.classes_union`: the classes of a
  type are those of its parts, in reading order.
-/

namespace TypeRegistry

/-- The parts of a signature: the types of its parameters, then its return type. -/
def Signature.types {τ : Type} (s : Signature τ) : List τ :=
  s.parameters.map (·.type) ++ s.returns.toList

namespace Shape

variable {κ π : Type}

mutual

/-- The classes that a type mentions, in reading order and as often as they occur. -/
def classes : Shape κ π → List κ
  | unbound => []
  | unknown => []
  | never => []
  | any => []
  | typeVar => []
  | module _ => []
  | function s => signatureClasses s
  | overloaded ss => overloadClasses ss
  | union ts => memberClasses ts
  | nominal c => [c]

/-- The classes of a signature. -/
def signatureClasses : Signature (Shape κ π) → List κ
  | ⟨_, ps, none⟩ => parameterClasses ps
  | ⟨_, ps, some t⟩ => parameterClasses ps ++ classes t

/-- The classes that the types of parameters mention. -/
def parameterClasses : List (Parameter (Shape κ π)) → List κ
  | [] => []
  | ⟨_, _, t⟩ :: ps => classes t ++ parameterClasses ps

/-- The classes that the signatures of an overload set mention. -/
def overloadClasses : List (Signature (Shape κ π)) → List κ
  | [] => []
  | s :: ss => signatureClasses s ++ overloadClasses ss

/-- The classes that the members of a union mention. -/
def memberClasses : List (Shape κ π) → List κ
  | [] => []
  | t :: ts => classes t ++ memberClasses ts

end

theorem parameterClasses_eq_flatMap (ps : List (Parameter (Shape κ π))) :
    parameterClasses ps = (ps.map (·.type)).flatMap classes := by
  induction ps with
  | nil => rfl
  | cons p ps ih => simp [parameterClasses, ih]

theorem signatureClasses_eq_flatMap (s : Signature (Shape κ π)) :
    signatureClasses s = s.types.flatMap classes := by
  obtain ⟨name, ps, _ | t⟩ := s <;>
    simp [signatureClasses, Signature.types, parameterClasses_eq_flatMap]

theorem overloadClasses_eq_flatMap (ss : List (Signature (Shape κ π))) :
    overloadClasses ss = (ss.flatMap Signature.types).flatMap classes := by
  induction ss with
  | nil => rfl
  | cons s ss ih => simp [overloadClasses, signatureClasses_eq_flatMap, ih]

theorem memberClasses_eq_flatMap (ts : List (Shape κ π)) :
    memberClasses ts = ts.flatMap classes := by
  induction ts with
  | nil => rfl
  | cons t ts ih => simp [memberClasses, ih]

/-- The classes of a function are those of its parameters and its return type. -/
@[simp]
theorem classes_function (s : Signature (Shape κ π)) :
    (function s).classes = s.types.flatMap classes := by
  rw [classes, signatureClasses_eq_flatMap]

/-- The classes of an overload set are those of its signatures. -/
@[simp]
theorem classes_overloaded (ss : List (Signature (Shape κ π))) :
    (overloaded ss).classes = (ss.flatMap Signature.types).flatMap classes := by
  rw [classes, overloadClasses_eq_flatMap]

/-- The classes of a union are those of its members. -/
@[simp]
theorem classes_union (ts : List (Shape κ π)) : (union ts).classes = ts.flatMap classes := by
  rw [classes, memberClasses_eq_flatMap]

/-- A class mentions itself alone. -/
@[simp]
theorem classes_nominal (c : κ) : (nominal c : Shape κ π).classes = [c] := rfl

end Shape

end TypeRegistry
