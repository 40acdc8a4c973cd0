import TypeRegistry.Shape.Basic

/-!
# Replacing the classes and paths of a type

`Shape.map` replaces every class and every path by its image. `Shape.resolve` replaces every class
by a type that is looked up for it, and stops at the first class for which there is none.

## Main statements

* `Shape.map_function`, `Shape.map_overloaded`, `Shape.map_union`: the parts of a type are replaced.
-/

namespace TypeRegistry.Shape

variable {κ π κ₁ π₁ κ₂ π₂ ε : Type}

mutual

/-- The type with each class replaced by its image under `f` and each path by its image under `g`.
-/
def map (f : κ → κ₁) (g : π → π₁) : Shape κ π → Shape κ₁ π₁
  | unbound => unbound
  | unknown => unknown
  | never => never
  | any => any
  | typeVar => typeVar
  | module m => module (m.map g)
  | function s => function (mapSignature f g s)
  | overloaded ss => overloaded (mapSignatures f g ss)
  | union ts => union (mapMembers f g ts)
  | nominal c => nominal (f c)

/-- The signature with its types replaced. -/
def mapSignature (f : κ → κ₁) (g : π → π₁) : Signature (Shape κ π) → Signature (Shape κ₁ π₁)
  | ⟨name, ps, none⟩ => ⟨name, mapParameters f g ps, none⟩
  | ⟨name, ps, some t⟩ => ⟨name, mapParameters f g ps, some (map f g t)⟩

/-- The parameters with their types replaced. -/
def mapParameters (f : κ → κ₁) (g : π → π₁) :
    List (Parameter (Shape κ π)) → List (Parameter (Shape κ₁ π₁))
  | [] => []
  | ⟨name, mode, t⟩ :: ps => ⟨name, mode, map f g t⟩ :: mapParameters f g ps

/-- The signatures of an overload set with their types replaced. -/
def mapSignatures (f : κ → κ₁) (g : π → π₁) :
    List (Signature (Shape κ π)) → List (Signature (Shape κ₁ π₁))
  | [] => []
  | s :: ss => mapSignature f g s :: mapSignatures f g ss

/-- The members of a union replaced. -/
def mapMembers (f : κ → κ₁) (g : π → π₁) : List (Shape κ π) → List (Shape κ₁ π₁)
  | [] => []
  | t :: ts => map f g t :: mapMembers f g ts

end

/-! ### The replacement through the maps of lists and signatures -/

theorem mapParameters_eq_map (f : κ → κ₁) (g : π → π₁) (ps : List (Parameter (Shape κ π))) :
    mapParameters f g ps = ps.map (Parameter.map (map f g)) := by
  induction ps with
  | nil => rfl
  | cons p ps ih => simp [mapParameters, Parameter.map, ih]

theorem mapSignature_eq_map (f : κ → κ₁) (g : π → π₁) (s : Signature (Shape κ π)) :
    mapSignature f g s = s.map (map f g) := by
  obtain ⟨name, ps, _ | t⟩ := s <;> simp [mapSignature, Signature.map, mapParameters_eq_map]

theorem mapSignatures_eq_map (f : κ → κ₁) (g : π → π₁) (ss : List (Signature (Shape κ π))) :
    mapSignatures f g ss = ss.map (Signature.map (map f g)) := by
  induction ss with
  | nil => rfl
  | cons s ss ih => simp [mapSignatures, mapSignature_eq_map, ih]

theorem mapMembers_eq_map (f : κ → κ₁) (g : π → π₁) (ts : List (Shape κ π)) :
    mapMembers f g ts = ts.map (map f g) := by
  induction ts with
  | nil => rfl
  | cons t ts ih => simp [mapMembers, ih]

@[simp]
theorem map_module (f : κ → κ₁) (g : π → π₁) (m : Module π) :
    (module m : Shape κ π).map f g = module (m.map g) := rfl

@[simp]
theorem map_function (f : κ → κ₁) (g : π → π₁) (s : Signature (Shape κ π)) :
    (function s).map f g = function (s.map (map f g)) := by
  rw [map, mapSignature_eq_map]

@[simp]
theorem map_overloaded (f : κ → κ₁) (g : π → π₁) (ss : List (Signature (Shape κ π))) :
    (overloaded ss).map f g = overloaded (ss.map (Signature.map (map f g))) := by
  rw [map, mapSignatures_eq_map]

@[simp]
theorem map_union (f : κ → κ₁) (g : π → π₁) (ts : List (Shape κ π)) :
    (union ts).map f g = union (ts.map (map f g)) := by
  rw [map, mapMembers_eq_map]

@[simp]
theorem map_nominal (f : κ → κ₁) (g : π → π₁) (c : κ) :
    (nominal c : Shape κ π).map f g = nominal (f c) := rfl

/-! ### Looking classes up -/

mutual

/-- The type with each class replaced by the type that `look` gives for it. The first class, in
reading order, for which there is none decides the error: parameters are read before the return
type. -/
def resolve (look : κ → Except ε (Shape κ₁ π)) : Shape κ π → Except ε (Shape κ₁ π)
  | unbound => .ok unbound
  | unknown => .ok unknown
  | never => .ok never
  | any => .ok any
  | typeVar => .ok typeVar
  | module m => .ok (module m)
  | function s => do return function (← resolveSignature look s)
  | overloaded ss => do return overloaded (← resolveSignatures look ss)
  | union ts => do return union (← resolveMembers look ts)
  | nominal c => look c

/-- The signature with its types looked up, the parameters first. -/
def resolveSignature (look : κ → Except ε (Shape κ₁ π)) :
    Signature (Shape κ π) → Except ε (Signature (Shape κ₁ π))
  | ⟨name, ps, none⟩ => do return ⟨name, ← resolveParameters look ps, none⟩
  | ⟨name, ps, some t⟩ => do
    let parameters ← resolveParameters look ps
    return ⟨name, parameters, some (← resolve look t)⟩

/-- The parameters with their types looked up, in their order. -/
def resolveParameters (look : κ → Except ε (Shape κ₁ π)) :
    List (Parameter (Shape κ π)) → Except ε (List (Parameter (Shape κ₁ π)))
  | [] => .ok []
  | ⟨name, mode, t⟩ :: ps => do
    let type ← resolve look t
    return ⟨name, mode, type⟩ :: (← resolveParameters look ps)

/-- The signatures with their types looked up, in their order. -/
def resolveSignatures (look : κ → Except ε (Shape κ₁ π)) :
    List (Signature (Shape κ π)) → Except ε (List (Signature (Shape κ₁ π)))
  | [] => .ok []
  | s :: ss => do
    let signature ← resolveSignature look s
    return signature :: (← resolveSignatures look ss)

/-- The members looked up, in their order. -/
def resolveMembers (look : κ → Except ε (Shape κ₁ π)) :
    List (Shape κ π) → Except ε (List (Shape κ₁ π))
  | [] => .ok []
  | t :: ts => do
    let member ← resolve look t
    return member :: (← resolveMembers look ts)

end

end TypeRegistry.Shape
