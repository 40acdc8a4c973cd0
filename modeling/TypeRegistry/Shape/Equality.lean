import TypeRegistry.Shape.Basic

/-!
# Equality of types

Two types are equal for `==` when they have the same kind and equal parts, one by one and in order.
Classes and paths are compared by the equality of their own types, so a shape inherits it.
-/

namespace TypeRegistry.Shape

variable {κ π : Type} [BEq κ] [BEq π]

mutual

/-- Whether two types have the same kind and equal parts. -/
def beq : Shape κ π → Shape κ π → Bool
  | unbound, unbound => true
  | unknown, unknown => true
  | never, never => true
  | any, any => true
  | typeVar, typeVar => true
  | module m, module n => m == n
  | function s, function r => beqSignature s r
  | overloaded ss, overloaded rs => beqSignatures ss rs
  | union ts, union us => beqMembers ts us
  | nominal c, nominal d => c == d
  | _, _ => false
termination_by structural t => t

/-- Whether two signatures have equal names, parameters and return types. -/
def beqSignature : Signature (Shape κ π) → Signature (Shape κ π) → Bool
  | ⟨name, ps, t⟩, ⟨name', qs, u⟩ => name == name' && beqParameters ps qs && beqReturns t u
termination_by structural t => t

/-- Whether two return types are equal or both absent. -/
def beqReturns : Option (Shape κ π) → Option (Shape κ π) → Bool
  | none, none => true
  | some t, some u => beq t u
  | _, _ => false
termination_by structural t => t

/-- Parameters are equal one by one, and there are as many. -/
def beqParameters : List (Parameter (Shape κ π)) → List (Parameter (Shape κ π)) → Bool
  | [], [] => true
  | ⟨name, mode, t⟩ :: ps, ⟨name', mode', u⟩ :: qs =>
    name == name' && mode == mode' && beq t u && beqParameters ps qs
  | _, _ => false
termination_by structural t => t

/-- Signatures are equal one by one, and there are as many. -/
def beqSignatures : List (Signature (Shape κ π)) → List (Signature (Shape κ π)) → Bool
  | [], [] => true
  | s :: ss, r :: rs => beqSignature s r && beqSignatures ss rs
  | _, _ => false
termination_by structural t => t

/-- Whether two lists hold equal types, one by one. -/
def beqMembers : List (Shape κ π) → List (Shape κ π) → Bool
  | [], [] => true
  | t :: ts, u :: us => beq t u && beqMembers ts us
  | _, _ => false
termination_by structural t => t

end

/-- Types are compared part by part. -/
instance : BEq (Shape κ π) where
  beq := beq

end TypeRegistry.Shape
