import TypeRegistry.Proofs.Shape.Induction
import TypeRegistry.Ty

/-!
# What a type is compared by

A type with its classes and paths replaced depends on the images of the classes it mentions alone.
And where classes and paths are compared by their images, so are types: two types are equal when
they are the same type after the replacement.

## Main definitions and statements

* `Shape.map_congr`: a type is replaced alike by replacements that agree on its classes.
* `Shape.ComparedBy`: equality with a type is equality after a replacement.
* `Shape.beq_iff_map_eq`: types are compared as their classes and paths are.
* `Ty.form`, `Ty.beq_iff_form_eq`: what equality sees of a type.
-/

namespace TypeRegistry

/-- A signature is replaced alike by replacements that agree on its types. -/
theorem Signature.map_congr {τ σ : Type} {f f' : τ → σ} {s : Signature τ}
    (h : ∀ t ∈ s.types, f t = f' t) : s.map f = s.map f' := by
  obtain ⟨name, parameters, returns⟩ := s
  simp only [Signature.mem_types] at h
  rw [map, map, mk.injEq]
  refine ⟨rfl, List.map_congr_left fun p hp => ?_, Option.map_congr fun t ht => ?_⟩
  · rw [Parameter.map, Parameter.map, h p.type (.inl ⟨p, hp, rfl⟩)]
  · exact h t (.inr ht)

namespace Shape

variable {κ π κ₁ π₁ : Type}

/-- A type is replaced alike by replacements that agree on its classes. -/
theorem map_congr {f f' : κ → κ₁} (g : π → π₁) {t : Shape κ π}
    (h : ∀ c ∈ t.classes, f c = f' c) : t.map f g = t.map f' g := by
  -- A class of a part is a class of the whole.
  induction t using Shape.induction with
  | unbound | unknown | never | any | typeVar | module => rfl
  | function s ih =>
      rw [classes_function] at h
      rw [map_function, map_function, Signature.map_congr]
      intro t ht
      exact ih t ht fun c hc => h c (List.mem_flatMap.2 ⟨t, ht, hc⟩)
  | overloaded ss ih =>
      rw [classes_overloaded] at h
      rw [map_overloaded, map_overloaded, List.map_congr_left]
      intro s hs
      refine Signature.map_congr fun t ht => ih s hs t ht fun c hc => h c ?_
      exact List.mem_flatMap.2 ⟨t, List.mem_flatMap.2 ⟨s, hs, ht⟩, hc⟩
  | union ts ih =>
      rw [classes_union] at h
      rw [map_union, map_union, List.map_congr_left]
      intro t ht
      exact ih t ht fun c hc => h c (List.mem_flatMap.2 ⟨t, ht, hc⟩)
  | nominal c =>
      rw [classes_nominal] at h
      rw [map_nominal, map_nominal, h c List.mem_cons_self]

/-! ### Equality -/

variable [BEq κ] [BEq π] {f : κ → κ₁} {g : π → π₁}

/-- Equality with the type `t` is equality of the replaced types. -/
def ComparedBy (f : κ → κ₁) (g : π → π₁) (t : Shape κ π) : Prop :=
  ∀ u, beq t u = true ↔ t.map f g = u.map f g

/-- Parameters are equal when their replacements are, if this holds of their types. -/
theorem beqParameters_iff {ps : List (Parameter (Shape κ π))}
    (hps : ∀ p ∈ ps, ComparedBy f g p.type) (qs : List (Parameter (Shape κ π))) :
    beqParameters ps qs = true ↔
      ps.map (Parameter.map (map f g)) = qs.map (Parameter.map (map f g)) := by
  -- Entry by entry, and lists of different lengths are not equal.
  induction ps generalizing qs with
  | nil => cases qs <;> simp [beqParameters]
  | cons p ps ih =>
      obtain ⟨hp, hrest⟩ := List.forall_mem_cons.1 hps
      cases qs with
      | nil => simp [beqParameters]
      | cons q qs => simp [beqParameters, Parameter.map, hp q.type, ih hrest qs, and_assoc]

/-- Optional return types are equal when their replacements are, if this holds of the types. -/
theorem beqReturns_iff {t : Option (Shape κ π)} (ht : ∀ u, t = some u → ComparedBy f g u)
    (u : Option (Shape κ π)) : beqReturns t u = true ↔ t.map (map f g) = u.map (map f g) := by
  cases t with
  | none => cases u <;> simp [beqReturns]
  | some t =>
      cases u with
      | none => simp [beqReturns]
      | some u => simp [beqReturns, ht t rfl u]

theorem beqSignature_iff {s : Signature (Shape κ π)} (hs : ∀ t ∈ s.types, ComparedBy f g t)
    (r : Signature (Shape κ π)) :
    beqSignature s r = true ↔ s.map (map f g) = r.map (map f g) := by
  obtain ⟨name, ps, t⟩ := s
  obtain ⟨name', qs, u⟩ := r
  simp only [Signature.mem_types] at hs
  have hparameters := beqParameters_iff (fun p hp => hs p.type (.inl ⟨p, hp, rfl⟩)) qs
  have hreturns := beqReturns_iff (fun u hu => hs u (.inr hu)) u
  simp [beqSignature, Signature.map, hparameters, hreturns, and_assoc]

theorem beqSignatures_iff {ss : List (Signature (Shape κ π))}
    (hss : ∀ s ∈ ss, ∀ t ∈ s.types, ComparedBy f g t) (rs : List (Signature (Shape κ π))) :
    beqSignatures ss rs = true ↔
      ss.map (Signature.map (map f g)) = rs.map (Signature.map (map f g)) := by
  induction ss generalizing rs with
  | nil => cases rs <;> simp [beqSignatures]
  | cons s ss ih =>
      obtain ⟨hs, hrest⟩ := List.forall_mem_cons.1 hss
      cases rs with
      | nil => simp [beqSignatures]
      | cons r rs => simp [beqSignatures, beqSignature_iff hs r, ih hrest rs]

theorem beqMembers_iff {ts : List (Shape κ π)} (hts : ∀ t ∈ ts, ComparedBy f g t)
    (us : List (Shape κ π)) :
    beqMembers ts us = true ↔ ts.map (map f g) = us.map (map f g) := by
  induction ts generalizing us with
  | nil => cases us <;> simp [beqMembers]
  | cons t ts ih =>
      obtain ⟨ht, hrest⟩ := List.forall_mem_cons.1 hts
      cases us with
      | nil => simp [beqMembers]
      | cons u us => simp [beqMembers, ht u, ih hrest us]

/-- Modules are compared as their paths are. -/
theorem beq_module_iff (hg : ∀ p q : π, (p == q) = true ↔ g p = g q) (m n : Module π) :
    (m == n) = true ↔ m.map g = n.map g := by
  obtain ⟨name, path⟩ := m
  obtain ⟨name', path'⟩ := n
  show (name == name' && path == path') = true ↔ _
  cases path <;> cases path' <;> simp [Module.map, hg]

/-- Where classes are compared by their images and paths by theirs, types are compared by what they
become when classes and paths are replaced: kinds, names, order and number of the parts all
count. -/
theorem beq_iff_map_eq (hf : ∀ c d : κ, (c == d) = true ↔ f c = f d)
    (hg : ∀ p q : π, (p == q) = true ↔ g p = g q) (t u : Shape κ π) :
    (t == u) = true ↔ t.map f g = u.map f g := by
  show beq t u = true ↔ t.map f g = u.map f g
  -- Types of different kinds are not equal, and a replacement keeps the kind.
  induction t using Shape.induction generalizing u with
  | unbound | unknown | never | any | typeVar => cases u <;> simp [beq, map]
  | module m =>
      cases u with
      | module n => simp [beq, beq_module_iff hg m n]
      | _ => simp [beq, map]
  | function s ih =>
      cases u with
      | function r => simp [beq, beqSignature_iff ih r]
      | _ => simp [beq, map]
  | overloaded ss ih =>
      cases u with
      | overloaded rs => simp [beq, beqSignatures_iff ih rs]
      | _ => simp [beq, map]
  | union ts ih =>
      cases u with
      | union us => simp [beq, beqMembers_iff ih us]
      | _ => simp [beq, map]
  | nominal c =>
      cases u with
      | nominal d => simp [beq, hf c d]
      | _ => simp [beq, map]

end Shape

namespace Ty

/-- A type as equality compares it: classes by block and flavor, paths by their components. -/
def form (t : Ty) : Shape ClassRef SourcePath.Components :=
  t.map id SourcePath.components

/-- Types are equal when they have the same form. -/
theorem beq_iff_form_eq (t u : Ty) : (t == u) = true ↔ t.form = u.form :=
  Shape.beq_iff_map_eq (fun _ _ => beq_iff_eq) (fun _ _ => decide_eq_true_iff) t u

end Ty

end TypeRegistry
