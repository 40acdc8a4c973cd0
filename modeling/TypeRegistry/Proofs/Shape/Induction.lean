import TypeRegistry.Proofs.Shape.Classes

/-!
# Induction on types

A type holds further types in the signatures of functions and overload sets and in the members of
unions. To prove something of every type it is enough to prove it of each kind from the types right
inside.

## Main statements

* `Shape.induction`: the induction principle, with one hypothesis for all types inside a part.
-/

namespace TypeRegistry

/-- The types of a signature are those of its parameters and its return type. -/
theorem Signature.mem_types {τ : Type} {s : Signature τ} {t : τ} :
    t ∈ s.types ↔ (∃ p ∈ s.parameters, p.type = t) ∨ s.returns = some t := by
  simp [types]

/-- The types of a replaced signature are the replaced types. -/
theorem Signature.types_map {τ σ : Type} (f : τ → σ) (s : Signature τ) :
    (s.map f).types = s.types.map f := by
  obtain ⟨name, ps, _ | t⟩ := s <;> simp [types, map, Parameter.map, Function.comp_def]

/-- What holds of the markers, of modules and of classes, and of any other type as soon as it holds
of the types right inside, holds of every type. -/
@[elab_as_elim]
theorem Shape.induction {κ π : Type} {motive : Shape κ π → Prop} (unbound : motive unbound)
    (unknown : motive unknown) (never : motive never) (any : motive any)
    (typeVar : motive typeVar) (module : ∀ m, motive (module m))
    (function : ∀ s : Signature (Shape κ π), (∀ t ∈ s.types, motive t) → motive (function s))
    (overloaded : ∀ ss : List (Signature (Shape κ π)),
      (∀ s ∈ ss, ∀ t ∈ s.types, motive t) → motive (overloaded ss))
    (union : ∀ ts : List (Shape κ π), (∀ t ∈ ts, motive t) → motive (union ts))
    (nominal : ∀ c, motive (nominal c)) (t : Shape κ π) : motive t := by
  -- Each part of a type inherits the claim about all types inside it.
  refine @Shape.rec κ π motive (fun s => ∀ t ∈ s.types, motive t)
    (fun ss => ∀ s ∈ ss, ∀ t ∈ s.types, motive t) (fun ts => ∀ t ∈ ts, motive t)
    (fun ps => ∀ p ∈ ps, motive p.type) (fun returns => ∀ t, returns = some t → motive t)
    (fun p => motive p.type) unbound unknown never any typeVar module function overloaded union
    nominal ?signature ?noSignature ?signatures ?noMember ?members ?noParameter ?parameters
    ?noReturn ?returns ?parameter t
  case signature =>
    intro name ps returns hps hreturns t ht
    rcases Signature.mem_types.1 ht with ⟨p, hp, rfl⟩ | hreturn
    · exact hps p hp
    · exact hreturns t hreturn
  case noSignature | noMember | noParameter => exact List.forall_mem_nil _
  case signatures | members | parameters =>
    intro head tail hhead htail
    exact List.forall_mem_cons.2 ⟨hhead, htail⟩
  case noReturn => exact nofun
  case returns =>
    rintro u hu t ⟨⟩
    exact hu
  case parameter => exact fun _ _ _ ht => ht

end TypeRegistry
