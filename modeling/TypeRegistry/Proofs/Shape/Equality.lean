import Mathlib.Data.List.Forall2
import TypeRegistry.Proofs.Class.Creation
import TypeRegistry.Proofs.Path.Components
import TypeRegistry.Proofs.Shape.Replacement

/-!
# Equality is equality of canonical forms

What two types are compared by can be written down for each of them alone. Its canonical form keeps
all of a type but two things: a class stands for its block and flavor, and a path for the list of
its components. Types are equal when these forms are the same, so equality is an equivalence, and a
type with parts is compared part by part, in order.

## Main definitions and statements

* `Signature.Alike`: two signatures agree but for their types, which are related one by one.
* `Ty.canonicalForm`, `Ty.beq_iff_canonicalForm_eq`: types are equal when their canonical forms are.
* `Ty.function_beq_iff`, `Ty.overloaded_beq_iff`, `Ty.union_beq_iff`: types with parts are compared
  part by part.
* `Heap.equality_canonical`: equality in a run, also of the classes that are made in it.
-/

namespace TypeRegistry

/-! ### Part by part -/

section Alike

variable {τ σ : Type} {R : τ → τ → Prop} {f : τ → σ}

/-- Two parameters agree but for their types, which are related. -/
structure Parameter.Alike (R : τ → τ → Prop) (p q : Parameter τ) : Prop where
  name : p.name = q.name
  mode : p.mode = q.mode
  type : R p.type q.type

/-- Two signatures agree but for their types, which are related one by one and in order. -/
structure Signature.Alike (R : τ → τ → Prop) (s r : Signature τ) : Prop where
  name : s.name = r.name
  parameters : s.parameters.Forall₂ (Parameter.Alike R) r.parameters
  returns : Option.Rel R s.returns r.returns

/-- Lists have the same images when their entries do, one by one. -/
theorem map_eq_map_iff_forall₂ (hR : ∀ t u, R t u ↔ f t = f u) (ts us : List τ) :
    ts.map f = us.map f ↔ ts.Forall₂ R us := by
  rw [← List.forall₂_eq_eq_eq, List.forall₂_map_left_iff, List.forall₂_map_right_iff]
  simp only [← hR]

/-- Parameters are alike when their images are equal, if types are so. -/
theorem Parameter.alike_iff_map_eq (hR : ∀ t u, R t u ↔ f t = f u) (p q : Parameter τ) :
    p.Alike R q ↔ p.map f = q.map f := by
  rw [Parameter.map, Parameter.map, Parameter.mk.injEq, ← hR]
  exact ⟨fun h => ⟨h.name, h.mode, h.type⟩, fun h => ⟨h.1, h.2.1, h.2.2⟩⟩

/-- Signatures have the same images when they agree but for their types, and these have the same
images. -/
theorem Signature.alike_iff_map_eq (hR : ∀ t u, R t u ↔ f t = f u) (s r : Signature τ) :
    s.Alike R r ↔ s.map f = r.map f := by
  have hreturns : Option.Rel R s.returns r.returns ↔ s.returns.map f = r.returns.map f := by
    cases s.returns <;> cases r.returns <;> simp [hR]
  rw [Signature.map, Signature.map, Signature.mk.injEq, ← hreturns,
    map_eq_map_iff_forall₂ (Parameter.alike_iff_map_eq hR)]
  exact ⟨fun h => ⟨h.name, h.parameters, h.returns⟩, fun h => ⟨h.1, h.2.1, h.2.2⟩⟩

end Alike

namespace Ty

/-- The canonical form of a type. Each class is replaced by its block and its flavor, and each path
by its component list; all the rest is kept. -/
def canonicalForm (t : Ty) : Shape (ClassId × Flavor) (List Component) :=
  t.map (fun c => (c.block, c.flavor)) SourcePath.componentList

/-- Types are equal when they have the same canonical form. -/
theorem beq_iff_canonicalForm_eq (t u : Ty) :
    (t == u) = true ↔ t.canonicalForm = u.canonicalForm := by
  refine Shape.beq_iff_map_eq ?_ SourcePath.beq_iff t u
  rintro ⟨block, flavor⟩ ⟨block', flavor'⟩
  rw [beq_iff_eq, ClassRef.mk.injEq, Prod.mk.injEq]

/-- Equality is an equivalence, for it is the equality of canonical forms. -/
theorem beq_equivalence : Equivalence fun t u : Ty => (t == u) = true where
  refl t := (beq_iff_canonicalForm_eq t t).2 rfl
  symm htu := (beq_iff_canonicalForm_eq _ _).2 ((beq_iff_canonicalForm_eq _ _).1 htu).symm
  trans htu huv := (beq_iff_canonicalForm_eq _ _).2
    (((beq_iff_canonicalForm_eq _ _).1 htu).trans ((beq_iff_canonicalForm_eq _ _).1 huv))

/-- Functions are equal when their signatures agree and the types in these are equal. -/
theorem function_beq_iff (s r : Signature Ty) :
    (Shape.function s == Shape.function r) = true ↔ s.Alike (fun t u => (t == u) = true) r := by
  -- Both sides are put in canonical forms, and that of the whole holds those of the parts.
  rw [beq_iff_canonicalForm_eq, Signature.alike_iff_map_eq beq_iff_canonicalForm_eq,
    canonicalForm, canonicalForm, Shape.map_function, Shape.map_function, Shape.function.injEq]
  rfl

/-- Overload sets are equal when their signatures are, one by one and in order. -/
theorem overloaded_beq_iff (ss rs : List (Signature Ty)) :
    (Shape.overloaded ss == Shape.overloaded rs) = true ↔
      ss.Forall₂ (Signature.Alike fun t u => (t == u) = true) rs := by
  rw [beq_iff_canonicalForm_eq,
    ← map_eq_map_iff_forall₂ (Signature.alike_iff_map_eq beq_iff_canonicalForm_eq),
    canonicalForm, canonicalForm, Shape.map_overloaded, Shape.map_overloaded,
    Shape.overloaded.injEq]
  rfl

/-- Unions are equal when their members are, one by one and in order. -/
theorem union_beq_iff (ts us : List Ty) :
    (Shape.union ts == Shape.union us) = true ↔ ts.Forall₂ (fun t u => (t == u) = true) us := by
  rw [beq_iff_canonicalForm_eq, ← map_eq_map_iff_forall₂ beq_iff_canonicalForm_eq,
    canonicalForm, canonicalForm, Shape.map_union, Shape.map_union, Shape.union.injEq]
  rfl

end Ty

namespace Heap

/-- Equality of types is equality of their canonical forms, in every state that a possible run from
the start leads to. So it is reflexive, symmetric and transitive; functions, overload sets and
unions are equal when their parts are, one by one and in the same order; and the classes that two
calls made are not equal in any flavor, whatever their names. -/
theorem equality_canonical {actions : List Action} (hadm : empty.Admits actions) :
    (∀ t u : Ty, (t == u) = true ↔ t.canonicalForm = u.canonicalForm) ∧
    (Equivalence fun t u : Ty => (t == u) = true) ∧
    (∀ s r : Signature Ty, (Shape.function s == Shape.function r) = true ↔
      s.Alike (fun t u => (t == u) = true) r) ∧
    (∀ ss rs : List (Signature Ty), (Shape.overloaded ss == Shape.overloaded rs) = true ↔
      ss.Forall₂ (Signature.Alike fun t u => (t == u) = true) rs) ∧
    (∀ ts us : List Ty, (Shape.union ts == Shape.union us) = true ↔
      ts.Forall₂ (fun t u => (t == u) = true) us) ∧
    ∀ k l call call' id id', MadeBy actions k call id → MadeBy actions l call' id' → k ≠ l →
      ∀ f f', ((.nominal ⟨id, f⟩ : Ty) == .nominal ⟨id', f'⟩) = false := by
  refine ⟨Ty.beq_iff_canonicalForm_eq, Ty.beq_equivalence, Ty.function_beq_iff,
    Ty.overloaded_beq_iff, Ty.union_beq_iff, ?_⟩
  intro k l call call' id id' hmade hmade' hkl f f'
  -- Were they equal, their blocks would be one, which one call made.
  refine Bool.eq_false_iff.2 fun heq => hkl ?_
  have hform := (Ty.beq_iff_canonicalForm_eq _ _).1 heq
  obtain ⟨rfl, -⟩ := Prod.mk.inj (Shape.nominal.inj hform)
  exact hmade.eq_of_block_eq hadm hmade'

/-- A function over the first of two classes and a module at the path that `path` spells. -/
def loader (path : String) (mode : PassingMode) : Ty :=
  .function { parameters := [⟨"source", mode, .module (.ofPath (.ofString path))⟩],
              returns := some (.nominal ⟨⟨0⟩, .instantiated⟩) }

/-- Two types over one class are equal although their paths are spelled differently, and the same
types over two runs of one loader are not. -/
theorem equality_canonical_loader :
    let twice : List Action :=
      [.call (.create "Point" BodyScope.empty.toTable),
        .call (.create "Point" BodyScope.empty.toTable)]
    empty.Admits twice ∧
      (loader "./lib//point/." .positional == loader "./lib/point" .positional) = true ∧
      (loader "./lib/point" .positional == loader "lib/point" .positional) = false ∧
      (loader "./lib/point" .positional == loader "./lib/point" .keywordOnly) = false ∧
      ((.nominal (.ofBlock ⟨0⟩) : Ty) == .nominal (.ofBlock ⟨1⟩)) = false := by
  intro twice
  have hadm : empty.Admits twice := by decide
  obtain ⟨hform, -, hfunction, -, -, hcalls⟩ := equality_canonical hadm
  refine ⟨hadm, (hform _ _).2 rfl, ?_, ?_, ?_⟩
  · -- The first piece of a relative path counts, also where it is a dot.
    refine Bool.eq_false_iff.2 fun heq => ?_
    cases ((hfunction _ _).1 heq).parameters with
    | cons hp _ =>
        have hmodule := Shape.module.inj ((hform _ _).1 hp.type)
        exact absurd (Option.some.inj (Module.mk.inj hmodule).2) (by decide)
  · refine Bool.eq_false_iff.2 fun heq => ?_
    cases ((hfunction _ _).1 heq).parameters with
    | cons hp _ => exact nomatch hp.mode
  · exact hcalls 0 1 _ _ _ _ ⟨rfl, rfl⟩ ⟨rfl, rfl⟩ (by decide) _ _

end Heap

end TypeRegistry
