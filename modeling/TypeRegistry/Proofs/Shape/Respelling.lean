import TypeRegistry.Class.Store
import TypeRegistry.Proofs.Path.Canonical
import TypeRegistry.Proofs.Shape.Replacement
import TypeRegistry.Shape.Describe

/-!
# Equal types and their texts

Equality passes over the spelling of paths, which the texts of a type show, so equal types can have
different texts. This is all there is to it: types whose paths are spelled canonically are equal
only if they are the same, and every type is equal to one of these.

## Main definitions and statements

* `Shape.HasPath`: a path occurs in a type.
* `Shape.map_map`, `Shape.map_id`, `Shape.map_congr_path`: replacements one after the other, and
  replacements that do nothing.
* `Ty.CanonicallySpelled`, `Ty.respelled`: types without needless bytes in their paths.
* `Store.respelled_identifies`: equal types are the same but for the spelling of their paths, and
  have the same texts when it is canonical.
-/

namespace TypeRegistry

namespace Shape

variable {κ π κ₁ π₁ κ₂ π₂ : Type}

/-- The path `p` is that of a module somewhere in the type. -/
inductive HasPath (p : π) : Shape κ π → Prop
  | module {m : Module π} (hp : m.path = some p) : HasPath p (module m)
  | function {s : Signature (Shape κ π)} {t : Shape κ π} (ht : t ∈ s.types) (hp : HasPath p t) :
      HasPath p (function s)
  | overloaded {ss : List (Signature (Shape κ π))} {s : Signature (Shape κ π)} {t : Shape κ π}
      (hs : s ∈ ss) (ht : t ∈ s.types) (hp : HasPath p t) : HasPath p (overloaded ss)
  | union {ts : List (Shape κ π)} {t : Shape κ π} (ht : t ∈ ts) (hp : HasPath p t) :
      HasPath p (union ts)

end Shape

theorem Signature.map_map {τ σ ρ : Type} (f : τ → σ) (g : σ → ρ) (s : Signature τ) :
    (s.map f).map g = s.map (g ∘ f) := by
  simp [map, Parameter.map, Function.comp_def]

/-- A signature whose types are replaced by themselves stays. -/
theorem Signature.map_id {τ : Type} (s : Signature τ) : s.map id = s := by
  have hparameter : Parameter.map (id : τ → τ) = id := by
    funext p
    rfl
  rw [map, hparameter, List.map_id, Option.map_id, id]

namespace Shape

/-- Two replacements, one after the other, are one. -/
theorem map_map (f : κ → κ₁) (g : π → π₁) (f' : κ₁ → κ₂) (g' : π₁ → π₂) (t : Shape κ π) :
    (t.map f g).map f' g' = t.map (f' ∘ f) (g' ∘ g) := by
  -- On the type; a replacement is made in the parts.
  induction t using Shape.induction with
  | unbound | unknown | never | any | typeVar | nominal => rfl
  | module m =>
      rw [map_module, map_module, map_module, Module.map, Module.map, Module.map, Option.map_map]
  | function s ih =>
      rw [map_function, map_function, map_function, Signature.map_map, Signature.map_congr]
      exact ih
  | overloaded ss ih =>
      rw [map_overloaded, map_overloaded, map_overloaded, List.map_map, List.map_congr_left]
      intro s hs
      rw [Function.comp_apply, Signature.map_map, Signature.map_congr]
      exact ih s hs
  | union ts ih =>
      rw [map_union, map_union, map_union, List.map_map, List.map_congr_left]
      exact ih

/-- A type whose classes and paths are replaced by themselves stays. -/
theorem map_id (t : Shape κ π) : t.map id id = t := by
  induction t using Shape.induction with
  | unbound | unknown | never | any | typeVar | nominal => rfl
  | module m => rw [map_module, Module.map, Option.map_id, id]
  | function s ih =>
      have hs : s.map (map id id) = s.map id := Signature.map_congr ih
      rw [map_function, hs, Signature.map_id]
  | overloaded ss ih =>
      have hss : ss.map (Signature.map (map id id)) = ss.map id := by
        refine List.map_congr_left fun s hs => ?_
        exact (Signature.map_congr (ih s hs)).trans s.map_id
      rw [map_overloaded, hss, List.map_id]
  | union ts ih =>
      have hts : ts.map (map id id) = ts.map id := List.map_congr_left ih
      rw [map_union, hts, List.map_id]

/-- A type is replaced alike by replacements that agree on its paths. -/
theorem map_congr_path (f : κ → κ₁) {g g' : π → π₁} {t : Shape κ π}
    (h : ∀ p, t.HasPath p → g p = g' p) : t.map f g = t.map f g' := by
  -- A path of a part is a path of the whole.
  induction t using Shape.induction with
  | unbound | unknown | never | any | typeVar | nominal => rfl
  | module m =>
      have hpath : m.path.map g = m.path.map g' := Option.map_congr fun p hp => h p (.module hp)
      rw [map_module, map_module, Module.map, Module.map, hpath]
  | function s ih =>
      rw [map_function, map_function, Signature.map_congr]
      intro t ht
      exact ih t ht fun p hp => h p (.function ht hp)
  | overloaded ss ih =>
      rw [map_overloaded, map_overloaded, List.map_congr_left]
      intro s hs
      exact Signature.map_congr fun t ht => ih s hs t ht fun p hp => h p (.overloaded hs ht hp)
  | union ts ih =>
      rw [map_union, map_union, List.map_congr_left]
      intro t ht
      exact ih t ht fun p hp => h p (.union ht hp)

/-- The paths of a replaced type are the replaced paths. -/
theorem exists_hasPath_of_map (f : κ → κ₁) (g : π → π₁) {t : Shape κ π} {q : π₁}
    (hq : (t.map f g).HasPath q) : ∃ p, t.HasPath p ∧ q = g p := by
  -- A part of the replaced type is a replaced part, so the path is found where the part stands.
  induction t using Shape.induction with
  | unbound | unknown | never | any | typeVar | nominal => cases hq
  | module m =>
      cases hq with
      | module hq =>
          obtain ⟨p, hp, rfl⟩ := Option.map_eq_some_iff.1 hq
          exact ⟨p, .module hp, rfl⟩
  | function s ih =>
      rw [map_function] at hq
      cases hq with
      | function hmem hq =>
          rw [Signature.types_map] at hmem
          obtain ⟨t, ht, rfl⟩ := List.mem_map.1 hmem
          obtain ⟨p, hp, rfl⟩ := ih t ht hq
          exact ⟨p, .function ht hp, rfl⟩
  | overloaded ss ih =>
      rw [map_overloaded] at hq
      cases hq with
      | overloaded hsmem hmem hq =>
          obtain ⟨s, hs, rfl⟩ := List.mem_map.1 hsmem
          rw [Signature.types_map] at hmem
          obtain ⟨t, ht, rfl⟩ := List.mem_map.1 hmem
          obtain ⟨p, hp, rfl⟩ := ih s hs t ht hq
          exact ⟨p, .overloaded hs ht hp, rfl⟩
  | union ts ih =>
      rw [map_union] at hq
      cases hq with
      | union hmem hq =>
          obtain ⟨t, ht, rfl⟩ := List.mem_map.1 hmem
          obtain ⟨p, hp, rfl⟩ := ih t ht hq
          exact ⟨p, .union ht hp, rfl⟩

end Shape

namespace Ty

/-- Every path in the type is spelled canonically. -/
def CanonicallySpelled (t : Ty) : Prop :=
  ∀ p, t.HasPath p → p.CanonicallySpelled

/-- The type with every path spelled canonically. -/
def respelled (t : Ty) : Ty :=
  t.map id SourcePath.canonical

/-- Nothing that counts for equality is lost by respelling. -/
theorem form_respelled (t : Ty) : t.respelled.form = t.form := by
  have hcomponents : SourcePath.components ∘ SourcePath.canonical = SourcePath.components :=
    funext SourcePath.components_canonical
  rw [form, respelled, Shape.map_map, hcomponents, form, Function.comp_id]

/-- After respelling, every path in a type is spelled canonically. -/
theorem respelled_canonicallySpelled (t : Ty) : t.respelled.CanonicallySpelled := by
  intro q hq
  obtain ⟨p, -, rfl⟩ := Shape.exists_hasPath_of_map id SourcePath.canonical hq
  exact SourcePath.canonicallySpelled_canonical p

/-- Nothing is respelled where every path is spelled canonically. -/
theorem CanonicallySpelled.respelled_eq {t : Ty} (ht : t.CanonicallySpelled) :
    t.respelled = t := by
  rw [respelled, Shape.map_congr_path id fun p hp => (ht p hp).canonical_eq]
  exact t.map_id

/-- What is respelled is a matter of what counts for equality. -/
theorem beq_iff_respelled_eq (t u : Ty) : (t == u) = true ↔ t.respelled = u.respelled := by
  rw [beq_iff_form_eq]
  refine ⟨fun hform => ?_, fun heq => ?_⟩
  · -- The canonical spelling of a path is made of its components.
    have hrespelled (v : Ty) : v.respelled = v.form.map id fun c => ⟨c.spelling⟩ := by
      rw [form, Shape.map_map]
      rfl
    rw [hrespelled, hrespelled, hform]
  · rw [← form_respelled t, heq, form_respelled]

end Ty

/-- Equal types have one canonical text. In every store, types that are equal and whose paths are
spelled canonically have the same text and the same debug texts. Every type is equal to the type
with its paths respelled, whose paths are spelled canonically and which respelling leaves as it is.
And two types are equal exactly when they are the same in all their parts once they are
respelled. -/
theorem Store.respelled_identifies (s : Store) :
    (∀ t u : Ty, t.CanonicallySpelled → u.CanonicallySpelled → (t == u) = true →
      s.render t = s.render u ∧
        (s.view t).describe.plain = (s.view u).describe.plain ∧
        (s.view t).describe.pretty = (s.view u).describe.pretty) ∧
    (∀ t : Ty, (t == t.respelled) = true ∧ t.respelled.CanonicallySpelled ∧
      t.respelled.respelled = t.respelled) ∧
    ∀ t u : Ty, (t == u) = true ↔ t.respelled = u.respelled := by
  refine ⟨?_, ?_, Ty.beq_iff_respelled_eq⟩
  · intro t u ht hu heq
    -- Canonically spelled types are what respelling makes of them.
    have hsame : t = u := by
      rw [← ht.respelled_eq, (Ty.beq_iff_respelled_eq t u).1 heq, hu.respelled_eq]
    rw [hsame]
    exact ⟨rfl, rfl, rfl⟩
  · intro t
    refine ⟨?_, t.respelled_canonicallySpelled, t.respelled_canonicallySpelled.respelled_eq⟩
    rw [Ty.beq_iff_form_eq, Ty.form_respelled]

/-- A module at one path or a function over a module at another. -/
def Ty.mounted (path source : String) : Ty :=
  .union [.module (.ofPath (.ofString path)),
    .function { parameters := [⟨"source", .positional, .module (.ofPath (.ofString source))⟩] }]

/-- A type with two paths that are spelled in needless ways, and the type after respelling. -/
theorem Store.respelled_identifies_mounted :
    let t := Ty.mounted "./lib//point/." "//"
    let u := Ty.mounted "./lib/point" "/"
    (t == u) = true ∧ Store.empty.render t ≠ Store.empty.render u ∧ u.CanonicallySpelled ∧
      Store.empty.render t.respelled = Store.empty.render u ∧
      (Store.empty.view t.respelled).describe.pretty = (Store.empty.view u).describe.pretty := by
  intro t u
  obtain ⟨htexts, hrespelled, hequal⟩ := Store.empty.respelled_identifies
  have hu : t.respelled = u := rfl
  have hcanonical : u.CanonicallySpelled := by
    rw [← hu]
    exact (hrespelled t).2.1
  have hsame : (t.respelled == u) = true := (hequal t.respelled u).2 rfl
  obtain ⟨hrender, -, hpretty⟩ := htexts t.respelled u (hrespelled t).2.1 hcanonical hsame
  refine ⟨(hequal t u).2 rfl, ?_, hcanonical, hrender, hpretty⟩
  decide

end TypeRegistry
