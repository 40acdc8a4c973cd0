import TypeRegistry.Ty

/-!
# The canonical text of a type

A text for messages and for readers:

* a marker is its name, `<Any>`;
* a module is `<module NAME>`, with its path if it has no name, or `<module>`;
* a function is `<function NAME(p: T, q: U) -> R>`, with `<anonymous>` for a missing name, and no
  arrow for a missing return type;
* an overload set shows only how many signatures it has, `<overload 2 overloads>`;
* a union is its members with ` | ` between them, or `<Union>` if it has none;
* a class is `<class NAME>`.

Inner unions have no brackets of their own.
-/

namespace TypeRegistry

/-- The text of a module. The blank before the label is left out with the label. -/
def Module.render (m : Module SourcePath) : String :=
  match m.label? with
  | some label => "<module " ++ label ++ ">"
  | none => "<module>"

/-- The text of a parameter, given that of its type. How an argument reaches it does not show. -/
def Parameter.render (p : Parameter String) : String :=
  p.name ++ ": " ++ p.type

/-- The text of a function, given those of its types. -/
def Signature.render (s : Signature String) : String :=
  "<function " ++ s.name.getD "<anonymous>" ++ "(" ++
    ", ".intercalate (s.parameters.map Parameter.render) ++ ")" ++
    (match s.returns with
    | some type => " -> " ++ type
    | none => "") ++ ">"

namespace Shape

/-- The text of an overload set of the given size. -/
def overloadText (size : Nat) : String :=
  "<overload " ++ size.repr ++ " overloads>"

/-- The text of a union, given those of its members. -/
def unionText : List String → String
  | [] => "<Union>"
  | members => " | ".intercalate members

mutual

/-- The canonical text of a type. -/
def render : TypeView → String
  | unbound => "<Unbound>"
  | unknown => "<Unknown>"
  | never => "<Never>"
  | any => "<Any>"
  | typeVar => "<TypeVar>"
  | module m => m.render
  | function s => (renderTypes s).render
  | overloaded ss => overloadText ss.length
  | union ts => unionText (renderMembers ts)
  | nominal c => c.render

/-- The signature with its types replaced by their texts. -/
def renderTypes : Signature TypeView → Signature String
  | ⟨name, ps, none⟩ => ⟨name, renderParameters ps, none⟩
  | ⟨name, ps, some t⟩ => ⟨name, renderParameters ps, some (render t)⟩

/-- The parameters with their types replaced by their texts. -/
def renderParameters : List (Parameter TypeView) → List (Parameter String)
  | [] => []
  | ⟨name, mode, t⟩ :: ps => ⟨name, mode, render t⟩ :: renderParameters ps

/-- The texts of the members of a union. -/
def renderMembers : List TypeView → List String
  | [] => []
  | t :: ts => render t :: renderMembers ts

end

theorem renderParameters_eq_map (ps : List (Parameter TypeView)) :
    renderParameters ps = ps.map (Parameter.map render) := by
  induction ps with
  | nil => rfl
  | cons p ps ih => simp [renderParameters, Parameter.map, ih]

theorem renderTypes_eq_map (s : Signature TypeView) : renderTypes s = s.map render := by
  obtain ⟨name, ps, _ | t⟩ := s <;> simp [renderTypes, Signature.map, renderParameters_eq_map]

theorem renderMembers_eq_map (ts : List TypeView) : renderMembers ts = ts.map render := by
  induction ts with
  | nil => rfl
  | cons t ts ih => simp [renderMembers, ih]

/-- The text of a function is that of its signature, with the texts of its types. -/
theorem render_function (s : Signature TypeView) :
    (function s : TypeView).render = (s.map render).render := by
  rw [render, renderTypes_eq_map]

/-- The text of a union is made of the texts of its members. -/
theorem render_union (ts : List TypeView) :
    (union ts : TypeView).render = unionText (ts.map render) := by
  rw [render, renderMembers_eq_map]

end Shape

end TypeRegistry
