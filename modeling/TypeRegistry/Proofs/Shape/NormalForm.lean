import TypeRegistry.Proofs.Shape.Induction
import TypeRegistry.Proofs.Text.Reading
import TypeRegistry.Shape.Render

/-!
# The normal form of a type

The canonical text leaves things out: brackets around inner unions, how arguments reach parameters,
the signatures of an overload set, the path of a module that has a name. What is left is the normal
form: the list of the alternatives of a type, each an atom that keeps what the text shows of it.

## Main definitions and statements

* `Atom`, `Shape.atoms`: the normal form.
* `Atom.text`: the text of an atom.
* `Shape.toList_render`: the text of a type is the texts of its atoms with ` | ` between them.
-/

namespace TypeRegistry

/-- An alternative of a type, with what its canonical text shows of it. -/
inductive Atom where
  | unbound
  | unknown
  | never
  | any
  | typeVar
  /-- A union without members. -/
  | emptyUnion
  /-- A module with its name, or with its path as text if it has no name. -/
  | module (label : Option String)
  /-- A function with the names and types of its parameters, in the order of their declaration. -/
  | function (name : Option String) (parameters : List (String × List Atom))
      (returns : Option (List Atom))
  /-- An overload set with so many signatures. -/
  | overloaded (size : Nat)
  /-- A class with its name. -/
  | nominal (name : String)

namespace Shape

/-- The atom of a module. A name hides the path, and what has neither shows nothing. -/
def moduleAtom : Module SourcePath → Atom
  | ⟨some name, _⟩ => .module (some name)
  | ⟨none, some path⟩ => .module (some path.display)
  | ⟨none, none⟩ => .module none

mutual

/-- The normal form of a type: its alternatives in order. A union is spelled out at any depth. -/
def atoms : TypeView → List Atom
  | unbound => [.unbound]
  | unknown => [.unknown]
  | never => [.never]
  | any => [.any]
  | typeVar => [.typeVar]
  | module m => [moduleAtom m]
  | function s => [signatureAtom s]
  | overloaded ss => [.overloaded ss.length]
  | union [] => [.emptyUnion]
  | union (t :: ts) => atoms t ++ memberAtoms ts
  | nominal c => [.nominal c.name]

/-- The atom of a function. How arguments are passed is left out. -/
def signatureAtom : Signature TypeView → Atom
  | ⟨name, ps, none⟩ => .function name (parameterAtoms ps) none
  | ⟨name, ps, some t⟩ => .function name (parameterAtoms ps) (some (atoms t))

/-- The names of parameters with the normal forms of their types. -/
def parameterAtoms : List (Parameter TypeView) → List (String × List Atom)
  | [] => []
  | ⟨name, _, t⟩ :: ps => (name, atoms t) :: parameterAtoms ps

/-- The alternatives of the members of a union, one after the other. -/
def memberAtoms : List TypeView → List Atom
  | [] => []
  | t :: ts => atoms t ++ memberAtoms ts

end

theorem parameterAtoms_eq_map (ps : List (Parameter TypeView)) :
    parameterAtoms ps = ps.map fun p => (p.name, p.type.atoms) := by
  induction ps with
  | nil => rfl
  | cons p ps ih => simp [parameterAtoms, ih]

theorem memberAtoms_eq_flatMap (ts : List TypeView) : memberAtoms ts = ts.flatMap atoms := by
  induction ts with
  | nil => rfl
  | cons t ts ih => simp [memberAtoms, ih]

/-- A function is one atom, which keeps the normal forms of its types. -/
theorem atoms_function (s : Signature TypeView) :
    (function s : TypeView).atoms =
      [.function s.name (s.parameters.map fun p => (p.name, p.type.atoms))
        (s.returns.map atoms)] := by
  obtain ⟨name, ps, _ | t⟩ := s <;> simp [atoms, signatureAtom, parameterAtoms_eq_map]

/-- The atoms of a union with members are those of its members. -/
theorem atoms_union {ts : List TypeView} (hne : ts ≠ []) :
    (union ts : TypeView).atoms = ts.flatMap atoms := by
  obtain ⟨t, ts, rfl⟩ := List.exists_cons_of_ne_nil hne
  rw [atoms, memberAtoms_eq_flatMap, List.flatMap_cons]

/-- Every type has an alternative. -/
theorem atoms_ne_nil (t : TypeView) : t.atoms ≠ [] := by
  induction t using Shape.induction with
  | unbound | unknown | never | any | typeVar | module | overloaded | nominal =>
      exact List.cons_ne_nil _ _
  | function s _ =>
      rw [atoms_function]
      exact List.cons_ne_nil _ _
  | union ts ih =>
      -- A union without members has an atom of its own.
      rcases ts with _ | ⟨t, ts⟩
      · exact List.cons_ne_nil _ _
      · rw [atoms]
        exact List.append_ne_nil_of_left_ne_nil (ih t List.mem_cons_self) _

end Shape

/-! ### Texts of atoms -/

/-- The mark with which the text of a type of this kind opens. -/
def Kind.opening : Kind → String
  | unbound => "<Unbound>"
  | unknown => "<Unknown>"
  | never => "<Never>"
  | any => "<Any>"
  | typeVar => "<TypeVar>"
  | module => "<module"
  | function => "<function "
  | overloaded => "<overload "
  | union => "<Union>"
  | nominal => "<class "

namespace Atom

/-- The kind of the types that have this atom alone. -/
def kind : Atom → Kind
  | unbound => .unbound
  | unknown => .unknown
  | never => .never
  | any => .any
  | typeVar => .typeVar
  | emptyUnion => .union
  | module _ => .module
  | function .. => .function
  | overloaded _ => .overloaded
  | nominal _ => .nominal

/-- What stands between two alternatives. -/
def bar : List Char :=
  [' ', '|', ' ']

/-- What stands between two parameters. -/
def comma : List Char :=
  [',', ' ']

/-- What stands before a return type. -/
def arrow : List Char :=
  [' ', '-', '>', ' ']

mutual

/-- The text of an atom after its opening mark. -/
def body : Atom → List Char
  | unbound => []
  | unknown => []
  | never => []
  | any => []
  | typeVar => []
  | emptyUnion => []
  | module none => ['>']
  | module (some label) => ' ' :: (label.toList ++ ['>'])
  | function name ps returns =>
    (name.getD "<anonymous>").toList ++ '(' ::
      (comma.intercalate (parameterTexts ps) ++ ')' :: returnText returns)
  | overloaded size => size.repr.toList ++ " overloads>".toList
  | nominal name => name.toList ++ ['>']

/-- The texts of the parameters of a function. -/
def parameterTexts : List (String × List Atom) → List (List Char)
  | [] => []
  | (name, as) :: ps =>
    (name.toList ++ ':' :: ' ' :: bar.intercalate (texts as)) :: parameterTexts ps

/-- The text of a function after its parameters. -/
def returnText : Option (List Atom) → List Char
  | none => ['>']
  | some as => arrow ++ (bar.intercalate (texts as) ++ ['>'])

/-- The texts of the alternatives of a type. -/
def texts : List Atom → List (List Char)
  | [] => []
  | a :: as => (a.kind.opening.toList ++ body a) :: texts as

end

/-- The text of an atom. -/
def text (a : Atom) : List Char :=
  a.kind.opening.toList ++ a.body

/-- The text of a type with these alternatives. -/
def typeText (as : List Atom) : List Char :=
  Text.joined bar text as

/-- The text of a parameter with its name and type. -/
def parameterText (p : String × List Atom) : List Char :=
  p.1.toList ++ ':' :: ' ' :: typeText p.2

theorem texts_eq_map (as : List Atom) : texts as = as.map text := by
  induction as with
  | nil => rfl
  | cons a as ih => rw [texts, ih, List.map_cons, text]

theorem parameterTexts_eq_map (ps : List (String × List Atom)) :
    parameterTexts ps = ps.map parameterText := by
  induction ps with
  | nil => rfl
  | cons p ps ih => rw [parameterTexts, ih, texts_eq_map, List.map_cons, parameterText, typeText,
      Text.joined]

theorem body_function (name : Option String) (ps : List (String × List Atom))
    (returns : Option (List Atom)) :
    (function name ps returns).body =
      (name.getD "<anonymous>").toList ++ '(' ::
        (Text.joined comma parameterText ps ++ ')' :: returnText returns) := by
  rw [body, parameterTexts_eq_map, Text.joined]

theorem returnText_some (as : List Atom) :
    returnText (some as) = arrow ++ (typeText as ++ ['>']) := by
  rw [returnText, texts_eq_map, typeText, Text.joined]

end Atom

namespace Shape

open Atom

theorem typeText_singleton (a : Atom) : typeText [a] = a.kind.opening.toList ++ a.body :=
  Text.joined_singleton a

/-- The text of a module with a label is that of its atom. -/
theorem toList_render_label (label : String) :
    ("<module " ++ label ++ ">").toList = typeText [.module (some label)] := by
  have hopening : "<module ".toList = Kind.module.opening.toList ++ [' '] := rfl
  have hclosing : ">".toList = ['>'] := rfl
  rw [typeText_singleton]
  simp only [String.toList_append, hopening, hclosing, List.append_assoc, body]
  rfl

/-- The text of a module is that of its atom: both have the name, or else the path. -/
theorem toList_render_module (m : Module SourcePath) :
    m.render.toList = typeText [moduleAtom m] := by
  obtain ⟨name, path⟩ := m
  -- The renderer asks for a label first; the atom is told by the cases of name and path.
  cases name with
  | some name => exact toList_render_label name
  | none =>
      cases path with
      | some path => exact toList_render_label path.display
      | none => rfl

/-- The texts of parameters are those of their names and atoms, when their types have the texts of
theirs. -/
theorem toList_render_parameters {ps : List (Parameter TypeView)}
    (hps : ∀ p ∈ ps, p.type.render.toList = typeText p.type.atoms) :
    (", ".intercalate ((ps.map (Parameter.map render)).map Parameter.render)).toList =
      Text.joined comma parameterText (ps.map fun p => (p.name, p.type.atoms)) := by
  rw [String.toList_intercalate, Text.joined, List.map_map, List.map_map, List.map_map]
  have htexts : ∀ p ∈ ps, (p.map render).render.toList = parameterText (p.name, p.type.atoms) := by
    intro p hp
    have hcolon : ": ".toList = [':', ' '] := rfl
    simp only [Parameter.render, Parameter.map, parameterText, String.toList_append, hps p hp,
      hcolon, List.append_assoc, List.cons_append, List.nil_append]
  exact congrArg comma.intercalate (List.map_congr_left htexts)

/-- The end of the text of a function is that of its atom, when its return type has the text of
its atoms. -/
theorem toList_render_returns {returns : Option TypeView}
    (hreturns : ∀ t, returns = some t → t.render.toList = typeText t.atoms) :
    (match returns.map render with
      | some type => " -> " ++ type
      | none => "").toList ++ ['>'] = returnText (returns.map atoms) := by
  -- Without a return type the closing angle comes at once.
  cases returns with
  | none => rfl
  | some t =>
      have harrow : " -> ".toList = arrow := rfl
      simp only [Option.map_some, String.toList_append, hreturns t rfl, harrow, returnText_some,
        List.append_assoc]

/-- The text of a function is that of its atom, when its types have the texts of theirs. -/
theorem toList_render_function {s : Signature TypeView}
    (hs : ∀ t ∈ s.types, t.render.toList = typeText t.atoms) :
    (function s : TypeView).render.toList = typeText (function s : TypeView).atoms := by
  have hparameters := toList_render_parameters fun p hp =>
    hs p.type (Signature.mem_types.2 (.inl ⟨p, hp, rfl⟩))
  have hreturns := toList_render_returns fun t ht => hs t (Signature.mem_types.2 (.inr ht))
  have htext : (s.map render).render =
      "<function " ++ s.name.getD "<anonymous>" ++ "(" ++
        ", ".intercalate ((s.parameters.map (Parameter.map render)).map Parameter.render) ++ ")" ++
        (match s.returns.map render with
        | some type => " -> " ++ type
        | none => "") ++ ">" := rfl
  -- Both texts are the same pieces in one order, bracketed to the right.
  have hopen : "(".toList = ['('] := rfl
  have hclose : ")".toList = [')'] := rfl
  have hend : ">".toList = ['>'] := rfl
  rw [atoms_function, render_function, htext, typeText_singleton, body_function, ← hparameters,
    ← hreturns]
  simp only [String.toList_append, hopen, hclose, hend, List.append_assoc]
  rfl

/-- The canonical text of a type is the texts of its atoms with ` | ` between them. -/
theorem toList_render (t : TypeView) : t.render.toList = typeText t.atoms := by
  induction t using Shape.induction with
  | unbound | unknown | never | any | typeVar => rfl
  | module m => exact toList_render_module m
  | function s ih => exact toList_render_function ih
  | overloaded ss =>
      rw [render, overloadText, atoms, typeText_singleton]
      simp only [String.toList_append, List.append_assoc]
      rfl
  | union ts ih =>
      rcases ts with _ | ⟨t, ts⟩
      · rfl
      have hmembers : (t :: ts).map (fun u => u.render.toList) =
          (t :: ts).map fun u => typeText u.atoms := List.map_congr_left ih
      have hne : ∀ u ∈ t :: ts, u.atoms ≠ [] := fun u _ => u.atoms_ne_nil
      -- The bars between members and those inside a member are the same bars.
      have hunion : unionText ((t :: ts).map render) =
          " | ".intercalate ((t :: ts).map render) := rfl
      rw [render_union, hunion, atoms_union (List.cons_ne_nil t ts), typeText,
        ← Text.joined_joined hne, String.toList_intercalate, List.map_map]
      exact congrArg (bar.intercalate ·) hmembers
  | nominal c =>
      rw [render, ClassView.render, atoms, typeText_singleton]
      simp only [String.toList_append, List.append_assoc]
      rfl

end Shape

end TypeRegistry
