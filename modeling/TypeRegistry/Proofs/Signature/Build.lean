import Mathlib.Data.List.DropRight
import TypeRegistry.Class.Store

/-!
# Signatures and their history

A signature is built in steps that replace the parameters, append one or set the return type. What
it reads as afterwards is told by the steps: the list that was put last and the parameters that were
appended since, and the return type that was set last. The two do not depend on each other, so a
return type may be set before or after the parameters.

## Main definitions and statements

* `Signature.start`, `Signature.lastList`, `Signature.addedSince`, `Signature.lastReturns?`: what a
  start and the steps after it tell.
* `Signature.Retells`: a signature reads as a start and some steps tell.
* `Signature.Retells.apply`, `Signature.retells_build`: one more step is told too, and so are runs.
* `Signature.parameterNamed?_eq_some_iff`: which of several parameters of one name is found.
* `Store.function_build_reads`: what is read of a function type, and its text, after any steps.
-/

namespace TypeRegistry

namespace Signature

variable {τ : Type}

/-- The signature that building starts from. -/
def start (name : Option String) : Signature τ :=
  name.elim anonymous named

namespace Edit

/-- The parameters that a step puts in place of those before. -/
def list? : Edit τ → Option (List (Parameter τ))
  | setParameters parameters => some parameters
  | _ => none

/-- The parameter that a step appends. -/
def added? : Edit τ → Option (Parameter τ)
  | addParameter parameter => some parameter
  | _ => none

/-- The return type that a step sets. -/
def returns? : Edit τ → Option τ
  | setReturns type => some type
  | _ => none

end Edit

/-! ### What steps tell -/

/-- The parameters that were put last, none if they never were. -/
def lastList (edits : List (Edit τ)) : List (Parameter τ) :=
  (edits.filterMap Edit.list?).getLast?.getD []

/-- The parameters that were appended since a list was put last, oldest first. -/
def addedSince (edits : List (Edit τ)) : List (Parameter τ) :=
  (edits.rtakeWhile fun e => e.list?.isNone).filterMap Edit.added?

/-- The return type that was set last, if one was. -/
def lastReturns? (edits : List (Edit τ)) : Option τ :=
  (edits.filterMap Edit.returns?).getLast?

/-- The signature reads as a start and the steps after it tell. -/
structure Retells (f : Signature τ) (name : Option String) (edits : List (Edit τ)) : Prop where
  name : f.name = name
  parameters : f.parameters = lastList edits ++ addedSince edits
  returns : f.returns = lastReturns? edits

/-- At the start there is the name, and nothing was told yet. -/
theorem retells_start (name : Option String) : (start name : Signature τ).Retells name [] := by
  cases name <;> exact ⟨rfl, rfl, rfl⟩

/-- One more step is told too. -/
theorem Retells.apply {f : Signature τ} {name : Option String} {edits : List (Edit τ)}
    (hf : f.Retells name edits) (e : Edit τ) : (f.apply e).Retells name (edits ++ [e]) := by
  cases e with
  | setParameters ps =>
      refine ⟨hf.name, ?_, ?_⟩
      · -- The parameters appended before are not counted from here on.
        have hsince : addedSince (edits ++ [.setParameters ps]) = [] := by
          rw [addedSince, List.rtakeWhile_concat_neg]
          · rfl
          · exact Bool.false_ne_true
        rw [hsince, List.append_nil, lastList, List.filterMap_append]
        simp [Signature.apply, Edit.list?]
      · rw [lastReturns?, List.filterMap_append]
        simp [Signature.apply, Edit.returns?, hf.returns, lastReturns?]
  -- An appended parameter is the only step that counts as one since the last list.
  | addParameter p =>
      refine ⟨hf.name, ?_, ?_⟩
      · have hlast : lastList (edits ++ [.addParameter p]) = lastList edits := by
          simp [lastList, Edit.list?]
        have hsince : addedSince (edits ++ [.addParameter p]) = addedSince edits ++ [p] := by
          rw [addedSince, List.rtakeWhile_concat_pos]
          · simp [addedSince, Edit.added?]
          · rfl
        rw [hlast, hsince, ← List.append_assoc, ← hf.parameters]
        rfl
      · simp [Signature.apply, Edit.returns?, hf.returns, lastReturns?]
  -- A return type leaves the parameters, and what counts as appended, as they are.
  | setReturns t =>
      refine ⟨hf.name, ?_, ?_⟩
      · have hlast : lastList (edits ++ [.setReturns t]) = lastList edits := by
          simp [lastList, Edit.list?]
        have hsince : addedSince (edits ++ [.setReturns t]) = addedSince edits := by
          rw [addedSince, List.rtakeWhile_concat_pos]
          · simp [addedSince, Edit.added?]
          · rfl
        rw [hlast, hsince, ← hf.parameters]
        rfl
      · simp [Signature.apply, Edit.returns?, lastReturns?]

/-- A signature reads as its history tells. -/
theorem retells_build (name : Option String) (edits : List (Edit τ)) :
    ((start name).build edits).Retells name edits := by
  induction edits using List.reverseRecOn with
  | nil => exact retells_start name
  | append_singleton edits e ih =>
      rw [build, List.foldl_append]
      exact ih.apply e

/-! ### Return types and parameters -/

section Order

variable {f : Signature τ} {e : Edit τ} {edits before between after : List (Edit τ)} {t : τ}

/-- A return type is set as well before a step on the parameters as after it. -/
theorem apply_setReturns_comm (he : e.returns? = none) :
    (f.apply (.setReturns t)).apply e = (f.apply e).apply (.setReturns t) := by
  cases e with
  | setParameters ps => rfl
  | addParameter p => rfl
  | setReturns u => cases he

/-- A return type is set before or after steps on the parameters, to the same effect. -/
theorem build_setReturns_comm (hedits : ∀ e ∈ edits, e.returns? = none) :
    (f.apply (.setReturns t)).build edits = (f.build edits).apply (.setReturns t) := by
  induction edits generalizing f with
  | nil => rfl
  | cons e edits ih =>
      have he := hedits e List.mem_cons_self
      have hrest : ∀ e ∈ edits, e.returns? = none :=
        fun e he => hedits e (List.mem_cons_of_mem _ he)
      rw [build, List.foldl_cons, apply_setReturns_comm he]
      exact ih hrest

/-- Setting a return type can be moved past steps on the parameters. -/
theorem build_move_setReturns (hbetween : ∀ e ∈ between, e.returns? = none) :
    f.build (before ++ .setReturns t :: (between ++ after)) =
      f.build (before ++ (between ++ .setReturns t :: after)) := by
  have hcomm := build_setReturns_comm (f := f.build before) (t := t) hbetween
  simp only [build, List.foldl_append, List.foldl_cons] at hcomm ⊢
  rw [hcomm]

/-- There is a return type exactly when one was set. -/
theorem lastReturns?_eq_none_iff : lastReturns? edits = none ↔ ∀ t, .setReturns t ∉ edits := by
  rw [lastReturns?, List.getLast?_eq_none_iff, List.filterMap_eq_nil_iff]
  refine ⟨?_, ?_⟩
  · intro hnone t ht
    cases hnone _ ht
  · intro hnever e he
    cases e with
    | setReturns t => exact absurd he (hnever t)
    | setParameters _ | addParameter _ => rfl

end Order

/-! ### Parameters by name -/

section Named

variable {f : Signature τ} {x : String} {p : Parameter τ}

/-- Of the parameters of one name the first is found. -/
theorem parameterNamed?_eq_some_iff :
    f.parameterNamed? x = some p ↔
      ∃ i : Nat, f.parameters[i]? = some p ∧ p.name = x ∧
        ∀ j < i, ∀ q, f.parameters[j]? = some q → q.name ≠ x := by
  rw [parameterNamed?, List.find?_eq_some_iff_getElem]
  refine ⟨?_, ?_⟩
  · -- The library speaks of positions that are known to be there, the statement of any.
    rintro ⟨hname, i, hi, rfl, hfirst⟩
    refine ⟨i, List.getElem?_eq_getElem hi, of_decide_eq_true hname, ?_⟩
    intro j hj q hq hsame
    obtain ⟨hlt, rfl⟩ := List.getElem?_eq_some_iff.1 hq
    have hother := hfirst j hj
    simp [hsame] at hother
  · rintro ⟨i, hp, hname, hfirst⟩
    obtain ⟨hi, rfl⟩ := List.getElem?_eq_some_iff.1 hp
    refine ⟨decide_eq_true hname, i, hi, rfl, ?_⟩
    intro j hj
    have hother := hfirst j hj _ (List.getElem?_eq_getElem (hj.trans hi))
    simp [hother]

/-- A name finds nothing when no parameter has it. -/
theorem parameterNamed?_eq_none_iff :
    f.parameterNamed? x = none ↔ ∀ p ∈ f.parameters, p.name ≠ x := by
  simp [parameterNamed?]

/-- One more parameter changes nothing for the names that are there. -/
theorem parameterNamed?_addParameter (hsome : f.parameterNamed? x = some p) (q : Parameter τ) :
    (f.apply (.addParameter q)).parameterNamed? x = some p := by
  rw [parameterNamed?] at hsome
  rw [parameterNamed?, apply, List.find?_append, hsome, Option.some_or]

end Named

end Signature

namespace Store

/-- The text of a function type, with those of its types. -/
theorem render_function (s : Store) (f : Signature Ty) :
    s.render (.function f) =
      "<function " ++ f.name.getD "<anonymous>" ++ "(" ++
        ", ".intercalate (f.parameters.map fun p => p.name ++ ": " ++ s.render p.type) ++ ")" ++
        (match f.returns with
        | some type => " -> " ++ s.render type
        | none => "") ++ ">" := by
  rw [render, view, Shape.map_function, Shape.render_function, Signature.render]
  simp only [Signature.map, List.map_map, Option.map_map]
  cases f.returns <;> rfl

/-- A function type reads as the steps tell that built it. It has the name of its start, the
parameters that were put last and those appended since, and the return type that was set last. A
name finds the first parameter that has it, also after another one is appended. The text has the
parameters in their order, and an arrow if a return type was ever set. Setting a return type can be
moved past steps on the parameters. -/
theorem function_build_reads (s : Store) (name : Option String) (edits : List (Signature.Edit Ty)) :
    let f := (Signature.start name).build edits
    f.name = name ∧
      f.parameters = Signature.lastList edits ++ Signature.addedSince edits ∧
      f.returns = Signature.lastReturns? edits ∧
      (f.returns = none ↔ ∀ t, .setReturns t ∉ edits) ∧
      f.arity = f.parameters.length ∧
      (∀ x p, f.parameterNamed? x = some p ↔
        ∃ i : Nat, f.parameters[i]? = some p ∧ p.name = x ∧
          ∀ j < i, ∀ q, f.parameters[j]? = some q → q.name ≠ x) ∧
      (∀ x, f.parameterNamed? x = none ↔ ∀ p ∈ f.parameters, p.name ≠ x) ∧
      (∀ x p q, f.parameterNamed? x = some p →
        (f.apply (.addParameter q)).parameterNamed? x = some p) ∧
      s.render (.function f) =
        "<function " ++ name.getD "<anonymous>" ++ "(" ++
          ", ".intercalate (f.parameters.map fun p => p.name ++ ": " ++ s.render p.type) ++ ")" ++
          (match f.returns with
          | some type => " -> " ++ s.render type
          | none => "") ++ ">" ∧
      ∀ before between after t, edits = before ++ .setReturns t :: (between ++ after) →
        (∀ e ∈ between, ∀ u, e ≠ .setReturns u) →
        (Signature.start name).build (before ++ (between ++ .setReturns t :: after)) = f := by
  intro f
  have hf : f.Retells name edits := Signature.retells_build name edits
  -- Name, parameters and return type are as the history tells; whatever is read besides is read of
  -- these three.
  refine ⟨hf.name, hf.parameters, hf.returns, ?_, rfl, fun _ _ =>
    Signature.parameterNamed?_eq_some_iff, fun _ => Signature.parameterNamed?_eq_none_iff,
    fun _ _ q hsome => Signature.parameterNamed?_addParameter hsome q, ?_, ?_⟩
  · rw [hf.returns, Signature.lastReturns?_eq_none_iff]
  · rw [render_function, hf.name]
  · rintro before between after t rfl hbetween
    refine (Signature.build_move_setReturns ?_).symm
    intro e he
    cases e with
    | setReturns u => exact absurd rfl (hbetween _ he u)
    | setParameters _ | addParameter _ => rfl

/-- Two parameters of one name, the second appended after the return type was set. -/
theorem function_build_reads_repeated_name :
    let p : Parameter Ty := { name := "x", type := .any }
    let q : Parameter Ty := { name := "x", mode := .keywordOnly, type := .never }
    let f := (Signature.start (some "f")).build [.setReturns .unknown, .setParameters [p],
      .addParameter q]
    f.parameters = [p, q] ∧ f.parameterNamed? "x" = some p ∧
      (f.apply (.addParameter q)).parameterNamed? "x" = some p ∧
      empty.render (.function f) = "<function f(x: <Any>, x: <Never>) -> <Unknown>>" ∧
      (Signature.start (some "f")).build [.setParameters [p], .addParameter q,
        .setReturns .unknown] = f := by
  intro p q f
  obtain ⟨-, hparameters, -, -, -, hnamed, -, hstable, htext, hmove⟩ :=
    function_build_reads empty (some "f") [.setReturns .unknown, .setParameters [p],
      .addParameter q]
  have hfirst : f.parameterNamed? "x" = some p :=
    (hnamed "x" p).2 ⟨0, rfl, rfl, nofun⟩
  refine ⟨hparameters, hfirst, hstable "x" p q hfirst, htext.trans (by decide +kernel), ?_⟩
  refine hmove [] [.setParameters [p], .addParameter q] [] .unknown rfl ?_
  rintro e he u rfl
  simp at he

end Store

end TypeRegistry
