import Mathlib.Data.Finset.Card
import TypeRegistry.Scope.BodyScope

/-!
# A body scope and its declarations

A body scope keeps two maps, which a declaration writes one after the other and which are read
apart. Both tell of the same history: under each name the one holds all declarations of it, in the
order in which they were made, and the other the latest of them.

## Main definitions and statements

* `declarationsOf`: the part of a history that tells of one name.
* `BodyScope.declareEach`: a history of declarations in a scope, with the answer to each.
* `BodyScope.Keeps`: both maps of a scope tell of a history.
* `BodyScope.Keeps.declare`, `BodyScope.Keeps.declareEach`: of what is declared next they tell too.
* `BodyScope.declarations_kept`: every question to a scope is answered from its history.
-/

namespace TypeRegistry

/-- The declarations of `name` in a history, oldest first. -/
def declarationsOf (name : String) (history : List (String × Declaration)) : List Declaration :=
  (history.filter fun entry => entry.1 = name).map Prod.snd

/-- One more declaration of the name comes last, and one of another name does not count. -/
theorem declarationsOf_concat (name other : String) (d : Declaration)
    (history : List (String × Declaration)) :
    declarationsOf other (history ++ [(name, d)]) =
      if name = other then declarationsOf other history ++ [d]
      else declarationsOf other history := by
  by_cases hname : name = other <;> simp [declarationsOf, hname]

/-- The names that have declarations are those that occur in the history. -/
theorem declarationsOf_eq_nil_iff {name : String} {history : List (String × Declaration)} :
    declarationsOf name history = [] ↔ name ∉ history.map Prod.fst := by
  rw [declarationsOf, List.map_eq_nil_iff, List.filter_eq_nil_iff]
  simp only [decide_eq_true_eq, List.mem_map, not_exists, not_and]

namespace BodyScope

variable {scope : BodyScope} {history : List (String × Declaration)}

/-- Declares the entries of a history one by one. Gives what each declaration gave, and the scope
at the end. -/
def declareEach (scope : BodyScope) :
    List (String × Declaration) → List (Option Declaration) × BodyScope
  | [] => ([], scope)
  | (name, d) :: later =>
    let (previous, next) := scope.declare name d
    let (answers, last) := next.declareEach later
    (previous :: answers, last)

/-! ### What a declaration writes -/

/-- A declaration binds its name and no other. -/
theorem names_declare (scope : BodyScope) (name other : String) (d : Declaration) :
    (scope.declare name d).2.names[other]? =
      if name = other then some d else scope.names[other]? := by
  simp only [declare, Std.TreeMap.getElem?_insert, Std.LawfulEqCmp.compare_eq_iff_eq]

/-- A declaration is appended to the overloads of its name and no other. -/
theorem overloads_declare (scope : BodyScope) (name other : String) (d : Declaration) :
    (scope.declare name d).2.overloads[other]? =
      if name = other then some (scope.overloads.getD name [] ++ [d])
      else scope.overloads[other]? := by
  simp only [declare, Std.TreeMap.getElem?_insert, Std.LawfulEqCmp.compare_eq_iff_eq]

/-! ### What a scope keeps -/

/-- Both maps of a scope tell of the same history. -/
structure Keeps (scope : BodyScope) (history : List (String × Declaration)) : Prop where
  /-- A name is bound by its latest declaration. -/
  names : ∀ name : String, scope.names[name]? = (declarationsOf name history).getLast?
  /-- All declarations of a name are kept, in their order, and there is no entry without any. -/
  overloads : ∀ name : String, scope.overloads[name]? =
    if declarationsOf name history = [] then none else some (declarationsOf name history)

theorem Keeps.lookup? (hs : scope.Keeps history) (name : String) :
    scope.toTable.lookup? name = (declarationsOf name history).getLast? :=
  hs.names name

theorem Keeps.overloadsOf (hs : scope.Keeps history) (name : String) :
    scope.toTable.overloadsOf name = declarationsOf name history := by
  have hentry : scope.toTable.overloadsOf name = scope.overloads[name]?.getD [] := rfl
  rw [hentry, hs.overloads name]
  split
  case isTrue hnil => rw [hnil, Option.getD_none]
  case isFalse => rfl

/-- The empty scope keeps the empty history. -/
theorem keeps_empty : empty.Keeps [] where
  names _ := Std.TreeMap.getElem?_emptyc
  overloads _ := Std.TreeMap.getElem?_emptyc

/-- One more declaration is told of by both maps. -/
theorem Keeps.declare (hs : scope.Keeps history) (name : String) (d : Declaration) :
    (scope.declare name d).2.Keeps (history ++ [(name, d)]) where
  names other := by
    rw [names_declare, declarationsOf_concat, hs.names other]
    split <;> simp
  overloads other := by
    rw [overloads_declare, declarationsOf_concat]
    split
    -- The declaration is put after those of its name, of which there may be none yet.
    case isTrue hname =>
      subst hname
      have hbefore : scope.overloads.getD name [] = declarationsOf name history := by
        rw [Std.TreeMap.getD_eq_getD_getElem?]
        exact hs.overloadsOf name
      rw [hbefore, if_neg (by simp)]
    case isFalse => exact hs.overloads other

/-- A scope that keeps a history keeps it together with what is declared after. -/
theorem Keeps.declareEach (hs : scope.Keeps history) (later : List (String × Declaration)) :
    (scope.declareEach later).2.Keeps (history ++ later) := by
  -- The first entry moves over to the history, so the scope and the history vary.
  induction later generalizing scope history with
  | nil => rwa [List.append_nil]
  | cons entry later ih =>
      have hlater := ih (hs.declare entry.1 entry.2)
      rwa [List.append_assoc] at hlater

/-- A new scope keeps the history that is declared in it. -/
theorem keeps_declareEach (history : List (String × Declaration)) :
    (empty.declareEach history).2.Keeps history :=
  keeps_empty.declareEach history

/-! ### Keys, size and answers -/

/-- The name map has an entry for each name that was declared. -/
theorem Keeps.mem_names_iff (hs : scope.Keeps history) (name : String) :
    name ∈ scope.names ↔ name ∈ history.map Prod.fst := by
  rw [Std.TreeMap.mem_iff_isSome_getElem?, hs.names, ← not_iff_not, ← declarationsOf_eq_nil_iff]
  simp

/-- So has the overload map. -/
theorem Keeps.mem_overloads_iff (hs : scope.Keeps history) (name : String) :
    name ∈ scope.overloads ↔ name ∈ history.map Prod.fst := by
  rw [Std.TreeMap.mem_iff_isSome_getElem?, hs.overloads, ← not_iff_not,
    ← declarationsOf_eq_nil_iff]
  simp

/-- No name has an empty list of overloads: where there is no declaration there is no entry. -/
theorem Keeps.entry_ne_nil (hs : scope.Keeps history) (name : String) :
    scope.overloads[name]? ≠ some [] := by
  rw [hs.overloads name]
  split <;> simp_all

/-- The size is the number of different names. -/
theorem Keeps.size (hs : scope.Keeps history) :
    scope.size = (history.map Prod.fst).toFinset.card := by
  -- No key of a map comes twice, so the keys are as many as the set that they form.
  have hkeys : scope.names.keys.toFinset = (history.map Prod.fst).toFinset := by
    ext name
    rw [List.mem_toFinset, List.mem_toFinset, Std.TreeMap.mem_keys, hs.mem_names_iff]
  rw [BodyScope.size, ← Std.TreeMap.length_keys, ← hkeys,
    List.toFinset_card_of_nodup Std.TreeMap.nodup_keys]

/-- A scope is empty when nothing was declared. -/
theorem Keeps.isEmpty_iff (hs : scope.Keeps history) : scope.isEmpty = true ↔ history = [] := by
  rw [BodyScope.isEmpty, Std.TreeMap.isEmpty_iff_forall_not_mem]
  simp only [hs.mem_names_iff]
  rw [← List.eq_nil_iff_forall_not_mem, List.map_eq_nil_iff]

/-- Each declaration gives what a look up of its name gave just before. -/
theorem answers_declareEach (scope : BodyScope) (history : List (String × Declaration)) :
    (scope.declareEach history).1 = history.mapIdx fun i entry =>
      (scope.declareEach (history.take i)).2.toTable.lookup? entry.1 := by
  induction history generalizing scope with
  | nil => rfl
  | cons entry later ih =>
      -- Later moments of the history are moments of the rest, seen from the next scope.
      rw [declareEach, List.mapIdx_cons]
      simp only [ih]
      rfl

/-- A body scope tells its history of declarations and nothing else. In a new scope in which any
names were declared in any order, as often as one likes, all declarations of a name are found in the
order in which they were made, and the latest binds the name; the two maps have the same keys, and
no entry of the second is empty. Each declaration gave what the name was bound to just before. The
size is the number of different names, and the scope is empty as long as nothing was declared. So
two scopes answer all questions alike when they were given the same declarations name by name. -/
theorem declarations_kept (history : List (String × Declaration)) :
    let scope := (empty.declareEach history).2
    (∀ name,
      scope.toTable.overloadsOf name = declarationsOf name history ∧
      scope.toTable.lookup? name = (declarationsOf name history).getLast? ∧
      (scope.toTable.lookup? name = none ↔ declarationsOf name history = []) ∧
      (name ∈ scope.names ↔ name ∈ scope.overloads) ∧ scope.overloads[name]? ≠ some []) ∧
    ((empty.declareEach history).1 = history.mapIdx fun i entry =>
      (empty.declareEach (history.take i)).2.toTable.lookup? entry.1) ∧
    scope.size = (history.map Prod.fst).toFinset.card ∧
    (scope.isEmpty = true ↔ history = []) ∧
    ∀ history' : List (String × Declaration),
      let scope' := (empty.declareEach history').2
      (∀ name, scope.toTable.lookup? name = scope'.toTable.lookup? name ∧
          scope.toTable.overloadsOf name = scope'.toTable.overloadsOf name) ↔
        ∀ name, declarationsOf name history = declarationsOf name history' := by
  intro scope
  have hscope : scope.Keeps history := keeps_declareEach history
  refine ⟨fun name => ⟨hscope.overloadsOf name, hscope.lookup? name, ?_, ?_, ?_⟩,
    answers_declareEach empty history, hscope.size, hscope.isEmpty_iff, ?_⟩
  · rw [hscope.lookup? name, List.getLast?_eq_none_iff]
  · rw [hscope.mem_names_iff, hscope.mem_overloads_iff]
  · exact hscope.entry_ne_nil name
  · intro history' scope'
    have hscope' : scope'.Keeps history' := keeps_declareEach history'
    simp only [hscope.lookup?, hscope'.lookup?, hscope.overloadsOf, hscope'.overloadsOf]
    -- The latest declaration is one of all, so the second answer decides.
    refine forall_congr' fun name => ⟨And.right, fun hsame => ⟨?_, hsame⟩⟩
    rw [hsame]

end BodyScope

end TypeRegistry
