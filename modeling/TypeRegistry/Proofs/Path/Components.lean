import Mathlib.Data.List.Basic
import TypeRegistry.SourcePath

/-!
# The component list of a path

What paths are compared by, as one list for each path: a mark for the root and the pieces between
slashes that count.

## Main definitions and statements

* `SourcePath.componentList`: the root mark and the pieces of a path that count.
* `SourcePath.componentList_eq`: these are the components of the path.
* `SourcePath.beq_iff`: paths are equal when their component lists are.
-/

namespace TypeRegistry

/-- A component of a path. -/
inductive Component where
  /-- The mark of a path that starts at the root. -/
  | root
  | name (bytes : List UInt8)
deriving DecidableEq, Repr

namespace SourcePath

/-- The pieces of a path between slashes, without the empty ones. -/
def pieces (p : SourcePath) : List (List UInt8) :=
  (p.bytes.splitOn slash).filter (· ≠ [])

/-- The component list of a path. It starts with the root mark if the path starts with a slash. The
pieces follow in order, without the pieces `.`; but where a relative path starts with one, that one
stays. -/
def componentList (p : SourcePath) : List Component :=
  if p.bytes.head? = some slash then
    .root :: (p.pieces.filter (· ≠ dot)).map .name
  else
    match p.pieces with
    | [] => []
    | first :: later => (first :: later.filter (· ≠ dot)).map .name

/-- The root mark and the steps as one list. -/
def Components.toList (c : Components) : List Component :=
  (if c.rooted then [.root] else []) ++ c.steps.map .name

/-- The list tells whether there is a root mark, and which steps there are. -/
theorem Components.toList_injective : Function.Injective Components.toList := by
  rintro ⟨rooted, steps⟩ ⟨rooted', steps'⟩ heq
  have hname : Function.Injective Component.name := fun _ _ => Component.name.inj
  have hsteps : steps.map Component.name = steps'.map Component.name → steps = steps' :=
    fun h => hname.list_map h
  -- A step is never the root mark, so the two lists start alike only if both paths do.
  cases rooted with
  | false =>
      cases rooted' with
      | false => rw [hsteps heq]
      | true => cases steps <;> cases heq
  | true =>
      cases rooted' with
      | false => cases steps' <;> cases heq
      | true => rw [hsteps (List.cons.inj heq).2]

/-- What comes before the first slash begins as the path does, and goes on as the rest does. -/
theorem exists_splitOn_cons {b : UInt8} (hb : b ≠ slash) (rest : List UInt8) :
    ∃ first later, rest.splitOn slash = first :: later ∧
      (b :: rest).splitOn slash = (b :: first) :: later := by
  obtain ⟨first, later, hrest⟩ := List.exists_cons_of_ne_nil (List.splitOn_ne_nil slash rest)
  refine ⟨first, later, hrest, ?_⟩
  simp [List.splitOn_cons_eq_if_modifyHead, hb, hrest]

/-- The component list holds the components of the path. -/
theorem componentList_eq (p : SourcePath) : p.componentList = p.components.toList := by
  obtain ⟨bytes⟩ := p
  cases bytes with
  | nil => rfl
  | cons b rest =>
      -- The first segment is empty exactly when the path starts with a slash.
      by_cases hb : b = slash
      · subst hb
        simp [componentList, pieces, components, Components.toList,
          List.splitOn_cons_eq_if_modifyHead, Bool.and_comm]
      · obtain ⟨first, later, -, hsplit⟩ := exists_splitOn_cons hb rest
        simp [componentList, pieces, components, Components.toList, hsplit, hb, Bool.and_comm]

/-- Paths are equal when their component lists are. -/
theorem beq_iff (p q : SourcePath) : (p == q) = true ↔ p.componentList = q.componentList := by
  rw [componentList_eq, componentList_eq, Components.toList_injective.eq_iff]
  exact decide_eq_true_iff

end SourcePath

end TypeRegistry
