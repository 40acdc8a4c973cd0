import TypeRegistry.Text.Quoted
import TypeRegistry.Text.Utf8

/-!
# Source paths

The path of a source file is any byte sequence. It is printed as it is spelled, and compared by what
it names step by step: repeated and trailing slashes say nothing, nor does a `.` anywhere but at the
start of a relative path, while `..` is a step like any other.

## Main definitions

* `SourcePath.components`: what two paths are compared by.
* `SourcePath.display`, `SourcePath.quoted`: the two texts of a path.
* `SourcePath.canonical`: the shortest spelling with the same components.
-/

namespace TypeRegistry

/-- A path, as the bytes that spell it. -/
structure SourcePath where
  bytes : List UInt8

namespace SourcePath

/-- What a path names: where it starts, and the steps from there. -/
structure Components where
  /-- Whether the path starts at the root. -/
  rooted : Bool
  /-- The names between the slashes. -/
  steps : List (List UInt8)
deriving DecidableEq, Repr

/-- The byte that separates steps. -/
def slash : UInt8 := 0x2F

/-- The step that stays where it is. -/
def dot : List UInt8 := [0x2E]

/-- The components of a path. Of the segments between slashes, the first is a step unless it is
empty, and a later one unless it is empty or `.`. -/
def components (p : SourcePath) : Components where
  rooted := p.bytes.head? = some slash
  steps :=
    match p.bytes.splitOn slash with
    | [] => []
    | first :: later =>
      [first].filter (· ≠ []) ++ later.filter (fun segment => segment ≠ [] ∧ segment ≠ dot)

/-- The spelling of components with one slash between two steps. -/
def Components.spelling (c : Components) : List UInt8 :=
  (if c.rooted then [slash] else []) ++ [slash].intercalate c.steps

/-- The path with the same components that has no needless byte. -/
def canonical (p : SourcePath) : SourcePath :=
  ⟨p.components.spelling⟩

/-- Paths are equal for `==` when their components are. -/
instance : BEq SourcePath where
  beq p q := p.components = q.components

/-- The path that a text spells. -/
def ofString (s : String) : SourcePath :=
  ⟨Text.Utf8.encode s⟩

/-- The path as text for a reader. -/
def display (p : SourcePath) : String :=
  Text.Utf8.decodeLossy p.bytes

/-- The escaped form of a piece of a path: ill-formed bytes are written one by one. -/
def escapePiece : Text.Utf8.Piece → List Char
  | .scalar c => Text.escape c
  | .illFormed bytes => bytes.flatMap Text.escapeByte

/-- The path between double quotes, from which its bytes can be read back. -/
def quoted (p : SourcePath) : String :=
  Text.enclose ((Text.Utf8.pieces p.bytes).flatMap escapePiece)

end SourcePath

end TypeRegistry
