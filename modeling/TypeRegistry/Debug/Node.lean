import TypeRegistry.SourcePath

/-!
# Debug text

A value is shown for debugging through a tree of words, numbers, quoted texts, wrapped values,
lists, maps and records. The tree has two layouts: on one line, and with every part on a line of
its own.

## Main definitions

* `Debug.Node`: the tree.
* `Debug.Node.plain`: the layout on one line.
* `Debug.Node.pretty`: the layout on many lines, four spaces deeper at each level.
-/

namespace TypeRegistry.Debug

/-- What is shown of a value. -/
inductive Node where
  /-- A bare word. -/
  | word (w : String)
  | number (n : Nat)
  /-- A text, shown in quotes. -/
  | text (s : String)
  /-- A path, shown in quotes. -/
  | path (p : SourcePath)
  /-- A value inside a named wrapper. -/
  | variant (name : String) (payload : Node)
  | list (items : List Node)
  /-- A map, as its entries. -/
  | table (entries : List (Node × Node))
  /-- A record. One that is elided has fields that are not shown. -/
  | record (name : String) (fields : List (String × Node)) (elided : Bool)

namespace Node

/-- An optional value. -/
def option : Option Node → Node
  | none => word "None"
  | some node => variant "Some" node

/-- A truth value. -/
def bool (b : Bool) : Node :=
  word (if b then "true" else "false")

/-- The mark for fields that are not shown. -/
def elision (elided : Bool) : List String :=
  if elided then [".."] else []

/-! ### On one line -/

mutual

/-- The layout on one line. -/
def plain : Node → String
  | word w => w
  | number n => n.repr
  | text s => Text.quote s
  | path p => p.quoted
  | variant name payload => name ++ "(" ++ plain payload ++ ")"
  | list items => "[" ++ ", ".intercalate (plainItems items) ++ "]"
  | table entries => "\x7b" ++ ", ".intercalate (plainEntries entries) ++ "\x7d"
  | record name fields elided =>
    name ++ " \x7b " ++ ", ".intercalate (plainFields fields ++ elision elided) ++ " \x7d"

/-- The items of a list, each on one line. -/
def plainItems : List Node → List String
  | [] => []
  | node :: nodes => plain node :: plainItems nodes

/-- The entries of a map, each with its key on one line. -/
def plainEntries : List (Node × Node) → List String
  | [] => []
  | (key, value) :: entries => (plain key ++ ": " ++ plain value) :: plainEntries entries

/-- The fields of a record, each with its label on one line. -/
def plainFields : List (String × Node) → List String
  | [] => []
  | (label, value) :: fields => (label ++ ": " ++ plain value) :: plainFields fields

end

/-! ### On many lines -/

/-- The blanks before a line at the given depth. -/
def indentation (depth : Nat) : String :=
  String.ofList (List.replicate (4 * depth) ' ')

/-- Lines between an opening and a closing bracket, one level deeper than the brackets. -/
def block (depth : Nat) (opening : String) (lines : List String) (closing : String) : String :=
  opening ++ "\n" ++
    String.join (lines.map fun line => indentation (depth + 1) ++ line ++ "\n") ++
    indentation depth ++ closing

/-- The lines of parts that end in a comma. -/
def commaLines (parts : List String) : List String :=
  parts.map (· ++ ",")

mutual

/-- The layout on many lines, for a value that starts on a line of the given depth. -/
def prettyAt (depth : Nat) : Node → String
  | word w => w
  | number n => n.repr
  | text s => Text.quote s
  | path p => p.quoted
  | variant name payload =>
    block depth (name ++ "(") (commaLines [prettyAt (depth + 1) payload]) ")"
  -- Empty brackets stay on their line.
  | list [] => "[]"
  | list (item :: items) =>
    block depth "[" (commaLines (prettyAt (depth + 1) item :: prettyItems (depth + 1) items)) "]"
  | table [] => "\x7b\x7d"
  | table ((key, value) :: entries) =>
    block depth "\x7b"
      (commaLines ((prettyAt (depth + 1) key ++ ": " ++ prettyAt (depth + 1) value) ::
        prettyEntries (depth + 1) entries))
      "\x7d"
  | record name fields elided =>
    -- The mark for fields that are not shown takes no comma.
    block depth (name ++ " \x7b") (commaLines (prettyFields (depth + 1) fields) ++ elision elided)
      "\x7d"

/-- The items of a list, each starting on a line of the given depth. -/
def prettyItems (depth : Nat) : List Node → List String
  | [] => []
  | node :: nodes => prettyAt depth node :: prettyItems depth nodes

/-- The entries of a map, each starting on a line of the given depth. -/
def prettyEntries (depth : Nat) : List (Node × Node) → List String
  | [] => []
  | (key, value) :: entries =>
    (prettyAt depth key ++ ": " ++ prettyAt depth value) :: prettyEntries depth entries

/-- The fields of a record, each starting on a line of the given depth. -/
def prettyFields (depth : Nat) : List (String × Node) → List String
  | [] => []
  | (label, value) :: fields =>
    (label ++ ": " ++ prettyAt depth value) :: prettyFields depth fields

end

/-- The layout on many lines. -/
def pretty (node : Node) : String :=
  node.prettyAt 0

end Node

end TypeRegistry.Debug
