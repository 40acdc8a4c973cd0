import TypeRegistry.Class.Change

/-!
# Calls

The operations on a store as data, so that a run of a program is a list of calls. A call goes
through a class reference, of which only the block counts.

## Main definitions

* `Call`: an operation with its arguments.
* `Store.perform`: the outcome of a call.
* `Store.run`: the store after a run of calls.
-/

namespace TypeRegistry

/-- An operation on a store with its arguments. -/
inductive Call where
  /-- Makes a class. -/
  | create (name : String) (table : SymbolTable)
  /-- Makes a class with these ancestors. -/
  | createWithAncestors (name : String) (table : SymbolTable) (ancestors : List ClassRef)
  /-- Replaces the resolution order of a class. -/
  | replaceMro (c : ClassRef) (mro : List ClassRef)
  /-- Appends to the resolution order of a class. -/
  | extendMro (c entry : ClassRef)
  /-- Appends to the bases of a class. -/
  | addBase (c : ClassRef) (base : Ty)
  | sealClass (c : ClassRef)

/-- The class a call changes. A call that makes a class has none. -/
def Call.receiver? : Call → Option ClassRef
  | .create .. | .createWithAncestors .. => none
  | .replaceMro c _ | .extendMro c _ | .addBase c _ | .sealClass c => some c

namespace Store

/-- The outcome of a call; its value is the class that the call made, if it made one. -/
def perform (s : Store) : Call → Outcome (Option ClassRef)
  | .create name table => (s.create name table).map some
  | .createWithAncestors name table ancestors =>
    (s.createWithAncestors name table ancestors).map some
  | .replaceMro c mro => (s.replaceMro c.block mro).map fun _ => none
  | .extendMro c entry => (s.extendMro c.block entry).map fun _ => none
  | .addBase c base => (s.addBase c.block base).map fun _ => none
  | .sealClass c => (s.sealBlock c.block).map fun _ => none

/-- The store after a run of calls. -/
def run (s : Store) (calls : List Call) : Store :=
  calls.foldl (fun s call => (s.perform call).store) s

end Store

end TypeRegistry
