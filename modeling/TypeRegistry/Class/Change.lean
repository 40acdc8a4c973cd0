import TypeRegistry.Class.Error
import TypeRegistry.Class.Event
import TypeRegistry.Class.Store

/-!
# Making and changing classes

Every operation gives its result, the events it logs and the store afterwards. A refused operation
leaves the store as it was. The checks come in one order: a sealed block refuses everything; then
the head of a resolution order has to be the block itself; then no further entry may be the block.

## Main definitions

* `Store.create`, `Store.createWithAncestors`: new blocks.
* `Store.replaceMro`, `Store.extendMro`, `Store.addBase`: changes of a block.
* `Store.sealBlock`: freezes a block for good.
-/

namespace TypeRegistry

/-- What an operation on a store amounts to. -/
structure Outcome (α : Type) where
  /-- The value, or why there is none. -/
  result : Except ClassError α
  events : List Event
  store : Store

/-- The outcome with its value replaced by its image. -/
def Outcome.map {α β : Type} (f : α → β) (o : Outcome α) : Outcome β where
  result := o.result.map f
  events := o.events
  store := o.store

namespace Store

/-! ### Checks -/

/-- Accepts only the block `id` itself at the head of its resolution order. -/
def requireHead (s : Store) (id : ClassId) (head : ClassRef) : Except ClassError Unit :=
  if head.block = id then .ok ()
  else .error (.foreignHead (s.className id) (s.className head.block))

/-- Accepts only other blocks among the ancestors of `id`. -/
def refuseSelf (s : Store) (id : ClassId) (ancestors : List ClassRef) : Except ClassError Unit :=
  if ancestors.any (·.block = id) then .error (.ownAncestor (s.className id)) else .ok ()

/-- Changes the block `id`, unless it is sealed or the change is refused. -/
def mutate (s : Store) (id : ClassId)
    (change : ClassBlock → Except ClassError (ClassBlock × List Event)) : Outcome Unit :=
  if s.isSealed id then
    ⟨.error (.frozen (s.className id)), [.mutationRejected (s.className id)], s⟩
  else
    match change (s.block id) with
    -- A refused change is not logged.
    | .error e => ⟨.error e, [], s⟩
    | .ok (b, events) => ⟨.ok (), events, s.set id b⟩

/-! ### Changes -/

/-- The block `b` of `id` with another resolution order. One that is not empty has to start with the
block itself and must not name it again; an empty one takes the order back to its start. -/
def reorder (s : Store) (id : ClassId) (b : ClassBlock) :
    List ClassRef → Except ClassError ClassBlock
  | [] => .ok { b with linearized := false, ancestors := [] }
  | head :: rest => do
    s.requireHead id head
    s.refuseSelf id rest
    return { b with linearized := true, ancestors := rest.map (·.block) }

/-- Replaces the resolution order. -/
def replaceMro (s : Store) (id : ClassId) (mro : List ClassRef) : Outcome Unit :=
  s.mutate id fun b =>
    (s.reorder id b mro).map fun b =>
      -- The head is not stored, and counts by the mark of a started order.
      (b, [.mroSet b.name (b.ancestors.length + b.linearized.toNat)])

/-- Appends an entry to the resolution order. The first entry has to be the block itself, and a
later one another block. -/
def extendMro (s : Store) (id : ClassId) (entry : ClassRef) : Outcome Unit :=
  s.mutate id fun b =>
    if b.linearized then
      (s.refuseSelf id [entry]).map fun _ =>
        ({ b with ancestors := b.ancestors ++ [entry.block] },
          [.ancestorAdded b.name (s.className entry.block)])
    else
      -- The head stands for the block itself, so it is marked and not stored; nor is it logged.
      (s.requireHead id entry).map fun _ => ({ b with linearized := true }, [])

/-- Appends a declared base. -/
def addBase (s : Store) (id : ClassId) (base : Ty) : Outcome Unit :=
  s.mutate id fun b =>
    .ok ({ b with bases := b.bases ++ [base] }, [.baseAdded b.name (s.render base)])

/-- Freezes a block. Freezing it again does nothing. -/
def sealBlock (s : Store) (id : ClassId) : Outcome Unit :=
  let b := s.block id
  if b.isSealed then ⟨.ok (), [], s⟩
  else
    ⟨.ok (), [.sealedWith b.name (b.ancestors.length + b.linearized.toNat)],
      s.set id { b with isSealed := true }⟩

/-! ### New blocks -/

/-- Makes a block for a class body. The scope has to provide both maps. -/
def create (s : Store) (name : String) (table : SymbolTable) : Outcome ClassRef :=
  match table.missingPart? with
  | some part => ⟨.error (.incompleteScope name part), [.scopeRejected name part], s⟩
  | none =>
    ⟨.ok (.ofBlock s.nextId), [.created name], { s with blocks := s.blocks.push { name, table } }⟩

/-- Makes a block whose resolution order is the block itself and these ancestors, or not started if
there are none. -/
def createWithAncestors (s : Store) (name : String) (table : SymbolTable)
    (ancestors : List ClassRef) : Outcome ClassRef :=
  let made := s.create name table
  match made.result, ancestors with
  | .error _, _ | .ok _, [] => made
  | .ok c, _ :: _ =>
    -- The head is the block just made, which no ancestor can be, so this is never refused.
    let ordered := made.store.replaceMro c.block (c :: ancestors)
    ⟨ordered.result.map fun _ => c, made.events ++ ordered.events, ordered.store⟩

end Store

end TypeRegistry
