import TypeRegistry.Debug.Node
import TypeRegistry.Scope.Basic
import TypeRegistry.Shape.Render

/-!
# The class store

A class body has a block: its name, its symbol table, its method resolution order, its bases, and
whether it is sealed. A store holds the blocks in the order of their creation; none is ever removed,
so a reference that was once given stays good.

The resolution order (MRO) of a block starts with the block itself, which is therefore not stored.
It is either not started, and then empty, or the block followed by its ancestors, nearest first.
Entries are blocks, so what is read back are class objects, whatever flavors were put in.

## Main definitions

* `ClassBlock`, `Store`: the data.
* `Store.mro`, `Store.mroLength`, `Store.bases`, `Store.isSealed`: what is read of a block.
* `Store.view`: a type with names in place of its blocks.
-/

namespace TypeRegistry

/-- What is known of one class body. -/
structure ClassBlock where
  /-- The name of the class. -/
  name : String
  /-- The scope of the class body as it was when the block was made. -/
  table : SymbolTable
  /-- Whether the resolution order is started. -/
  linearized : Bool := false
  /-- The blocks after this one in its resolution order. -/
  ancestors : List ClassId := []
  /-- The declared bases, in the order of the source. -/
  bases : List Ty := []
  /-- Whether the block is frozen. -/
  isSealed : Bool := false

namespace ClassBlock

/-- The block read where there is none. -/
instance : Inhabited ClassBlock := ⟨{ name := "", table := {} }⟩

/-- The resolution order of the block `id`, the block itself first. -/
def mro (b : ClassBlock) (id : ClassId) : List ClassRef :=
  if b.linearized then (id :: b.ancestors).map ClassRef.ofBlock else []

/-- The length of the resolution order, counted without building it. -/
def mroLength (b : ClassBlock) : Nat :=
  if b.linearized then b.ancestors.length + 1 else 0

/-- An order that is not started reads as empty, whatever ancestors are kept. -/
theorem mro_of_fresh {b : ClassBlock} {id : ClassId} (hfresh : b.linearized = false) :
    b.mro id = [] := by
  rw [mro, if_neg (by simp [hfresh])]

/-- A started order reads as the block and its ancestors. -/
theorem mro_of_started {b : ClassBlock} {id : ClassId} (hstarted : b.linearized = true) :
    b.mro id = .ofBlock id :: b.ancestors.map .ofBlock := by
  rw [mro, if_pos hstarted, List.map_cons]

/-- A resolution order is empty, or its block is its head and the rest are the ancestors. -/
theorem mro_eq_nil_or_cons (b : ClassBlock) (id : ClassId) :
    b.mro id = [] ∨ b.mro id = .ofBlock id :: b.ancestors.map .ofBlock := by
  cases hstarted : b.linearized with
  | false => exact .inl (mro_of_fresh hstarted)
  | true => exact .inr (mro_of_started hstarted)

/-- Every entry that is read is the class object of the block itself or of an ancestor. -/
theorem exists_block_of_mem_mro {b : ClassBlock} {id : ClassId} {entry : ClassRef}
    (hentry : entry ∈ b.mro id) : ∃ other ∈ id :: b.ancestors, entry = .ofBlock other := by
  rcases b.mro_eq_nil_or_cons id with hnil | hcons
  · rw [hnil] at hentry
    cases hentry
  · rw [hcons, ← List.map_cons] at hentry
    obtain ⟨other, hother, rfl⟩ := List.mem_map.1 hentry
    exact ⟨other, hother, rfl⟩

/-- The length is that of the resolution order as it is read. -/
theorem length_mro (b : ClassBlock) (id : ClassId) : (b.mro id).length = b.mroLength := by
  unfold mro mroLength
  split <;> simp

end ClassBlock

/-- All class blocks, by order of creation. -/
structure Store where
  blocks : Array ClassBlock := #[]

namespace Store

/-- The store without blocks. -/
def empty : Store := {}

/-- The block of an identifier, or an empty one where there is none. -/
def block (s : Store) (id : ClassId) : ClassBlock :=
  s.blocks[id.index]?.getD default

/-- The store with another block in the place of an identifier. -/
def set (s : Store) (id : ClassId) (b : ClassBlock) : Store :=
  { s with blocks := s.blocks.setIfInBounds id.index b }

/-- The identifier of the next block. -/
def nextId (s : Store) : ClassId :=
  ⟨s.blocks.size⟩

/-- The name of a class. -/
def className (s : Store) (id : ClassId) : String :=
  (s.block id).name

/-- The symbol table of a class body. -/
def table (s : Store) (id : ClassId) : SymbolTable :=
  (s.block id).table

/-- The resolution order of a block, the block itself first. Empty until it is set. -/
def mro (s : Store) (id : ClassId) : List ClassRef :=
  (s.block id).mro id

/-- The length of the resolution order of a block. -/
def mroLength (s : Store) (id : ClassId) : Nat :=
  (s.block id).mroLength

/-- The declared bases of a block, in the order of the source. -/
def bases (s : Store) (id : ClassId) : List Ty :=
  (s.block id).bases

/-- Whether a block is frozen. -/
def isSealed (s : Store) (id : ClassId) : Bool :=
  (s.block id).isSealed

/-- The declaration that binds a name directly in the class body. -/
def lookup? (s : Store) (id : ClassId) (name : String) : Option Declaration :=
  (s.table id).lookup? name

/-- All declarations of a name directly in the class body, oldest first. -/
def overloadsOf (s : Store) (id : ClassId) (name : String) : List Declaration :=
  (s.table id).overloadsOf name

/-! ### Texts -/

/-- What the texts of a class type show. -/
def classView (s : Store) (c : ClassRef) : ClassView :=
  ⟨s.className c.block, c.flavor⟩

/-- What the texts of a type show. -/
def view (s : Store) (t : Ty) : TypeView :=
  t.map s.classView id

/-- The canonical text of a type. -/
def render (s : Store) (t : Ty) : String :=
  (s.view t).render

/-- The names in the resolution order of a block. -/
def mroNames (s : Store) (id : ClassId) : List String :=
  (s.mro id).map fun c => s.className c.block

/-- The debug tree of a block: its name, the names in its resolution order, and whether it is
sealed. The rest is not shown. -/
def describe (s : Store) (id : ClassId) : Debug.Node :=
  .record "ClassDetailsShared"
    [("class_name", .text (s.className id)),
      ("mro", .list ((s.mroNames id).map .text)),
      ("sealed", .bool (s.isSealed id))] true

/-! ### Reading after writing -/

/-- What is written under an identifier in use is read back. -/
theorem block_set_self {s : Store} {id : ClassId} (h : id.index < s.blocks.size) (b : ClassBlock) :
    (s.set id b).block id = b := by
  simp [block, set, h]

/-- A write leaves the blocks under other identifiers as they are. -/
theorem block_set_of_ne {s : Store} {id other : ClassId} (h : other ≠ id) (b : ClassBlock) :
    (s.set id b).block other = s.block other := by
  have : id.index ≠ other.index := fun e => h (by cases id; cases other; simp_all)
  simp [block, set, this]

@[simp]
theorem size_set (s : Store) (id : ClassId) (b : ClassBlock) :
    (s.set id b).blocks.size = s.blocks.size := by
  simp [set]

end Store

end TypeRegistry
