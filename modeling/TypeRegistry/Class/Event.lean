import TypeRegistry.Scope.Basic

/-!
# Log events of class metadata

Making, changing and sealing a class is logged. Refusals are logged where the scope of a new class
is incomplete and where the class is sealed; a resolution order that is refused leaves no event.
-/

namespace TypeRegistry

/-- How much attention an event deserves. -/
inductive Level where
  /-- A routine step. -/
  | trace
  /-- A step worth knowing. -/
  | debug
  /-- A refusal. -/
  | warn
deriving DecidableEq, Repr

/-- The name of a level in a log. -/
def Level.name : Level → String
  | trace => "TRACE"
  | debug => "DEBUG"
  | warn => "WARN"

/-- A log event. Each carries the name of the class concerned. -/
inductive Event where
  /-- A block was made. -/
  | created (className : String)
  /-- A scope was refused as a class body. -/
  | scopeRejected (className : String) (part : ScopePart)
  /-- The resolution order was replaced by one of this length. -/
  | mroSet (className : String) (length : Nat)
  /-- An ancestor was appended to the resolution order. -/
  | ancestorAdded (className ancestor : String)
  /-- A base was appended; `base` is its canonical text. -/
  | baseAdded (className base : String)
  /-- The block was sealed with a resolution order of this length. -/
  | sealedWith (className : String) (length : Nat)
  /-- A change of a sealed block was refused. -/
  | mutationRejected (className : String)
deriving DecidableEq, Repr

namespace Event

/-- A value that an event carries. -/
inductive Field where
  | text (s : String)
  | number (n : Nat)
deriving DecidableEq, Repr

/-- The level of an event: making and growing a block is routine, replacing its order and sealing it
are worth knowing, and a refusal is a warning. -/
def level : Event → Level
  | created .. | ancestorAdded .. | baseAdded .. => .trace
  | mroSet .. | sealedWith .. => .debug
  | scopeRejected .. | mutationRejected .. => .warn

/-- The message of an event, which does not depend on the class. -/
def message : Event → String
  | created .. => "class details created"
  | scopeRejected .. => "class scope rejected"
  | mroSet .. => "mro set"
  | ancestorAdded .. => "mro entry added"
  | baseAdded .. => "base class added"
  | sealedWith .. => "class sealed"
  | mutationRejected .. => "mutation of sealed class rejected"

/-- The name of the class that an event is about. -/
def className : Event → String
  | created className => className
  | scopeRejected className _ => className
  | mroSet className _ => className
  | ancestorAdded className _ => className
  | baseAdded className _ => className
  | sealedWith className _ => className
  | mutationRejected className => className

/-- The values that an event carries beside the class name. -/
def details : Event → List (String × Field)
  | created _ => []
  | scopeRejected _ part => [("capability", .text part.render)]
  | mroSet _ length => [("mro_len", .number length)]
  | ancestorAdded _ ancestor => [("ancestor", .text ancestor)]
  | baseAdded _ base => [("base", .text base)]
  | sealedWith _ length => [("mro_len", .number length)]
  | mutationRejected _ => []

/-- The labelled values that an event carries. -/
def fields (e : Event) : List (String × Field) :=
  ("class", .text e.className) :: e.details

end Event

end TypeRegistry
