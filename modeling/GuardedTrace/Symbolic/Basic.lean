/-
Symbolic values: what a trace knows of the values of a run.

A symbolic value has a *kind*, which says what is known; a *support state*, which says whether the
value can take part in a graph; the *guards* under which the knowledge is right; and the name of
the binding it was read from, if any.  A value derived from operands carries the guards of all of
them and is supported no better than the worst.
-/
import GuardedTrace.Graph.Basic
import GuardedTrace.Guard.Basic
import GuardedTrace.Symbolic.Facts

namespace GuardedTrace

open Text (showNat showInt)

/-- How far a value can be traced. -/
inductive Support where
  | unknown
  | supported
  | unsupported
deriving DecidableEq

namespace Support

def rank : Support → Nat
  | unknown => 0
  | supported => 1
  | unsupported => 2

def label : Support → String
  | unknown => "Unknown"
  | supported => "Supported"
  | unsupported => "Unsupported"

/-- The support states, in their order. -/
def all : List Support := [unknown, supported, unsupported]

/-- The state of a combination: the greater one. -/
def combine (a b : Support) : Support := if a.rank ≤ b.rank then b else a

end Support

/-- The containers whose items a trace follows one by one. -/
inductive SequenceKind where
  | list
  | tuple
  /-- The three bounds of a slice. -/
  | slice
deriving DecidableEq

namespace SequenceKind

def typeName : SequenceKind → TypeName
  | list => .list
  | tuple => .tuple
  | slice => .slice

def label : SequenceKind → String
  | list => "List"
  | tuple => "Tuple"
  | slice => "Slice"

def rank : SequenceKind → Nat
  | list => 0
  | tuple => 1
  | slice => 2

/-- The bound of a slice that a literal denotes. -/
def bound? : Literal → Option (Option Int64)
  | .none => some none
  | literal => literal.toInt?.map some

/-- The literal of a container with literal items. -/
def literal? : SequenceKind → List Literal → Option Literal
  | list, items => some (.list items)
  | tuple, items => some (.tuple items)
  | slice, [start, stop, step] => do
    let start ← bound? start
    let stop ← bound? stop
    let step ← bound? step
    some (.slice ⟨start, stop, step⟩)
  | slice, _ => none

end SequenceKind

/-- An entry of a library that a trace may use. -/
inductive HostItem where
  | primitive (function : Primitive)
  | elementType (type : ElementType)
  | device (place : Device)
deriving DecidableEq

namespace HostItem

def typeName : HostItem → TypeName
  | primitive _ => .primitive
  | elementType _ => .elementType
  | device _ => .device

/-- The value that a host item is. -/
def value : HostItem → Value
  | primitive function => .primitive function
  | elementType type => .elementType type
  | device place => .device place

/-- The host item that a value is. -/
def of? : Value → Option HostItem
  | .primitive function => some (primitive function)
  | .elementType type => some (elementType type)
  | .device place => some (device place)
  | _ => none

/-- The order of host items: primitives, element types, devices. -/
def cmp : HostItem → HostItem → Ordering
  | primitive a, primitive b => compare a.rank b.rank
  | primitive _, _ => .lt
  | elementType _, primitive _ => .gt
  | elementType a, elementType b => compare a.rank b.rank
  | elementType _, device _ => .lt
  | device a, device b => compare a.rank b.rank
  | device _, _ => .gt

end HostItem

mutual

/-- A value as far as a trace knows it. -/
structure Symbolic where
  kind : Kind
  support : Support
  guards : GuardSet
  /-- The path of the local binding that the value was read from. -/
  localName : Option String
  /-- The path of the global binding that the value was read from. -/
  globalName : Option String

/-- What is known of a value. -/
inductive Kind where
  /-- The array that a node computes. -/
  | array (facts : ArrayFacts)
  /-- The number that a node computes. -/
  | scalar (facts : ArrayFacts)
  /-- A layer and the key it is registered under when it is used. -/
  | layer (key : String) (node : Layer)
  | constant (literal : Literal)
  /-- A callable that yields a constant, or an item of it. -/
  | deferred (payload : Symbolic)
  | builtin (function : Builtin)
  /-- An iterator at a position of a list of items. -/
  | iterator (items : List Symbolic) (position : Nat)
  /-- An attribute that is read only if the value is used. -/
  | attr (holder : Symbolic) (name : String)
  | sequence (kind : SequenceKind) (items : List Symbolic)
  | dict (entries : List (Key × Symbolic))
  | routine (function : Routine)
  | method (function : Routine) (receiver : Symbolic)
  | host (item : HostItem)
  | library (space : Library)
  /-- A value that a trace cannot look into. -/
  | unsupported (value : Value) (type : TypeName)
  /-- Nothing is known; the token keeps unrelated unknown values apart. -/
  | unknown (token : Identity)

end

namespace Kind

/-- The support state of a kind by itself. -/
def support : Kind → Support
  | unsupported .. => .unsupported
  | unknown _ => .unknown
  | _ => .supported

/-- The name of a kind in descriptions of values. -/
def label : Kind → String
  | array _ => "NumericArray"
  | scalar _ => "Scalar"
  | layer .. => "StructuredObject"
  | constant _ => "Constant"
  | deferred _ => "DerivedConstant"
  | builtin _ => "Builtin"
  | iterator .. => "ListIterator"
  | attr .. => "GetAttr"
  | sequence .. => "Sequence"
  | dict _ => "ConstDict"
  | routine _ => "UserFunction"
  | method .. => "UserMethod"
  | host _ => "AllowedHost"
  | library _ => "PythonModule"
  | unsupported .. => "Unsupported"
  | unknown _ => "Unknown"

end Kind

/-- Support state and guards that a derived value inherits. -/
structure Propagation where
  support : Support
  guards : GuardSet

namespace Symbolic

/-- A value of a kind, with nothing inherited. -/
def ofKind (kind : Kind) : Symbolic :=
  { kind, support := kind.support, guards := [], localName := none, globalName := none }

def constant (literal : Literal) : Symbolic := ofKind (.constant literal)

/-- The name that a value was read from. -/
def name? (value : Symbolic) : Option String := value.localName.or value.globalName

/-! ## Description -/

mutual

/-- A value as it is described in messages: its kind, what identifies it, and its name. -/
def shown : Symbolic → String
  | ⟨kind, _, _, localName, globalName⟩ =>
    shownKind kind ++ (match localName.or globalName with
      | some name => " '" ++ name ++ "'"
      | none => "")
termination_by structural value => value

def shownKind : Kind → String
  | .array facts => "NumericArray(" ++ Operand.writtenNode facts.node ++ ")"
  | .scalar facts => "Scalar(" ++ Operand.writtenNode facts.node ++ ")"
  | .layer key _ => "StructuredObject(" ++ key ++ ")"
  | .constant literal => "Constant(" ++ literal.written ++ ")"
  | .builtin function => "Builtin(" ++ function.name ++ ")"
  | .attr holder name => "GetAttr(" ++ shown holder ++ "." ++ name ++ ")"
  | .routine function => "UserFunction(" ++ function.name ++ ")"
  | .method function _ => "UserMethod(" ++ function.name ++ ")"
  | .unsupported _ type => "Unsupported(" ++ type.text ++ ")"
  | .deferred payload => (Kind.deferred payload).label
  | .iterator items position => (Kind.iterator items position).label
  | .sequence kind items => (Kind.sequence kind items).label
  | .dict entries => (Kind.dict entries).label
  | .host item => (Kind.host item).label
  | .library space => (Kind.library space).label
  | .unknown token => (Kind.unknown token).label
termination_by structural kind => kind

end

/-! ## Derivation -/

/-- What the operands pass on: the greatest support state and all guards. -/
def propagate (values : List Symbolic) : Propagation :=
  values.foldl
    (fun acc value => ⟨acc.support.combine value.support, GuardSet.union acc.guards value.guards⟩)
    ⟨.unknown, []⟩

def inherit (value : Symbolic) (propagation : Propagation) : Symbolic :=
  { value with
    support := value.support.combine propagation.support
    guards := GuardSet.union value.guards propagation.guards }

/-- A value of a kind that is derived from operands. -/
def derived (kind : Kind) (operands : List Symbolic) : Symbolic :=
  (ofKind kind).inherit (propagate operands)

def addGuard (value : Symbolic) (guard : Guard) : Symbolic :=
  { value with guards := GuardSet.insert value.guards guard }

def addGuards (value : Symbolic) (guards : GuardSet) : Symbolic :=
  { value with guards := GuardSet.union value.guards guards }

/-- The container of a list of values. -/
def sequence (kind : SequenceKind) (items : List Symbolic) : Symbolic :=
  derived (.sequence kind items) items

/-- Whether a value is a node of the graph. -/
def isNode (value : Symbolic) : Bool :=
  match value.kind with
  | .array _ | .scalar _ => true
  | _ => false

/-! ## Bindings -/

mutual

/-- The path and the scope that a guard on this value names. -/
def binding? : Symbolic → Option (String × Scope)
  | ⟨kind, _, _, localName, globalName⟩ =>
    match localName, globalName with
    | some name, _ => some (name, .locals)
    | none, some name => some (name, .globals)
    | none, none => bindingOfKind? kind
termination_by structural value => value

def bindingOfKind? : Kind → Option (String × Scope)
  | .attr holder name => (binding? holder).map fun base => (base.1 ++ "." ++ name, base.2)
  | _ => none
termination_by structural kind => kind

end

end Symbolic

end GuardedTrace
