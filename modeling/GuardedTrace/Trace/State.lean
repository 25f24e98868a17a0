/-
The state of a trace.

A trace runs a program on symbolic values.  Its state is the operand stack, the values of the
variables read or written so far, the graph recorded so far with its inputs and layers, and the
guards of everything that was ever pushed.  A trace that meets something it cannot express breaks
off with a cause.
-/
import GuardedTrace.Code.Basic
import GuardedTrace.Config
import GuardedTrace.Graph.LayerTable
import GuardedTrace.Symbolic.Container
import GuardedTrace.Symbolic.Operand

namespace GuardedTrace

open Text (showNat)

/-- What a trace cannot express. -/
inductive UnsupportedCause where
  | finished
  | stepLimit (limit : Nat)
  | methodOf (function : Primitive) (receiver : String)
  | mapKeys (keys : Literal)
  | dictKey (key : Literal)
  | unpacking (shown : String)
  | negation (literal : Literal)
  | operation (function : Primitive) (lhs rhs : Literal)
  | returned (callee : String) (type : TypeName)
  | notCallable (key : String)
  | callAttr (name : String)
  | call (shown : String)
  | onTraced (function : Builtin)
deriving DecidableEq

def UnsupportedCause.message : UnsupportedCause → String
  | finished => "trace attempt already finished"
  | stepLimit limit => "no return within " ++ showNat limit ++ " instructions"
  | methodOf function receiver => "method " ++ function.name ++ " on " ++ receiver
  | mapKeys keys => "map keys " ++ keys.written
  | dictKey key => "dict key " ++ key.written
  | unpacking shown => "unpacking " ++ shown ++ " of unknown length"
  | negation literal => "-" ++ literal.written
  | operation function lhs rhs =>
    function.name ++ " of " ++ lhs.written ++ " and " ++ rhs.written
  | returned callee type => callee ++ "() returned " ++ type.text
  | notCallable key => "module " ++ key ++ " is not callable"
  | callAttr name => "call to attribute `" ++ name ++ "`"
  | call shown => "call to " ++ shown
  | onTraced function => function.name ++ "() on traced values"

/-- Why a trace breaks off. -/
inductive BreakCause where
  | symbolic (error : SymbolicError)
  /-- Folding a constant failed, so running fails too. -/
  | run (error : RunError)
  | unsupported (cause : UnsupportedCause)
  | dataDependentBranch (shown : String)
  | nonConstantIndex (shown : String)
  | userCall (name : String)
  | unboundName (name : String)
  | stackUnderflow
  | badOperand (operand : UInt32)
  | missingReturn
deriving DecidableEq

/-- The name of the class of a cause. -/
def BreakCause.label : BreakCause → String
  | symbolic error => error.label
  | run _ => "Host"
  | unsupported _ => "Unsupported"
  | dataDependentBranch _ => "DataDependentBranch"
  | nonConstantIndex _ => "NonConstantIndex"
  | userCall _ => "UserCall"
  | unboundName _ => "UnboundName"
  | stackUnderflow => "StackUnderflow"
  | badOperand _ => "BadOperand"
  | missingReturn => "MissingReturn"

def BreakCause.message : BreakCause → String
  | symbolic error => error.message
  | run error => "host error during constant folding: " ++ error.message
  | unsupported cause => "unsupported operation: " ++ cause.message
  | dataDependentBranch shown => "data-dependent branch on " ++ shown
  | nonConstantIndex shown => "non-constant index into " ++ shown
  | userCall name => "call to " ++ name ++ " is not inlined"
  | unboundName name => "name `" ++ name ++ "` is not bound"
  | stackUnderflow => "operand stack underflow"
  | badOperand operand => "instruction operand " ++ showNat operand.toNat ++ " out of range"
  | missingReturn => "fell off the end of the instruction stream"

/-- The place where a trace broke off, and the cause. -/
structure TraceBreak where
  pc : Nat
  /-- The opcode at that place, when an instruction was being traced. -/
  opcode : Option Opcode
  cause : BreakCause
deriving DecidableEq

def TraceBreak.message (stop : TraceBreak) : String :=
  let place := match stop.opcode with
    | some opcode => " (" ++ opcode.name ++ ")"
    | none => ""
  "graph break at " ++ showNat stop.pc ++ place ++ ": " ++ stop.cause.message

/-- A binding that feeds a placeholder of a graph. -/
structure InputBinding where
  /-- The written path of the binding. -/
  name : String
  scope : Scope
deriving DecidableEq

def InputBinding.written (input : InputBinding) : String :=
  input.scope.written ++ " '" ++ input.name ++ "'"

/-- What a completed trace yields. -/
structure TraceOutput where
  graph : Graph
  guards : GuardSet
  /-- The bindings that feed the placeholders, in the order of their first use. -/
  inputs : List InputBinding
  layers : LayerTable

/-- What a trace runs: a program, the bindings it sees, and the settings. -/
structure TraceContext where
  code : Code
  frame : Frame
  config : Config

/-- The state of a trace. -/
structure Tracer where
  pc : Nat := 0
  /-- The operand stack, topmost value first. -/
  stack : List Symbolic := []
  locals : Table String Symbolic := []
  globals : Table String Symbolic := []
  builder : Builder := {}
  layers : LayerTable := []
  inputs : List InputBinding := []
  /-- The guards of all values pushed so far. -/
  guards : GuardSet := []
  /-- The number of unknown values made so far. -/
  unknowns : Nat := 0

/-- A part of a trace: it changes the state or breaks off. -/
abbrev TraceM (α : Type) : Type := StateT Tracer (Except BreakCause) α

namespace TraceM

/-- Breaks the trace off. -/
def breakOff {α : Type} (cause : BreakCause) : TraceM α := fun _ => .error cause

/-- The answer to a question about a symbolic value; no answer breaks the trace off. -/
def ofAnswer {α : Type} : Answer α → TraceM α
  | .ok value => pure value
  | .error error => breakOff (.symbolic error)

/-- The result of a folded operation; an error breaks the trace off. -/
def ofRun {α : Type} : Run α → TraceM α
  | .ok value => pure value
  | .error error => breakOff (.run error)

/-- A value that must be present. -/
def ofOption {α : Type} (cause : BreakCause) : Option α → TraceM α
  | some value => pure value
  | none => breakOff cause

/-! ## The stack -/

/-- Pushes a value; its guards become guards of the trace. -/
def push (value : Symbolic) : TraceM Unit :=
  modify fun state =>
    { state with
      guards := GuardSet.union state.guards value.guards
      stack := value :: state.stack }

/-- Pops the topmost value. -/
def pop : TraceM Symbolic := fun state =>
  match state.stack with
  | value :: rest => .ok (value, { state with stack := rest })
  | [] => .error .stackUnderflow

/-- Pops two values, the lower one first. -/
def popTwo : TraceM (Symbolic × Symbolic) := fun state =>
  match state.stack with
  | top :: second :: rest => .ok ((second, top), { state with stack := rest })
  | _ => .error .stackUnderflow

/-- Pops a number of values, the lowest first. -/
def popMany (count : Nat) : TraceM (List Symbolic) := fun state =>
  if count ≤ state.stack.length then
    .ok ((state.stack.take count).reverse, { state with stack := state.stack.drop count })
  else .error .stackUnderflow

/-! ## The graph -/

/-- Records a node. -/
def record (operation : Operation) (operands : List Operand) : TraceM Nat := fun state =>
  let (id, builder) := state.builder.record operation operands
  .ok (id, { state with builder })

/-- The operand that represents a value. -/
def operand (value : Symbolic) : TraceM Operand := fun state =>
  match value.operand state.builder with
  | (.ok operand, builder) => .ok (operand, { state with builder })
  | (.error error, _) => .error (.symbolic error)

/-- The operands that represent values, from left to right. -/
def operands (values : List Symbolic) : TraceM (List Operand) := fun state =>
  match Symbolic.operands values state.builder with
  | (.ok operands, builder) => .ok (operands, { state with builder })
  | (.error error, _) => .error (.symbolic error)

/-- Registers a layer under its key. -/
def register (key : String) (layer : Layer) : TraceM Unit :=
  modify fun state => { state with layers := state.layers.register key layer }

/-- A value of which nothing is known, derived from operands. -/
def unknown (operands : List Symbolic) : TraceM Symbolic := fun state =>
  .ok (Symbolic.derived (.unknown (.created state.unknowns)) operands,
    { state with unknowns := state.unknowns + 1 })

end TraceM

end GuardedTrace
