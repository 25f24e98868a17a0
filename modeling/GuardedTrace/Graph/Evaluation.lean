/-
Evaluation of graphs.

`Graph.compile` checks a graph and resolves its parameters; `CompiledGraph.execute` computes the
nodes one after the other from the values of the placeholders.  The order of the nodes is an order
of computation, because a checked graph never reads a node before it is there.
-/
import GuardedTrace.Graph.Builder
import GuardedTrace.Graph.LayerTable
import GuardedTrace.Value.Call

namespace GuardedTrace

open Text (showNat)

/-- Why a graph cannot be compiled or evaluated. -/
inductive GraphError where
  | missingOutput
  /-- A node reads a node that is not computed before it. -/
  | forwardReference (node operand : Nat)
  /-- An attribute is read from other than one operand. -/
  | malformedNode (node operandCount : Nat)
  | tooLarge (nodes limit : Nat)
  | unknownLayer (key : String)
  | unresolvedParameter (target : String)
  | inputArity (expected given : Nat)
  | badSliceBound (type : TypeName)
  /-- An operation failed. -/
  | run (error : RunError)
deriving DecidableEq

/-- The name of the class of an error. -/
def GraphError.label : GraphError → String
  | missingOutput => "MissingOutput"
  | forwardReference .. => "ForwardReference"
  | malformedNode .. => "MalformedNode"
  | tooLarge .. => "GraphTooLarge"
  | unknownLayer _ => "UnknownModule"
  | unresolvedParameter _ => "UnresolvedParameter"
  | inputArity .. => "InputArity"
  | badSliceBound _ => "BadSliceBound"
  | run error => error.label

def GraphError.message : GraphError → String
  | missingOutput => "graph has no output node"
  | forwardReference node operand =>
    "node " ++ Operand.writtenNode node ++ " reads " ++ Operand.writtenNode operand
      ++ " before it is computed"
  | malformedNode node count =>
    "malformed node " ++ Operand.writtenNode node ++ ": attribute read takes 1 operand, got "
      ++ showNat count
  | tooLarge nodes limit =>
    "graph too large: " ++ showNat nodes ++ " nodes (max " ++ showNat limit ++ ")"
  | unknownLayer key => "unknown module `" ++ key ++ "`"
  | unresolvedParameter target => "unresolved parameter `" ++ target ++ "`"
  | inputArity expected given =>
    "expected " ++ showNat expected ++ " inputs, got " ++ showNat given
  | badSliceBound type => "slice bound must be an int or None, got " ++ type.text
  | run error => error.message

/-- The result of an evaluation. -/
abbrev Evaluation (α : Type) : Type := Except GraphError α

/-- An operation's result inside an evaluation. -/
def liftRun {α : Type} : Run α → Evaluation α
  | .ok value => .ok value
  | .error error => .error (.run error)

/-! ## Operands -/

/-- The bound of a slice that a value denotes. -/
def sliceBound : Value → Evaluation (Option Int64)
  | .none => .ok none
  | .int value => .ok (some value)
  | .bool value => .ok (some (Literal.wordOfBool value))
  | other => .error (.badSliceBound other.typeName)

namespace Operand

mutual

/-- The value of an operand of node `reader`, given the values of the nodes so far. -/
def evaluate (reader : Nat) (values : List Value) : Operand → Evaluation Value
  | node id =>
    match values[id]? with
    | some value => .ok value
    | none => .error (.forwardReference reader id)
  | literal value => .ok (Value.ofLiteral value)
  | tuple items => (evaluateItems reader values items).map Value.tuple
  | list items => (evaluateItems reader values items).map Value.list
  | dict entries =>
    (evaluateEntries reader values entries).map fun entries =>
      .dict (Table.ofListOrdered Key.cmp entries)
  | slice start stop step => do
    let start ← sliceBound (← evaluate reader values start)
    let stop ← sliceBound (← evaluate reader values stop)
    let step ← sliceBound (← evaluate reader values step)
    .ok (.slice ⟨start, stop, step⟩)
termination_by structural operand => operand

def evaluateItems (reader : Nat) (values : List Value) : List Operand → Evaluation (List Value)
  | [] => .ok []
  | item :: rest => do
    let value ← evaluate reader values item
    let others ← evaluateItems reader values rest
    .ok (value :: others)
termination_by structural items => items

def evaluateEntries (reader : Nat) (values : List Value) :
    List (Key × Operand) → Evaluation (List (Key × Value))
  | [] => .ok []
  | (key, item) :: rest => do
    let value ← evaluate reader values item
    let others ← evaluateEntries reader values rest
    .ok ((key, value) :: others)
termination_by structural entries => entries

end

end Operand

/-! ## Compilation -/

/-- A checked graph with the layers and parameters that it reads. -/
structure CompiledGraph where
  nodes : List Node
  layers : LayerTable
  /-- The value of every parameter node, by node number. -/
  parameters : Table Nat Value
  /-- The number of placeholders. -/
  inputCount : Nat

/-- The largest graph that is compiled when nothing else is said. -/
def defaultNodeLimit : Nat := 4096

/-- Checks a node, and adds its value when it is a parameter. -/
def Node.check (layers : LayerTable) (parameters : Table Nat Value) (node : Node) :
    Evaluation (Table Nat Value) :=
  match node.reads.find? (node.id ≤ ·) with
  | some operand => .error (.forwardReference node.id operand)
  | none =>
    match node.operation with
    | .parameter target =>
      match layers.resolve? target with
      | some value => .ok (parameters ++ [(node.id, value)])
      | none => .error (.unresolvedParameter target)
    | .callLayer target =>
      if (layers.lookup target).isSome then .ok parameters else .error (.unknownLayer target)
    | .readAttr _ =>
      if node.operands.length = 1 then .ok parameters
      else .error (.malformedNode node.id node.operands.length)
    | _ => .ok parameters

/-- Checks a graph of at most `limit` nodes and resolves its parameters. -/
def Graph.compile (limit : Nat) (graph : Graph) (layers : LayerTable) : Evaluation CompiledGraph :=
  if limit < graph.nodes.length then .error (.tooLarge graph.nodes.length limit)
  else if graph.output?.isNone then .error .missingOutput
  else do
    let parameters ← graph.nodes.foldlM (Node.check layers) []
    .ok { nodes := graph.nodes, layers, parameters, inputCount := graph.placeholders.length }

/-! ## Execution -/

namespace CompiledGraph

/-- The value of a node that is neither a placeholder nor an output. -/
def compute (compiled : CompiledGraph) (values : List Value) (node : Node) : Evaluation Value :=
  match node.operation with
  | .parameter target =>
    match compiled.parameters.lookup node.id with
    | some value => .ok value
    | none => .error (.unresolvedParameter target)
  | .callPrimitive function | .callMethod function => do
    let args ← Operand.evaluateItems node.id values node.operands
    liftRun (function.call node.id args)
  | .callLayer target =>
    match compiled.layers.lookup target with
    | none => .error (.unknownLayer target)
    | some layer => do
      let args ← Operand.evaluateItems node.id values node.operands
      liftRun (layer.forward node.id args)
  | .readAttr name => do
    match ← Operand.evaluateItems node.id values node.operands with
    | [base] => liftRun (base.getAttr node.id name)
    | args => .error (.malformedNode node.id args.length)
  | .placeholder _ | .output => .error .missingOutput

/-- Computes the nodes in order.  `inputs` are the values of the placeholders still to come and
`values` those of the nodes so far. -/
def run (compiled : CompiledGraph) : List Node → List Value → List Value → Evaluation Value
  | [], _, _ => .error .missingOutput
  | node :: rest, inputs, values =>
    match node.operation with
    | .placeholder _ =>
      match inputs with
      | input :: inputs => run compiled rest inputs (values ++ [input])
      | [] => .error (.inputArity compiled.inputCount values.length)
    | .output => do
      match ← Operand.evaluateItems node.id values node.operands with
      | result :: _ => .ok result
      | [] => .error .missingOutput
    | _ => do
      let value ← compiled.compute values node
      run compiled rest inputs (values ++ [value])

/-- Evaluates a compiled graph on the values of its placeholders, in order. -/
def execute (compiled : CompiledGraph) (inputs : List Value) : Evaluation Value :=
  if inputs.length = compiled.inputCount then run compiled compiled.nodes inputs []
  else .error (.inputArity compiled.inputCount inputs.length)

end CompiledGraph

end GuardedTrace
