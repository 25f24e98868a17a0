/-
Dataflow graphs.

A graph is a list of nodes.  A node applies an operation to operands, and an operand is another
node, a literal, or a container of operands.  In a finished graph the last node is the output, and
its operand is what the graph computes.
-/
import GuardedTrace.Literal
import GuardedTrace.Text.Blank

namespace GuardedTrace

/-- What a node reads. -/
inductive Operand where
  | node (id : Nat)
  | literal (value : Literal)
  | tuple (items : List Operand)
  | list (items : List Operand)
  /-- Entries in the order in which they were given. -/
  | dict (entries : List (Key × Operand))
  | slice (start stop step : Operand)

namespace Operand

/-! ## Equality -/

mutual

/-- Whether two operands are the same. -/
def same : Operand → Operand → Bool
  | node a, node b => a == b
  | literal a, literal b => a == b
  | tuple a, tuple b => sameItems a b
  | list a, list b => sameItems a b
  | dict a, dict b => sameEntries a b
  | slice a b c, slice x y z => same a x && same b y && same c z
  | _, _ => false
termination_by structural a => a

def sameItems : List Operand → List Operand → Bool
  | [], [] => true
  | a :: as, b :: bs => same a b && sameItems as bs
  | _, _ => false
termination_by structural as => as

def sameEntries : List (Key × Operand) → List (Key × Operand) → Bool
  | [], [] => true
  | (k, a) :: as, (l, b) :: bs => k == l && same a b && sameEntries as bs
  | _, _ => false
termination_by structural as => as

end

mutual

theorem same_iff : ∀ a b : Operand, same a b = true ↔ a = b
  | node _, b => by cases b <;> simp [same]
  | literal _, b => by cases b <;> simp [same]
  | tuple as, b => by cases b <;> simp [same, sameItems_iff as]
  | list as, b => by cases b <;> simp [same, sameItems_iff as]
  | dict as, b => by cases b <;> simp [same, sameEntries_iff as]
  | slice a b c, x => by cases x <;> simp [same, same_iff a, same_iff b, same_iff c, and_assoc]
termination_by structural a => a

theorem sameItems_iff : ∀ as bs : List Operand, sameItems as bs = true ↔ as = bs
  | [], bs => by cases bs <;> simp [sameItems]
  | a :: as, bs => by cases bs <;> simp [sameItems, same_iff a, sameItems_iff as]
termination_by structural as => as

theorem sameEntries_iff : ∀ as bs : List (Key × Operand), sameEntries as bs = true ↔ as = bs
  | [], bs => by cases bs <;> simp [sameEntries]
  | (k, a) :: as, bs => by
    cases bs with
    | nil => simp [sameEntries]
    | cons entry bs =>
      obtain ⟨l, b⟩ := entry
      simp [sameEntries, same_iff a, sameEntries_iff as]
termination_by structural as => as

end

instance : DecidableEq Operand := fun a b => decidable_of_iff _ (same_iff a b)

/-! ## The nodes an operand reads -/

mutual

/-- The nodes that an operand mentions, in order and with repetitions. -/
def reads : Operand → List Nat
  | node id => [id]
  | literal _ => []
  | tuple items => readsItems items
  | list items => readsItems items
  | dict entries => readsEntries entries
  | slice start stop step => reads start ++ reads stop ++ reads step
termination_by structural operand => operand

def readsItems : List Operand → List Nat
  | [] => []
  | item :: rest => reads item ++ readsItems rest
termination_by structural items => items

def readsEntries : List (Key × Operand) → List Nat
  | [] => []
  | (_, item) :: rest => reads item ++ readsEntries rest
termination_by structural entries => entries

end

/-! ## Text -/

/-- A node as it is written. -/
def writtenNode (id : Nat) : String := "%" ++ Text.showNat id

mutual

/-- An operand as it is written. -/
def written : Operand → String
  | node id => writtenNode id
  | literal value => value.written
  | tuple items => "(" ++ Text.joinWith ", " (writtenItems items) ++ ")"
  | list items => "[" ++ Text.joinWith ", " (writtenItems items) ++ "]"
  | dict entries => "\x7b" ++ Text.joinWith ", " (writtenEntries entries) ++ "\x7d"
  | slice start stop step =>
    "slice(" ++ written start ++ ", " ++ written stop ++ ", " ++ written step ++ ")"
termination_by structural operand => operand

def writtenItems : List Operand → List String
  | [] => []
  | item :: rest => written item :: writtenItems rest
termination_by structural items => items

def writtenEntries : List (Key × Operand) → List String
  | [] => []
  | (key, item) :: rest => (key.written ++ ": " ++ written item) :: writtenEntries rest
termination_by structural entries => entries

end

end Operand

/-- What a node computes from its operands. -/
inductive Operation where
  /-- An input, named by the path of a binding. -/
  | placeholder (name : String)
  /-- A member of a registered layer, written `<key>.<member>`. -/
  | parameter (target : String)
  | callPrimitive (function : Primitive)
  /-- A method of an array, which is the first operand. -/
  | callMethod (function : Primitive)
  /-- A call of a registered layer. -/
  | callLayer (target : String)
  /-- An attribute of the first operand. -/
  | readAttr (name : String)
  | output
deriving DecidableEq

namespace Operation

/-- The name of an operation in the text of a graph. -/
def label : Operation → String
  | placeholder _ => "placeholder"
  | parameter _ => "get_attr"
  | callPrimitive _ => "call_function"
  | callMethod _ => "call_method"
  | callLayer _ => "call_module"
  | readAttr _ => "attribute"
  | output => "output"

/-- What an operation refers to, in the text of a graph. -/
def target : Operation → String
  | placeholder name => name
  | parameter target => target
  | callPrimitive function => function.name
  | callMethod function => function.name
  | callLayer target => target
  | readAttr name => name
  | output => "output"

/-- Whether an operation computes, and not only fetches. -/
def isCall : Operation → Bool
  | callPrimitive _ | callMethod _ | callLayer _ => true
  | _ => false

end Operation

/-- A node of a graph. -/
structure Node where
  id : Nat
  operation : Operation
  operands : List Operand
deriving DecidableEq

/-- The nodes that a node reads, in order and with repetitions. -/
def Node.reads (node : Node) : List Nat := Operand.readsItems node.operands

/-- A finished graph. -/
structure Graph where
  nodes : List Node
deriving DecidableEq

namespace Graph

/-- The names of the inputs, in order. -/
def placeholders (graph : Graph) : List String :=
  graph.nodes.filterMap fun node =>
    match node.operation with
    | .placeholder name => some name
    | _ => none

/-- What the graph computes: the first operand of the last node, if that is an output. -/
def output? (graph : Graph) : Option Operand := do
  let last ← graph.nodes.getLast?
  if last.operation = .output then last.operands.head? else none

/-- The number of calls. -/
def callCount (graph : Graph) : Nat := graph.nodes.countP (·.operation.isCall)

/-- A row of the text of a graph. -/
def row (id label target operands : String) : String :=
  Text.padRight 8 id ++ " " ++ Text.padRight 14 label ++ " " ++ Text.padRight 20 target ++ " "
    ++ operands

/-- The rows of the text of a graph: a heading, then one row per node. -/
def rows (graph : Graph) : List String :=
  row "node" "opcode" "target" "args" :: graph.nodes.map fun node =>
    row (Operand.writtenNode node.id) node.operation.label node.operation.target
      (Text.joinWith ", " (node.operands.map Operand.written))

/-- The text of a graph, line by line.  A row is one line, unless a text in it contains a line
break. -/
def lines (graph : Graph) : List String :=
  graph.rows.flatMap fun row =>
    (Text.lines row.toList).map fun line => String.ofList (Text.dropReturn line)

end Graph

end GuardedTrace
