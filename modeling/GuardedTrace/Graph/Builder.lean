/-
Recording of graphs.

A builder holds the nodes recorded so far.  A request for a node that was recorded before, with the
same operation and the same operands, is answered with the earlier node, and both share its value.
Applying the operation twice would give that value twice, except for objects: an operation that
makes an object, as reading a method does, makes another one each time, and comparing the two for
equality tells whether their node was shared.  Beside it stands `Builder.append`, which records
every request as a node of its own.
-/
import GuardedTrace.Graph.Basic

namespace GuardedTrace

/-- The nodes recorded so far. -/
structure Builder where
  /-- The node at position `i` has the number `i`. -/
  nodes : Array Node := #[]
  /-- Every node reads only nodes before it. -/
  ordered : Bool := true
deriving DecidableEq

namespace Builder

/-- The first position behind all nodes that operands read. -/
def behindReads (operands : List Operand) : Nat :=
  (Operand.readsItems operands).foldl (fun position id => max position (id + 1)) 0

/-- The position from which a node with these operands is looked for: where every node reads only
nodes before it, none can stand before the nodes that it reads. -/
def searchStart (builder : Builder) (operands : List Operand) : Nat :=
  if builder.ordered then behindReads operands else 0

/-- The number of the first node with this operation and these operands. -/
def find? (builder : Builder) (operation : Operation) (operands : List Operand) : Option Nat :=
  let start := builder.searchStart operands
  ((builder.nodes.extract start).findIdx? fun node =>
    Operand.sameItems node.operands operands && node.operation = operation).map (start + ·)

/-- Records a node of its own. -/
def append (builder : Builder) (operation : Operation) (operands : List Operand) : Nat × Builder :=
  (builder.nodes.size,
    { nodes := builder.nodes.push ⟨builder.nodes.size, operation, operands⟩
      ordered := builder.ordered && behindReads operands ≤ builder.nodes.size })

/-- Records a node, unless there is one like it. -/
def record (builder : Builder) (operation : Operation) (operands : List Operand) : Nat × Builder :=
  match builder.find? operation operands with
  | some id => (id, builder)
  | none => builder.append operation operands

/-- The graph of the recorded nodes with an output. -/
def finish (builder : Builder) (output : Operand) : Graph :=
  ⟨builder.nodes.toList ++ [⟨builder.nodes.size, .output, [output]⟩]⟩

end Builder

end GuardedTrace
