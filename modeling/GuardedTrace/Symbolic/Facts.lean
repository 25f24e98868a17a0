/-
What a trace knows about the array that a node computes.

Every part may be unknown.  With dynamic shapes the shape and the strides of inputs stay unknown,
and queries for them become nodes of the graph.  The functions below infer the facts of a result
from the facts of its operands.  The rank, the shape and the strides that are inferred for the
result of a primitive are those that computing gives, where they are known.  The inferred element
type and device need not be, and neither need the shape that is inferred for the output of a layer.
-/
import GuardedTrace.Array.Basic

namespace GuardedTrace

/-- The known parts of the array computed by a node. -/
structure ArrayFacts where
  node : Nat
  elementType : Option ElementType := none
  device : Option Device := none
  rank : Option Nat := none
  shape : Option (List Nat) := none
  strides : Option (List Nat) := none
deriving DecidableEq

namespace ArrayFacts

/-- Nothing is known. -/
def unknown (node : Nat) : ArrayFacts := { node }

/-- The facts of a given array; without shape and strides when shapes are dynamic. -/
def ofArray (node : Nat) (array : NumArray) (dynamicShapes : Bool) : ArrayFacts :=
  { node
    elementType := some array.elementType
    device := some array.device
    rank := some array.rank
    shape := if dynamicShapes then none else some array.shape
    strides := if dynamicShapes then none else some array.strides }

/-- The facts of a number. -/
def scalar (node : Nat) (elementType : Option ElementType) : ArrayFacts :=
  { node, elementType, rank := some 0, shape := some [], strides := some [] }

/-- The promoted element type of two operands; an unknown one is left out of account. -/
def promoted? : Option ElementType → Option ElementType → Option ElementType
  | some a, some b => some (a.promote b)
  | some a, none => some a
  | none, b => b

/-- Shape, rank and device of an elementwise combination. -/
def combined : Option ArrayFacts → Option ArrayFacts →
    Option (List Nat) × Option Nat × Option Device
  | some a, some b =>
    if a.rank = some 0 then (b.shape, b.rank, b.device)
    else if b.rank = some 0 then (a.shape, a.rank, a.device)
    else
      (if a.shape = b.shape then a.shape else none, if a.rank = b.rank then a.rank else none,
        a.device.or b.device)
  | some only, none | none, some only => (only.shape, only.rank, only.device)
  | none, none => (none, none, none)

/-- The facts of an elementwise primitive applied to one or two operands. -/
def broadcast (node : Nat) (operation : Primitive) (lhs rhs : Option ArrayFacts) : ArrayFacts :=
  let promoted := promoted? (lhs.bind elementType) (rhs.bind elementType)
  let elementType :=
    if operation.isComparison then some ElementType.bool
    else if operation = .div then promoted.map ElementType.quotient
    else promoted
  let (shape, rank, device) := combined lhs rhs
  { node, elementType, device, rank, shape, strides := shape.map rowMajorStrides }

/-- The facts of a sum of all elements. -/
def reduced (node : Nat) (array : ArrayFacts) : ArrayFacts :=
  { scalar node array.elementType with device := array.device }

/-- The facts of a row along the first dimension. -/
def selected (node : Nat) (array : ArrayFacts) : ArrayFacts :=
  let shape := array.shape.bind fun
    | [] => none
    | _ :: rest => some rest
  { node
    elementType := array.elementType
    device := array.device
    rank := array.rank.bind fun
      | 0 => none
      | rank + 1 => some rank
    shape
    strides := shape.map rowMajorStrides }

end ArrayFacts

end GuardedTrace
