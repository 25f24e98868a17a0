/-
Facts about the results of graph nodes.
-/
import GuardedTrace.Symbolic.Basic

namespace GuardedTrace

/-! ## Primitives -/

namespace Symbolic

/-- The facts that an operand contributes to the result of a node. -/
def facts (value : Symbolic) (node : Nat) : ArrayFacts :=
  match value.kind with
  | .array facts | .scalar facts => facts
  | .constant (.int _) => .scalar node (some .int64)
  | .constant (.float _) => .scalar node (some .float64)
  | .constant (.bool _) => .scalar node (some .bool)
  | _ => .unknown node

/-- Whether a value is a number or a constant. -/
def isScalarLike (value : Symbolic) : Bool :=
  match value.kind with
  | .scalar _ | .constant _ => true
  | _ => false

end Symbolic

/-- What is known of an item of a container, by the kinds of container and key. -/
def itemResult (node : Nat) : List Symbolic → Kind
  | [] => .scalar (.unknown node)
  | container :: rest =>
    match container.kind with
    | .array facts =>
      match rest.head?.map Symbolic.kind with
      | some (.constant (.int _)) | some (.constant (.bool _)) => .array (.selected node facts)
      | _ =>
        .array { ArrayFacts.unknown node with
          elementType := facts.elementType
          device := facts.device }
    | _ => .scalar (.unknown node)

/-- What is known of the value that a node computes by applying a primitive to operands.  The
receiver of a method is its first operand. -/
def nodeResult (node : Nat) (function : Primitive) (operands : List Symbolic) : Kind :=
  let first := operands.head?.map (·.facts node)
  match function with
  | .sum =>
    match first with
    | some facts => .array (.reduced node facts)
    | none => .array (.unknown node)
  | .dim => .scalar (.scalar node (some .int64))
  | .size | .stride =>
    if 1 < operands.length then .scalar (.scalar node (some .int64)) else .scalar (.unknown node)
  | .getItem => itemResult node operands
  | _ =>
    let facts := ArrayFacts.broadcast node function first (operands[1]?.map (·.facts node))
    if operands.all Symbolic.isScalarLike then .scalar facts else .array facts

/-! ## Layers -/

/-- The facts of the weight of a scaling layer. -/
def weightFacts (node : Nat) (dynamicShapes : Bool) : Option Value → ArrayFacts
  | some (.array numbers) => .ofArray node numbers dynamicShapes
  | some (.int _) => .scalar node (some .int64)
  | some (.float _) => .scalar node (some .float64)
  | _ => .unknown node

namespace Layer

mutual

/-- The facts of the result of calling a layer on an input. -/
def outputFacts (node : Nat) (dynamicShapes : Bool) : Layer → Option ArrayFacts → ArrayFacts
  | ⟨_, _, kind, members⟩, input =>
    match kind with
    | .leaf .sum =>
      match input with
      | some facts => .reduced node facts
      | none => .unknown node
    | .leaf function =>
      if function.isElementwise then .broadcast node function input none else .unknown node
    | .scale =>
      .broadcast node .mul input (some (weightFacts node dynamicShapes (members.lookup "weight")))
    | .sequential => (chainFacts node dynamicShapes members input).getD (.unknown node)
    | .list | .container => .unknown node
termination_by structural layer => layer

/-- The facts after the layers among the members were called one after the other. -/
def chainFacts (node : Nat) (dynamicShapes : Bool) :
    List (String × Value) → Option ArrayFacts → Option ArrayFacts
  | [], input => input
  | (_, .layer child) :: rest, input =>
    chainFacts node dynamicShapes rest (some (outputFacts node dynamicShapes child input))
  | _ :: rest, input => chainFacts node dynamicShapes rest input
termination_by structural members => members

end

end Layer

end GuardedTrace
