/-
Symbolic values as operands of graph nodes.
-/
import GuardedTrace.Graph.Builder
import GuardedTrace.Symbolic.Constant

namespace GuardedTrace.Symbolic

mutual

/-- The operand that represents a value, and the builder after the nodes that it needs.  A lazy
attribute becomes a node here; nodes recorded before a failure stay recorded. -/
def operand : Symbolic → Builder → Answer Operand × Builder
  | ⟨kind, support, guards, localName, globalName⟩, builder =>
    let refused : Answer Operand :=
      .error (.notANode (shown ⟨kind, support, guards, localName, globalName⟩))
    if support = .unsupported then (refused, builder)
    else
      match operandOfKind kind builder with
      | (.ok (some operand), builder) => (.ok operand, builder)
      | (.ok none, builder) => (refused, builder)
      | (.error error, builder) => (.error error, builder)
termination_by structural value => value

/-- The operand of a kind, if it has one; the error is that of a part. -/
def operandOfKind : Kind → Builder → Answer (Option Operand) × Builder
  | .array facts, builder => (.ok (some (.node facts.node)), builder)
  | .scalar facts, builder => (.ok (some (.node facts.node)), builder)
  | .constant literal, builder => (.ok (some (.literal literal)), builder)
  | .host (.elementType type), builder => (.ok (some (.literal (.elementType type))), builder)
  | .host (.device place), builder => (.ok (some (.literal (.device place))), builder)
  | .sequence kind items, builder =>
    match operands items builder, kind with
    | (.ok args, builder), .list => (.ok (some (.list args)), builder)
    | (.ok args, builder), .tuple => (.ok (some (.tuple args)), builder)
    | (.ok [start, stop, step], builder), .slice => (.ok (some (.slice start stop step)), builder)
    | (.ok _, builder), .slice => (.ok none, builder)
    | (.error error, builder), _ => (.error error, builder)
  | .dict entries, builder =>
    match operandEntries entries builder with
    | (.ok args, builder) => (.ok (some (.dict args)), builder)
    | (.error error, builder) => (.error error, builder)
  | .attr holder name, builder =>
    match operand holder builder with
    | (.ok (.node base), builder) =>
      let (id, builder) := builder.record (.readAttr name) [.node base]
      (.ok (some (.node id)), builder)
    | (.ok _, builder) => (.ok none, builder)
    | (.error error, builder) => (.error error, builder)
  | _, builder => (.ok none, builder)
termination_by structural kind => kind

/-- The operands of values, from left to right; the first failure ends it. -/
def operands : List Symbolic → Builder → Answer (List Operand) × Builder
  | [], builder => (.ok [], builder)
  | item :: rest, builder =>
    match operand item builder with
    | (.error error, builder) => (.error error, builder)
    | (.ok arg, builder) =>
      match operands rest builder with
      | (.ok args, builder) => (.ok (arg :: args), builder)
      | (.error error, builder) => (.error error, builder)
termination_by structural items => items

def operandEntries : List (Key × Symbolic) → Builder →
    Answer (List (Key × Operand)) × Builder
  | [], builder => (.ok [], builder)
  | (key, item) :: rest, builder =>
    match operand item builder with
    | (.error error, builder) => (.error error, builder)
    | (.ok arg, builder) =>
      match operandEntries rest builder with
      | (.ok args, builder) => (.ok ((key, arg) :: args), builder)
      | (.error error, builder) => (.error error, builder)
termination_by structural entries => entries

end

end GuardedTrace.Symbolic
