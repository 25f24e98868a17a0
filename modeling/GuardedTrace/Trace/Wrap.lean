/-
Reading the frame in a trace.

Every value that a trace takes from the frame is *wrapped*: it becomes a symbolic value under the
path it was reached by, with a guard that pins down exactly what the trace may rely on.  Arrays
become placeholders; so do integers and floats when scalars are not specialised.  Items of lists,
tuples and dictionaries are wrapped one by one under paths of their own.
-/
import GuardedTrace.Trace.State

namespace GuardedTrace

open Text (showNat)

namespace Symbolic

/-- A value bound to a path, with the guard that pins it down. -/
def boundTo (value : Symbolic) (path : String) (scope : Scope) (check : Check) : Symbolic :=
  let named := match scope with
    | .locals => { value with localName := some path }
    | .globals => { value with globalName := some path }
  named.addGuard ⟨path, scope, check⟩

end Symbolic

namespace TraceM

/-- The placeholder of a binding, which becomes an input of the graph. -/
def placeholder (path : String) (scope : Scope) : TraceM Nat := do
  let node ← record (.placeholder path) []
  modify fun state =>
    if (⟨path, scope⟩ : InputBinding) ∈ state.inputs then state
    else { state with inputs := state.inputs ++ [⟨path, scope⟩] }
  pure node

/-- Wraps a number as an input of the graph. -/
def wrapScalar (path : String) (scope : Scope) (elementType : ElementType) (type : TypeName) :
    TraceM Symbolic := do
  let node ← placeholder path scope
  pure ((Symbolic.ofKind (.scalar (.scalar node (some elementType)))).boundTo path scope
    (.typeMatch type))

/-- Wraps a value that is a constant. -/
def wrapConstant (literal : Literal) (path : String) (scope : Scope) : Symbolic :=
  (Symbolic.constant literal).boundTo path scope (.constantMatch literal)

mutual

/-- Wraps the value that is bound at a path. -/
def wrap (config : Config) (scope : Scope) : Value → String → TraceM Symbolic
  | .array numbers, path => do
    let node ← placeholder path scope
    pure ((Symbolic.ofKind (.array (.ofArray node numbers config.dynamicShapes))).boundTo path scope
      (.arrayMatch (.of numbers config.dynamicShapes)))
  | .int value, path =>
    if config.specializeScalars then pure (wrapConstant (.int value) path scope)
    else wrapScalar path scope .int64 .int
  | .float value, path =>
    if config.specializeScalars then pure (wrapConstant (.float value) path scope)
    else wrapScalar path scope .float64 .float
  | .tuple items, path => do
    let wrapped ← wrapItems config scope items path 0
    pure ((Symbolic.sequence .tuple wrapped).boundTo path scope (.lengthMatch items.length))
  | .list items, path => do
    let wrapped ← wrapItems config scope items path 0
    pure ((Symbolic.sequence .list wrapped).boundTo path scope (.lengthMatch items.length))
  | .dict entries, path => do
    let wrapped ← wrapEntries config scope entries path
    pure ((Symbolic.derived (.dict wrapped) (Table.values wrapped)).boundTo path scope
      (.keysMatch (Table.keys entries)))
  | .layer node, path =>
    pure ((Symbolic.ofLayer path node).boundTo path scope (.idMatch node.id))
  | .routine function, path =>
    pure ((Symbolic.ofKind (.routine function)).boundTo path scope (.idMatch function.id))
  | .primitive function, path =>
    pure ((Symbolic.ofKind (.host (.primitive function))).boundTo path scope
      (.hostMatch (.primitive function)))
  | .builtin function, path =>
    pure ((Symbolic.ofKind (.builtin function)).boundTo path scope (.hostMatch (.builtin function)))
  | .library space, path =>
    pure ((Symbolic.ofKind (.library space)).boundTo path scope (.idMatch space.id))
  | .object owner, path =>
    let type := (Value.object owner).typeName
    pure ((Symbolic.ofKind (.unsupported (.object owner) type)).boundTo path
      scope (.typeMatch type))
  | .boundPrimitive id receiver function, path =>
    pure ((Symbolic.ofKind (.unsupported (.boundPrimitive id receiver function) .method)).boundTo
      path scope (.typeMatch .method))
  | .boundRoutine id receiver function, path =>
    pure ((Symbolic.ofKind (.unsupported (.boundRoutine id receiver function) .method)).boundTo
      path scope (.typeMatch .method))
  | .none, path => pure (wrapConstant .none path scope)
  | .bool value, path => pure (wrapConstant (.bool value) path scope)
  | .str value, path => pure (wrapConstant (.str value) path scope)
  | .slice bounds, path => pure (wrapConstant (.slice bounds) path scope)
  | .elementType type, path => pure (wrapConstant (.elementType type) path scope)
  | .device place, path => pure (wrapConstant (.device place) path scope)
termination_by structural value => value

/-- Wraps the items of a sequence from a position on. -/
def wrapItems (config : Config) (scope : Scope) :
    List Value → String → Nat → TraceM (List Symbolic)
  | [], _, _ => pure []
  | item :: rest, path, position => do
    let wrapped ← wrap config scope item (path ++ "[" ++ showNat position ++ "]")
    let others ← wrapItems config scope rest path (position + 1)
    pure (wrapped :: others)
termination_by structural items => items

/-- Wraps the entries of a dictionary. -/
def wrapEntries (config : Config) (scope : Scope) :
    List (Key × Value) → String → TraceM (List (Key × Symbolic))
  | [], _ => pure []
  | (key, item) :: rest, path => do
    let wrapped ← wrap config scope item (path ++ "[" ++ key.written ++ "]")
    let others ← wrapEntries config scope rest path
    pure ((key, wrapped) :: others)
termination_by structural entries => entries

end

/-- The value of a local variable, wrapped when it is read for the first time. -/
def loadLocal (context : TraceContext) (name : String) : TraceM Symbolic := do
  match (← get).locals.lookup name with
  | some value => pure value
  | none =>
    let live ← ofOption (.unboundName name) (context.frame.lookup? .locals name)
    let value ← wrap context.config .locals live name
    modify fun state => { state with locals := state.locals.put name value }
    pure value

/-- A builtin, under the guard that its name stays unbound. -/
def wrapBuiltin (name : String) (function : Builtin) : Symbolic :=
  (Symbolic.ofKind (.builtin function)).addGuard ⟨name, .globals, .unbound⟩

/-- Wraps what a global name stands for: its value, or the builtin of that name. -/
def wrapGlobal (context : TraceContext) (name : String) : TraceM Symbolic :=
  match context.frame.lookup? .globals name with
  | some live => wrap context.config .globals live name
  | none => do
    let function ← ofOption (.unboundName name) (Builtin.ofName? name)
    pure (wrapBuiltin name function)

/-- What a global name stands for, wrapped when it is read for the first time. -/
def loadGlobal (context : TraceContext) (name : String) : TraceM Symbolic := do
  match (← get).globals.lookup name with
  | some value => pure value
  | none =>
    let value ← wrapGlobal context name
    modify fun state => { state with globals := state.globals.put name value }
    pure value

/-- A member of a library.  The library is pinned by its identity, so the member needs no guard of
its own. -/
def wrapMember (library : Symbolic) (member : Value) : Symbolic :=
  let kind : Kind := match member with
    | .primitive function => .host (.primitive function)
    | .elementType type => .host (.elementType type)
    | .device place => .host (.device place)
    | .builtin function => .builtin function
    | .library space => .library space
    | other =>
      match other.literal? with
      | some literal => .constant literal
      | none => .unsupported other other.typeName
  Symbolic.derived kind [library]

end TraceM

end GuardedTrace
