/-
One step of a trace.

Every instruction builds its result from its operands, so guards and support states flow along with
the data.  An operation on constants is folded with the same definitions that a direct run uses; an
operation on values of the graph is recorded as a node; an operation on other values gives a value
of which nothing is known.
-/
import GuardedTrace.Trace.Inference
import GuardedTrace.Trace.Wrap
import GuardedTrace.Value.Call

namespace GuardedTrace

/-- What an instruction asks for next. -/
inductive Flow where
  | next
  | jump (target : Nat)
  /-- The program returns this operand. -/
  | finish (output : Operand)

/-- Whether a value can feed a node without being a constant. -/
def Symbolic.isGraphValue : Symbolic → Bool
  | ⟨.array _, _, _, _, _⟩ => true
  | ⟨.scalar _, _, _, _, _⟩ => true
  | ⟨.attr holder _, _, _, _, _⟩ => holder.isGraphValue
  | _ => false
termination_by structural value => value

namespace TraceM

/-! ## Nodes -/

/-- Records the call of a primitive. -/
def emitCall (function : Primitive) (args : List Symbolic) : TraceM Symbolic := do
  let operands ← operands args
  let node ← record (.callPrimitive function) operands
  pure (Symbolic.derived (nodeResult node function args) args)

/-- Records the call of a method on a value of the graph. -/
def emitMethod (function : Primitive) (receiver : Symbolic) (args : List Symbolic) :
    TraceM Symbolic := do
  match ← operand receiver with
  | .node base =>
    let operands ← operands args
    let node ← record (.callMethod function) (.node base :: operands)
    pure (Symbolic.derived (nodeResult node function (receiver :: args)) (receiver :: args))
  | _ => breakOff (.unsupported (.methodOf function receiver.shown))

/-- The literal of a folded result; a result that is no literal breaks the trace off. -/
def foldedLiteral (result : Value) (cause : TypeName → UnsupportedCause) : TraceM Literal :=
  ofOption (.unsupported (cause result.typeName)) result.literal?

/-! ## Arithmetic -/

/-- The concatenation of two known sequences of one kind. -/
def concatenated? : Primitive → Kind → Kind → Option Kind
  | .add, .sequence .list head, .sequence .list tail => some (.sequence .list (head ++ tail))
  | .add, .sequence .tuple head, .sequence .tuple tail => some (.sequence .tuple (head ++ tail))
  | _, _, _ => none

/-- `lhs op rhs`: folded for two constants, a node when a side is traced, unknown otherwise; two
known sequences of one kind are concatenated. -/
def binaryOp (function : Primitive) (lhs rhs : Symbolic) : TraceM Symbolic :=
  match lhs.constant?, rhs.constant? with
  | .ok a, .ok b => do
    let result ← ofRun (binary function (.ofLiteral a) (.ofLiteral b))
    let literal ← foldedLiteral result fun _ => .operation function a b
    pure (Symbolic.derived (.constant literal) [lhs, rhs])
  | _, _ =>
    if lhs.isGraphValue || rhs.isGraphValue then emitCall function [lhs, rhs]
    else
      match concatenated? function lhs.kind rhs.kind with
      | some kind => pure (Symbolic.derived kind [lhs, rhs])
      | none => unknown [lhs, rhs]

/-- `-value`. -/
def negate (value : Symbolic) : TraceM Symbolic :=
  match value.constant? with
  | .ok literal => do
    let result ← ofRun (unary .neg (.ofLiteral literal))
    let negated ← foldedLiteral result fun _ => .negation literal
    pure (Symbolic.derived (.constant negated) [value])
  | .error _ => if value.isGraphValue then emitCall .neg [value] else unknown [value]

/-! ## Attributes -/

/-- An attribute that is read only if it is used. -/
def lazyAttr (holder : Symbolic) (name : String) : Symbolic :=
  Symbolic.derived (.attr holder name) [holder]

/-- An attribute as a constant if it is one, to be read later otherwise. -/
def constOrLazyAttr (holder : Symbolic) (name : String) : Symbolic :=
  match holder.getConstAttr name with
  | .ok literal => Symbolic.derived (.constant literal) [holder]
  | .error _ => lazyAttr holder name

/-- A member of a layer. -/
def layerAttr (config : Config) (holder : Symbolic) (key : String) (node : Layer) (name : String) :
    TraceM Symbolic := do
  let member ← ofOption (.run (.noAttribute (.missingOf holder.shown name))) (node.member? name)
  match member with
  | .layer child => pure (Symbolic.derived (.layer (key ++ "." ++ name) child) [holder])
  | .array numbers =>
    register key node
    let id ← record (.parameter (key ++ "." ++ name)) []
    pure (Symbolic.derived (.array (.ofArray id numbers config.dynamicShapes)) [holder])
  | .routine function => pure (Symbolic.derived (.routine function) [holder])
  | .primitive function => pure (Symbolic.derived (.host (.primitive function)) [holder])
  | other =>
    match other.literal? with
    | some literal => pure (Symbolic.derived (.constant literal) [holder])
    | none => pure (lazyAttr holder name)

/-- The name under which attributes of a value can be wrapped. -/
def nameAndScope? (value : Symbolic) : Option (String × Scope) :=
  match value.localName, value.globalName with
  | some name, _ => some (name, .locals)
  | none, some name => some (name, .globals)
  | none, none => none

/-- `holder.name`. -/
def getAttr (config : Config) (holder : Symbolic) (name : String) : TraceM Symbolic :=
  match holder.kind with
  | .layer key node => layerAttr config holder key node name
  | .unsupported value _ =>
    match nameAndScope? holder with
    | some (base, scope) => do
      let live ← ofRun (value.getAttr 0 name)
      let wrapped ← wrap config scope live (base ++ "." ++ name)
      pure (wrapped.addGuards holder.guards)
    | none => pure (constOrLazyAttr holder name)
  | .array _ => pure ((holder.constAttr? name).getD (lazyAttr holder name))
  | .attr .. => pure (constOrLazyAttr holder name)
  | .scalar _ => pure (lazyAttr holder name)
  | .library space => do
    let member ← ofOption (.run (.noAttribute (.missingOf holder.shown name)))
      (space.members.lookup name)
    pure (wrapMember holder member)
  | _ => unknown [holder]

/-! ## Containers -/

/-- `container[key]`. -/
def subscript (container key : Symbolic) : TraceM Symbolic :=
  if key.isConstant then
    if container.isGraphValue then emitCall .getItem [container, key]
    else ofAnswer (container.getItem key)
  else
    match container.kind with
    | .array _ =>
      if key.isGraphValue then emitCall .getItem [container, key]
      else breakOff (.nonConstantIndex container.shown)
    | _ => breakOff (.nonConstantIndex container.shown)

/-- Pairs constant keys with values; a later pair of a key wins. -/
def dictEntries : List (Literal × Symbolic) → TraceM (List (Key × Symbolic))
  | [] => pure []
  | (literal, value) :: rest => do
    let key ← ofOption (.unsupported (.dictKey literal)) literal.toKey?
    let others ← dictEntries rest
    pure ((key, value) :: others)

/-- A dictionary with constant keys. -/
def buildDict (keys : Symbolic) (values : List Symbolic) : TraceM Symbolic := do
  match ← ofAnswer keys.constant? with
  | .tuple literals =>
    if literals.length = values.length then
      let entries ← dictEntries (literals.zip values)
      pure (Symbolic.derived (.dict (Table.ofListOrdered Key.cmp entries)) (keys :: values))
    else breakOff (.unsupported (.mapKeys (.tuple literals)))
  | literal => breakOff (.unsupported (.mapKeys literal))

/-- The rows of an array, one node each. -/
def arrayRows (array : Symbolic) : List Nat → TraceM (List Symbolic)
  | [] => pure []
  | row :: rest => do
    let index ← ofRun (Value.wordOfSize row)
    let item ← emitCall .getItem [array, Symbolic.constant (.int index)]
    let others ← arrayRows array rest
    pure (item :: others)

/-- The items that unpacking a value into `expected` variables yields. -/
def unpackItems (value : Symbolic) (expected : Nat) : TraceM (List Symbolic) := do
  match value.kind with
  | .array facts =>
    let rows ← ofOption (.unsupported (.unpacking value.shown)) (facts.shape.bind List.head?)
    if rows = expected then arrayRows value (List.range rows)
    else breakOff (.run (.value (.unpack expected rows)))
  | _ =>
    let items ← ofAnswer value.items
    if items.length = expected then pure items
    else breakOff (.run (.value (.unpack expected items.length)))

/-- Pushes values so that the first one ends on top. -/
def pushAll : List Symbolic → TraceM Unit
  | [] => pure ()
  | value :: rest => do
    pushAll rest
    push value

/-! ## Calls -/

/-- The values of arguments that are all constants. -/
def constantArgs? (args : List Symbolic) : Option (List Value) :=
  args.mapM fun arg => arg.constant?.toOption.map Value.ofLiteral

/-- Calls a builtin on constants by folding; `abs` is also recorded for a value of the graph. -/
def foldBuiltin (function : Builtin) (callee : Symbolic) (args : List Symbolic) :
    TraceM Symbolic := do
  let inherited := Symbolic.propagate (callee :: args)
  match constantArgs? args with
  | some values => do
    let result ← ofRun (function.call values)
    let literal ← foldedLiteral result (.returned function.name)
    pure ((Symbolic.ofKind (.constant literal)).inherit inherited)
  | none =>
    match function, args with
    | .abs, [value] =>
      if value.isGraphValue then do
        let result ← emitCall .abs args
        pure (result.inherit inherited)
      else breakOff (.unsupported (.onTraced function))
    | _, _ => breakOff (.unsupported (.onTraced function))

/-- The length of a container: a constant when it is known, a node for an array of unknown shape. -/
def callLength (callee container : Symbolic) : TraceM Symbolic := do
  let inherited := Symbolic.propagate [callee, container]
  match container.length?, container.kind with
  | some length, _ => do
    let word ← ofRun (Value.wordOfSize length)
    pure ((Symbolic.ofKind (.constant (.int word))).inherit inherited)
  | none, .array _ => do
    let result ← emitMethod .size container [Symbolic.constant (.int 0)]
    pure (result.inherit inherited)
  | none, _ => foldBuiltin .len callee [container]

/-- Calls a builtin. -/
def callBuiltin (function : Builtin) (callee : Symbolic) (args : List Symbolic) :
    TraceM Symbolic :=
  match function, args with
  | .len, [container] => callLength callee container
  | _, _ => foldBuiltin function callee args

/-- The facts of the first argument, when it is a value of the graph. -/
def inputFacts? : List Symbolic → Option ArrayFacts
  | [] => none
  | arg :: _ =>
    match arg.kind with
    | .array facts | .scalar facts => some facts
    | _ => none

/-- Calls a layer. -/
def callLayer (config : Config) (key : String) (node : Layer) (callee : Symbolic)
    (args : List Symbolic) : TraceM Symbolic := do
  match node.kind with
  | .list | .container => breakOff (.unsupported (.notCallable key))
  | _ =>
    let operands ← operands args
    register key node
    let id ← record (.callLayer key) operands
    let facts := node.outputFacts id config.dynamicShapes (inputFacts? args)
    pure (Symbolic.derived (.array facts) (callee :: args))

/-- The method that a lazy attribute of a value of the graph names. -/
def arrayMethod? (holder : Symbolic) (name : String) : Option Primitive :=
  if holder.isNode then Primitive.ofMethod? name else none

/-- Calls a value. -/
def callValue (config : Config) (callee : Symbolic) (args : List Symbolic) : TraceM Symbolic := do
  let inherited := Symbolic.propagate (callee :: args)
  match callee.kind with
  | .deferred _ => ofAnswer (callee.callDeferred args)
  | .builtin function => callBuiltin function callee args
  | .host (.primitive function) =>
    match constantArgs? args with
    | some values => do
      let result ← ofRun (function.call 0 values)
      let literal ← foldedLiteral result (.returned function.name)
      pure ((Symbolic.ofKind (.constant literal)).inherit inherited)
    | none => do
      let result ← emitCall function args
      pure (result.inherit inherited)
  | .layer key node => callLayer config key node callee args
  | .attr holder name =>
    match arrayMethod? holder name with
    | some function => do
      let result ← emitMethod function holder args
      pure (result.inherit inherited)
    | none => breakOff (.unsupported (.callAttr name))
  | .routine function => breakOff (.userCall function.name)
  | .method function _ => breakOff (.userCall function.name)
  | .unsupported (.boundPrimitive ..) type => breakOff (.userCall type.text)
  | .unsupported (.boundRoutine ..) type => breakOff (.userCall type.text)
  | _ => breakOff (.unsupported (.call callee.shown))

/-! ## Branches -/

/-- The truth of a value that does not depend on the data of the graph. -/
def staticTruth (value : Symbolic) : TraceM Bool :=
  match value.constant? with
  | .ok literal => ofRun (Value.ofLiteral literal).truthy
  | .error _ =>
    match value.kind with
    | .sequence .. | .dict _ =>
      match value.length? with
      | some length => pure (0 < length)
      | none => breakOff (.dataDependentBranch value.shown)
    | .layer _ node =>
      match node.length? with
      | some length => pure (0 < length)
      | none => pure true
    | .routine _ | .method .. | .host _ | .builtin _ | .library _ => pure true
    | _ => breakOff (.dataDependentBranch value.shown)

/-- Jumps when a popped value has the given truth. -/
def popJump (target : UInt32) (jumpWhen : Bool) : TraceM Flow := do
  let condition ← pop
  let truth ← staticTruth condition
  pure (if truth = jumpWhen then .jump target.toNat else .next)

/-! ## Instructions -/

/-- Pushes the result of a computation. -/
def pushing (result : TraceM Symbolic) : TraceM Flow := do
  let value ← result
  push value
  pure .next

/-- Applies a primitive to the two topmost values. -/
def stackBinary (function : Primitive) : TraceM Flow := pushing do
  let (lhs, rhs) ← popTwo
  binaryOp function lhs rhs

/-- Builds a slice from two or three bounds. -/
def buildSlice (count : UInt32) : TraceM Symbolic := do
  if count = 2 then
    let parts ← popMany 2
    pure (Symbolic.sequence .slice (parts ++ [Symbolic.constant .none]))
  else if count = 3 then
    let parts ← popMany 3
    pure (Symbolic.sequence .slice parts)
  else breakOff (.badOperand count)

/-- Advances the iterator on top of the stack; at its end it is dropped and the loop is left. -/
def forIter (target : UInt32) : TraceM Flow := do
  let iterator ← pop
  match ← ofAnswer iterator.advance with
  | some (item, next) =>
    push next
    push item
    pure .next
  | none => pure (.jump target.toNat)

/-- Traces one instruction. -/
def step (context : TraceContext) (instruction : Instruction) : TraceM Flow :=
  let operand := instruction.operand
  let bad : BreakCause := .badOperand operand
  match instruction.opcode with
  | .nop => pure .next
  | .popTop => do
    let _ ← pop
    pure .next
  | .rotTwo => do
    let (second, top) ← popTwo
    push top
    push second
    pure .next
  | .dupTop => do
    match (← get).stack with
    | top :: _ =>
      push top
      pure .next
    | [] => breakOff .stackUnderflow
  | .loadConst => pushing do
    let literal ← ofOption bad (context.code.constant? operand)
    pure (Symbolic.constant literal)
  | .loadFast => pushing do
    let name ← ofOption bad (context.code.varName? operand)
    loadLocal context name
  | .storeFast => do
    let name ← ofOption bad (context.code.varName? operand)
    let value ← pop
    modify fun state => { state with locals := state.locals.put name value }
    pure .next
  | .loadGlobal => pushing do
    let name ← ofOption bad (context.code.name? operand)
    loadGlobal context name
  | .loadAttr | .loadMethod => pushing do
    let name ← ofOption bad (context.code.name? operand)
    let holder ← pop
    getAttr context.config holder name
  | .callFunction | .callMethod => pushing do
    let args ← popMany operand.toNat
    let callee ← pop
    callValue context.config callee args
  | .binaryAdd => stackBinary .add
  | .binarySubtract => stackBinary .sub
  | .binaryMultiply => stackBinary .mul
  | .binaryTrueDivide => stackBinary .div
  | .binaryFloorDivide => stackBinary .floorDiv
  | .binaryModulo => stackBinary .mod
  | .compareOp => do
    let function ← ofOption bad Primitive.comparisons[operand.toNat]?
    stackBinary function
  | .unaryNegative => pushing do
    let value ← pop
    negate value
  | .binarySubscr => pushing do
    let (container, key) ← popTwo
    subscript container key
  | .buildTuple => pushing do
    let items ← popMany operand.toNat
    pure (Symbolic.sequence .tuple items)
  | .buildList => pushing do
    let items ← popMany operand.toNat
    pure (Symbolic.sequence .list items)
  | .buildSlice => pushing (buildSlice operand)
  | .buildConstKeyMap => pushing do
    let keys ← pop
    let values ← popMany operand.toNat
    buildDict keys values
  | .unpackSequence => do
    let value ← pop
    let items ← unpackItems value operand.toNat
    pushAll items
    pure .next
  | .getIter => pushing do
    let iterable ← pop
    ofAnswer iterable.iterate
  | .forIter => forIter operand
  | .jumpAbsolute => pure (.jump operand.toNat)
  | .popJumpIfFalse => popJump operand false
  | .popJumpIfTrue => popJump operand true
  | .returnValue => do
    let value ← pop
    let output ← TraceM.operand value
    pure (.finish output)

end TraceM

end GuardedTrace
