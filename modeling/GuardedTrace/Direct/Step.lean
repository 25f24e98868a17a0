/-
One step of a direct run.

A direct run interprets a program over values, without tracing, guards or caches.  It is what a call
falls back to, and what every compiled artifact has to agree with.  The state is a *machine*; a call
of a routine leaves the step as a request, so that the step itself is not recursive.
-/
import GuardedTrace.Frame
import GuardedTrace.Value.Call

namespace GuardedTrace

/-- An entry of the operand stack.  Iterators live on the stack only. -/
inductive Slot where
  | value (value : Value)
  /-- The items still to come. -/
  | iterator (rest : List Value)

/-- The state of a direct run of one program. -/
structure Machine where
  pc : Nat := 0
  /-- The operand stack, topmost entry first. -/
  stack : List Slot := []
  locals : Table String Value := []
  /-- The number of objects made so far. -/
  created : Nat := 0

/-- A part of a direct run: it changes the machine or fails. -/
abbrev MachineM (α : Type) : Type := StateT Machine (Except RunError) α

/-- What an instruction asks for next. -/
inductive Request where
  | next
  | jump (target : Nat)
  | finish (result : Value)
  /-- The program calls a routine and pushes its result. -/
  | enter (code : Code) (args : List Value)

namespace MachineM

def fail {α : Type} (error : RunError) : MachineM α := fun _ => .error error

def ofRun {α : Type} : Run α → MachineM α
  | .ok value => pure value
  | .error error => fail error

/-- A table entry that must be present. -/
def ofOption {α : Type} (fault : SystemFault) : Option α → MachineM α
  | some value => pure value
  | none => fail (.system fault)

/-- The number for an object that is made now. -/
def serial : MachineM Nat := fun machine =>
  .ok (machine.created, { machine with created := machine.created + 1 })

/-! ## The stack -/

def pushSlot (slot : Slot) : MachineM Unit :=
  modify fun machine => { machine with stack := slot :: machine.stack }

def push (value : Value) : MachineM Unit := pushSlot (.value value)

def popSlot : MachineM Slot := fun machine =>
  match machine.stack with
  | slot :: rest => .ok (slot, { machine with stack := rest })
  | [] => .error (.system .stackUnderflow)

/-- Pops a value; an iterator is none. -/
def pop : MachineM Value := do
  match ← popSlot with
  | .value value => pure value
  | .iterator _ => fail (.system .iteratorAsValue)

/-- Pops values onto a list, so that the lowest ends in front. -/
def popOnto : Nat → List Value → MachineM (List Value)
  | 0, values => pure values
  | count + 1, values => do
    let value ← pop
    popOnto count (value :: values)

/-- Pops a number of values, the lowest first. -/
def popMany (count : Nat) : MachineM (List Value) := popOnto count []

/-! ## Instructions -/

/-- Pushes the result of a computation. -/
def pushing (result : MachineM Value) : MachineM Request := do
  let value ← result
  push value
  pure .next

/-- Applies a primitive to the two topmost values. -/
def stackBinary (function : Primitive) : MachineM Request := pushing do
  let rhs ← pop
  let lhs ← pop
  ofRun (binary function lhs rhs)

/-- The bound of a slice that a value denotes. -/
def bound : Value → Run (Option Int64)
  | .none => .ok none
  | .int value => .ok (some value)
  | .bool value => .ok (some (Literal.wordOfBool value))
  | other => .error (.type (.sliceBound other.typeName))

/-- Builds a slice from two or three bounds. -/
def buildSlice (count : UInt32) : MachineM Value := do
  if count = 2 ∨ count = 3 then
    let parts ← popMany count.toNat
    match ← ofRun (parts.mapM bound) with
    | [start, stop] => pure (.slice ⟨start, stop, none⟩)
    | [start, stop, step] => pure (.slice ⟨start, stop, step⟩)
    | _ => fail (.system (.sliceArity count.toNat))
  else fail (.system (.sliceArity count.toNat))

/-- Builds a dictionary from a tuple of keys and as many values. -/
def buildDict (count : Nat) : MachineM Value := do
  let keys ← pop
  let values ← popMany count
  match keys with
  | .tuple keys =>
    if keys.length = values.length then
      let keys ← ofRun (keys.mapM Value.toKey)
      pure (.dict (Table.ofListOrdered Key.cmp (keys.zip values)))
    else fail (.system .mapLength)
  | _ => fail (.system .mapKeys)

/-- Calls a value.  Routines are left as requests. -/
def callValue (callee : Value) (args : List Value) : MachineM Request :=
  match callee with
  | .primitive function => pushing do
    let serial ← serial
    ofRun (function.call serial args)
  | .builtin function => pushing (ofRun (function.call args))
  | .layer node => pushing do
    let serial ← serial
    ofRun (node.forward serial args)
  | .routine function => pure (.enter function.code args)
  | .boundPrimitive _ receiver function => pushing do
    let serial ← serial
    ofRun (function.call serial (receiver :: args))
  | .boundRoutine _ receiver function => pure (.enter function.code (receiver :: args))
  | other => fail (.type (.notCallable other.typeName))

/-- Jumps when a popped value has the given truth. -/
def popJump (target : UInt32) (jumpWhen : Bool) : MachineM Request := do
  let condition ← pop
  let truth ← ofRun condition.truthy
  pure (if truth = jumpWhen then .jump target.toNat else .next)

/-- Advances the iterator on top of the stack; at its end it is dropped and the loop is left. -/
def forIter (target : UInt32) : MachineM Request := do
  match ← popSlot with
  | .iterator (item :: rest) =>
    pushSlot (.iterator rest)
    push item
    pure .next
  | .iterator [] => pure (.jump target.toNat)
  | .value _ => fail (.system .noIterator)

/-- Pushes values so that the first one ends on top. -/
def pushAll : List Value → MachineM Unit
  | [] => pure ()
  | value :: rest => do
    pushAll rest
    push value

/-- The value of a global name, or the builtin of that name. -/
def loadGlobal (globals : Table String Value) (name : String) : MachineM Value :=
  match globals.lookup name, Builtin.ofName? name with
  | some value, _ => pure value
  | none, some function => pure (.builtin function)
  | none, none => fail (.name name)

/-- Runs one instruction. -/
def step (code : Code) (globals : Table String Value) (instruction : Instruction) :
    MachineM Request :=
  let operand := instruction.operand
  let index := operand.toNat
  match instruction.opcode with
  | .nop => pure .next
  | .popTop => do
    let _ ← popSlot
    pure .next
  | .rotTwo => do
    let top ← popSlot
    let second ← popSlot
    pushSlot top
    pushSlot second
    pure .next
  | .dupTop => do
    match (← get).stack with
    | top :: _ =>
      pushSlot top
      pure .next
    | [] => fail (.system .stackUnderflow)
  | .loadConst => pushing do
    let literal ← ofOption (.noConstant index) (code.constant? operand)
    pure (.ofLiteral literal)
  | .loadFast => pushing do
    let name ← ofOption (.noVariable index) (code.varName? operand)
    match (← get).locals.lookup name with
    | some value => pure value
    | none => fail (.name name)
  | .storeFast => do
    let name ← ofOption (.noVariable index) (code.varName? operand)
    let value ← pop
    modify fun machine => { machine with locals := machine.locals.put name value }
    pure .next
  | .loadGlobal => pushing do
    let name ← ofOption (.noName index) (code.name? operand)
    loadGlobal globals name
  | .loadAttr | .loadMethod => pushing do
    let name ← ofOption (.noName index) (code.name? operand)
    let base ← pop
    let serial ← serial
    ofRun (base.getAttr serial name)
  | .callFunction | .callMethod => do
    let args ← popMany index
    let callee ← pop
    callValue callee args
  | .binaryAdd => stackBinary .add
  | .binarySubtract => stackBinary .sub
  | .binaryMultiply => stackBinary .mul
  | .binaryTrueDivide => stackBinary .div
  | .binaryFloorDivide => stackBinary .floorDiv
  | .binaryModulo => stackBinary .mod
  | .compareOp => do
    let function ← ofOption (.comparison index) Primitive.comparisons[index]?
    stackBinary function
  | .unaryNegative => pushing do
    let value ← pop
    ofRun (unary .neg value)
  | .binarySubscr => pushing do
    let key ← pop
    let container ← pop
    let serial ← serial
    ofRun (container.subscript serial key)
  | .buildTuple => pushing do
    let items ← popMany index
    pure (.tuple items)
  | .buildList => pushing do
    let items ← popMany index
    pure (.list items)
  | .buildSlice => pushing (buildSlice operand)
  | .buildConstKeyMap => pushing (buildDict index)
  | .unpackSequence => do
    let sequence ← pop
    let items ← ofRun sequence.iterate
    if items.length = index then
      pushAll items
      pure .next
    else fail (.value (.unpack index items.length))
  | .getIter => do
    let iterable ← pop
    let items ← ofRun iterable.iterate
    pushSlot (.iterator items)
    pure .next
  | .forIter => forIter operand
  | .jumpAbsolute => pure (.jump index)
  | .popJumpIfFalse => popJump operand false
  | .popJumpIfTrue => popJump operand true
  | .returnValue => do
    let result ← pop
    pure (.finish result)

end MachineM

end GuardedTrace
