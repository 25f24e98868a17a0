/-
Calls of primitives, builtins and layers.
-/
import GuardedTrace.Number.Progression
import GuardedTrace.Number.Reading
import GuardedTrace.Value.Arithmetic
import GuardedTrace.Value.Subscript

namespace GuardedTrace

namespace Primitive

/-- The sizes that `size` and `stride` report. -/
def reported (primitive : Primitive) (array : NumArray) : List Nat :=
  if primitive = size then array.shape else array.strides

/-- One of the sizes that `size` and `stride` report. -/
def reportedAt (sizes : List Nat) (index : Int64) : Run Value :=
  match (position? index sizes.length).bind (sizes[·]?) with
  | some extent => Value.ofSize extent
  | none => .error (.index (.dimension index))

/-- Calls a primitive.  `serial` numbers an object that the call makes. -/
def call (serial : Nat) (primitive : Primitive) (args : List Value) : Run Value :=
  let refused : Run Value := .error (.type (.arguments primitive.name args.length))
  match primitive, args with
  | neg, [value] | abs, [value] | relu, [value] => unary primitive value
  | sum, [value] =>
    match value with
    | .array array => .ok (.array array.sum)
    | .int _ | .float _ | .bool _ => .ok value
    | other => .error (.type (.sumOf other.typeName))
  | getItem, [container, key] => container.subscript serial key
  | size, [.array array] | stride, [.array array] => Value.ofSizes (primitive.reported array)
  | size, [.array array, .int index] | stride, [.array array, .int index] =>
    reportedAt (primitive.reported array) index
  | dim, [.array array] => Value.ofSize array.rank
  | add, [lhs, rhs] | sub, [lhs, rhs] | mul, [lhs, rhs] | div, [lhs, rhs]
  | floorDiv, [lhs, rhs] | mod, [lhs, rhs] | lt, [lhs, rhs] | le, [lhs, rhs] | eq, [lhs, rhs]
  | ne, [lhs, rhs] | gt, [lhs, rhs] | ge, [lhs, rhs] => binary primitive lhs rhs
  | _, _ => refused

end Primitive

namespace Builtin

/-- The longest range that can be listed. -/
def maxRangeLength : Nat := 0x100000

/-- The integer of an argument of `range`. -/
def rangeBound : Value → Run Int64
  | .int value => .ok value
  | other => .error (.type (.notAnInteger other.typeName))

/-- A member of a range as a value. -/
def rangeItem (item : Int) : Run Value :=
  match narrow item with
  | some word => .ok (.int word)
  | none => .error (.overflow .rangeItem)

/-- The length of a range: the way from `start` to `stop` in steps, rounded up, and held at the
greatest size. -/
def rangeLength (start stop step : Int64) : Nat :=
  let way := if 0 < step.toInt then stop.toInt - start.toInt else start.toInt - stop.toInt
  if way ≤ 0 then 0
  else
    let stride : Int := step.toInt.natAbs
    let steps := (way + stride - 1) / stride
    if steps ≤ maxSize then steps.toNat else maxSize

/-- The integers from `start` by `step` strictly before `stop`. -/
def rangeOf (start stop step : Int64) : Run Value :=
  if step = 0 then .error (.value .rangeStepZero)
  else
    let length := rangeLength start stop step
    if maxRangeLength < length then .error (.overflow (.rangeLength length maxRangeLength))
    else
      ((Progression.members start.toInt step.toInt length).mapM rangeItem).map Value.list

/-- `range` of one to three bounds. -/
def range? : List Int64 → Option (Run Value)
  | [stop] => some (rangeOf 0 stop 1)
  | [start, stop] => some (rangeOf start stop 1)
  | [start, stop, step] => some (rangeOf start stop step)
  | _ => none

/-- The least or greatest of numbers, kept from left to right: a later number replaces the best one
so far only when it is strictly better. -/
def extremum (wanted : Ordering) : Value × Number → List Value → Run Value
  | best, [] => .ok best.1
  | best, item :: rest =>
    match Number.of? item with
    | none => .error (.type (.notOrderable item.typeName))
    | some number =>
      extremum wanted (if number.compare? best.2 = some wanted then (item, number) else best) rest

/-- The least or greatest item of a sequence. -/
def extremumOf (builtin : Builtin) (items : List Value) : Run Value :=
  match items with
  | [] => .error (.value (.emptySequence builtin.name))
  | item :: rest =>
    match Number.of? item with
    | none => .error (.type (.notOrderable item.typeName))
    | some number => extremum (if builtin = min then .lt else .gt) (item, number) rest

/-- `int(value)`. -/
def toInt : Value → Run Value
  | .int value => .ok (.int value)
  | .bool value => .ok (.int (Literal.wordOfBool value))
  | .float value => (Value.wordOfDouble value).map .int
  | .str text =>
    match (Text.readInteger (Text.trim text.toList)).bind narrow with
    | some word => .ok (.int word)
    | none => .error (.value (.intText text))
  | other => .error (.type (.intOf other.typeName))

/-- `float(value)`. -/
def toFloat : Value → Run Value
  | .float value => .ok (.float value)
  | .int value => .ok (.float (Double.ofWord value))
  | .bool value => .ok (.float (Double.ofBool value))
  | .str text =>
    match Double.read (Text.trim text.toList) with
    | some value => .ok (.float value)
    | none => .error (.value (.floatText text))
  | other => .error (.type (.floatOf other.typeName))

/-- Calls a builtin. -/
def call (builtin : Builtin) (args : List Value) : Run Value :=
  let refused : Run Value := .error (.type (.arguments builtin.name args.length))
  match builtin, args with
  | len, [value] => value.length.bind Value.ofSize
  | abs, [value] => unary .abs value
  | min, [.tuple items] | min, [.list items] | max, [.tuple items] | max, [.list items] =>
    builtin.extremumOf items
  | min, first :: second :: rest | max, first :: second :: rest =>
    builtin.extremumOf (first :: second :: rest)
  | range, bounds =>
    if 1 ≤ bounds.length ∧ bounds.length ≤ 3 then do
      let words ← bounds.mapM rangeBound
      (range? words).getD refused
    else refused
  | int, [value] => toInt value
  | float, [value] => toFloat value
  | _, _ => refused

end Builtin

namespace Layer

mutual

/-- Calls a layer. -/
def forward (serial : Nat) : Layer → List Value → Run Value
  | ⟨_, typeName, kind, members⟩, args =>
    match kind, args with
    | .leaf primitive, args => primitive.call serial args
    | .scale, [input] =>
      match members.lookup "weight" with
      | some weight => binary .mul input weight
      | none => .error (.noAttribute (.weight typeName))
    | .sequential, [input] => forwardMembers serial members input
    | .scale, args | .sequential, args =>
      .error (.type (.layerArity typeName 1 args.length))
    | .list, _ | .container, _ => .error (.type (.notCallable (.layer typeName)))
termination_by structural layer => layer

/-- Calls the layers among the members one after the other, each on the result of the one
before. -/
def forwardMembers (serial : Nat) : List (String × Value) → Value → Run Value
  | [], input => .ok input
  | (_, .layer child) :: rest, input =>
    match forward serial child [input] with
    | .ok output => forwardMembers serial rest output
    | .error error => .error error
  | _ :: rest, input => forwardMembers serial rest input
termination_by structural members => members

end

end Layer

end GuardedTrace
