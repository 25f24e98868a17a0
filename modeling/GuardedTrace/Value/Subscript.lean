/-
Subscripts and attributes.

`subscript` reads an item of a container and `getAttr` an attribute of an object.  Both may make a
new object: a slice of a list of layers is a new layer, and a method is bound anew at every access.
The argument `serial` numbers the object that is made.
-/
import GuardedTrace.Value.Basic

namespace GuardedTrace.Value

/-- The item of a list at a possibly negative index. -/
def itemAt (items : List Value) (index : Int64) : Run Value :=
  match (position? index items.length).bind (items[·]?) with
  | some item => .ok item
  | Option.none => .error (.index (.outOfRange index))

/-- The value stored under a key. -/
def entryAt (entries : List (Key × Value)) (key : Key) : Run Value :=
  match entries.lookup key with
  | some value => .ok value
  | Option.none => .error (.key key)

/-- `container[key]`. -/
def subscript (serial : Nat) (container key : Value) : Run Value :=
  match container, key with
  | tuple items, int index => itemAt items index
  | list items, int index => itemAt items index
  | tuple items, slice bounds =>
    (bounds.positions items.length).map fun positions => tuple (Slice.pick items positions)
  | list items, slice bounds =>
    (bounds.positions items.length).map fun positions => list (Slice.pick items positions)
  | str text, int index =>
    itemAt (text.toList.map fun c => str (String.ofList [c])) index
  | dict entries, int index => entryAt entries (.int index)
  | dict entries, str text => entryAt entries (.text text)
  | array numbers, int index => (numbers.select index).map array
  | layer node, int index =>
    if node.isListLike then
      match node.child? index with
      | some child => .ok (layer child)
      | Option.none => .error (.index (.outOfRange index))
    else .error (.type (.notSubscriptable container.typeName key.typeName))
  | layer node, slice bounds =>
    if node.isListLike then
      (bounds.positions node.children.length).map fun positions =>
        layer (Layer.ofList (.created serial) (Slice.pick node.children positions))
    else .error (.type (.notSubscriptable container.typeName key.typeName))
  | _, _ => .error (.type (.notSubscriptable container.typeName key.typeName))

/-- An attribute of an array. -/
def arrayAttr (serial : Nat) (numbers : NumArray) (name : String) : Run Value :=
  match name with
  | "shape" => ofSizes numbers.shape
  | "ndim" => ofSize numbers.rank
  | "dtype" => .ok (elementType numbers.elementType)
  | "device" => .ok (device numbers.device)
  | "is_cuda" => .ok (bool numbers.device.isCuda)
  | _ =>
    match Primitive.ofMethod? name with
    | some function => .ok (boundPrimitive (.created serial) (array numbers) function)
    | Option.none => .error (.noAttribute (.missing .array name))

/-- `value.name`. -/
def getAttr (serial : Nat) (value : Value) (name : String) : Run Value :=
  let missing : Run Value := .error (.noAttribute (.missing value.typeName name))
  match value with
  | layer node =>
    match node.member? name with
    | some member => .ok member
    | Option.none => missing
  | library space =>
    match space.members.lookup name with
    | some member => .ok member
    | Option.none => missing
  | object owner =>
    match owner.attributes.lookup name with
    | some (routine function) => .ok (boundRoutine (.created serial) value function)
    | some attr => .ok attr
    | Option.none => missing
  | array numbers => arrayAttr serial numbers name
  | _ => missing

/-- The dictionary key of an integer or a text. -/
def toKey : Value → Run Key
  | int value => .ok (.int value)
  | str value => .ok (.text value)
  | other => .error (.type (.unhashable other.typeName))

/-- The value of a dictionary key. -/
def ofKey : Key → Value
  | .int value => int value
  | .text value => str value

/-- The rows of an array from row `row` on, `count` of them, behind those that are `taken`.  The
first row that is missing ends it. -/
def rowsFrom (numbers : NumArray) : Nat → Nat → List Value → Run (List Value)
  | 0, _, taken => .ok taken.reverse
  | count + 1, row, taken => do
    let index ← wordOfSize row
    let item ← numbers.select index
    rowsFrom numbers count (row + 1) (array item :: taken)

/-- The values that iterating over a value yields. -/
def iterate : Value → Run (List Value)
  | tuple items | list items => .ok items
  | dict entries => .ok (entries.map fun entry => ofKey entry.1)
  | str text => .ok (text.toList.map fun c => str (String.ofList [c]))
  | array numbers =>
    match numbers.shape with
    | [] => .error (.type .iterationOfScalar)
    | rows :: _ => rowsFrom numbers rows 0 []
  | layer node =>
    if node.isListLike then .ok (node.children.map layer)
    else .error (.type (.notIterable (.layer node.typeName)))
  | other => .error (.type (.notIterable other.typeName))

end GuardedTrace.Value
