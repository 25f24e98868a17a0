/-
Values of running programs.

Values are literals, containers of values, numeric arrays, and objects.  Objects (layers, routines,
libraries, instances and bound methods) have an identity and are equal only to themselves;
everything else is compared by content.

A *layer* is a node of a tree of modules: it has members, and its kind says what calling it
computes.  The children of a list-like layer are its members named `"0"`, `"1"`, ….  A *routine* is
a function of the program with its code.  A *library* is a namespace of primitives and constants.
An *instance* is any other object.
-/
import GuardedTrace.Array.Basic
import GuardedTrace.Code.Basic

namespace GuardedTrace

/-- What tells two objects apart.  Objects that a program finds in its surroundings have declared
identities, numbered from one; objects that it makes while it runs have created ones. -/
inductive Identity where
  | declared (number : Nat)
  | created (serial : Nat)
deriving DecidableEq

namespace Identity

/-- An identity as it is written in guards and messages. -/
def written : Identity → String
  | declared number => "0x" ++ Text.showHex number
  | created serial => "0x" ++ Text.showHex serial

/-- The order of identities: declared ones first. -/
def cmp : Identity → Identity → Ordering
  | declared a, declared b => compare a b
  | declared _, created _ => .lt
  | created _, declared _ => .gt
  | created a, created b => compare a b

end Identity

/-- What calling a layer computes. -/
inductive LayerKind where
  /-- Holds members and cannot be called. -/
  | container
  /-- A list of layers; cannot be called. -/
  | list
  /-- Calls its children one after the other, each on the result of the one before. -/
  | sequential
  /-- Applies one primitive. -/
  | leaf (primitive : Primitive)
  /-- Multiplies its input by its member `weight`. -/
  | scale
deriving DecidableEq

def LayerKind.label : LayerKind → String
  | container => "Container"
  | list => "List"
  | sequential => "Sequential"
  | leaf primitive => "Leaf(" ++ primitive.title ++ ")"
  | scale => "Scale"

/-- A function of the program. -/
structure Routine where
  id : Identity
  code : Code

/-- The name under which a routine is shown. -/
def Routine.name (routine : Routine) : String := routine.code.name

mutual

/-- A node of a tree of modules. -/
structure Layer where
  id : Identity
  typeName : String
  kind : LayerKind
  /-- The members, in the order in which they were given. -/
  members : List (String × Value)

/-- A namespace of the host. -/
structure Library where
  id : Identity
  members : List (String × Value)

/-- An object of a type of its own. -/
structure Instance where
  id : Identity
  typeName : String
  attributes : List (String × Value)

/-- A value of a running program. -/
inductive Value where
  | none
  | bool (value : Bool)
  | int (value : Int64)
  | float (value : Double)
  | str (value : String)
  | tuple (items : List Value)
  | list (items : List Value)
  /-- The entries are in the order of their keys, and each key occurs once. -/
  | dict (entries : List (Key × Value))
  | slice (bounds : Slice)
  | array (numbers : NumArray)
  | elementType (type : ElementType)
  | device (place : Device)
  | layer (node : Layer)
  | routine (function : Routine)
  /-- A primitive bound to its first argument. -/
  | boundPrimitive (id : Identity) (receiver : Value) (function : Primitive)
  /-- A routine bound to its first argument. -/
  | boundRoutine (id : Identity) (receiver : Value) (function : Routine)
  | primitive (function : Primitive)
  | builtin (function : Builtin)
  | library (space : Library)
  | object (owner : Instance)

end

namespace Layer

def member? (layer : Layer) (name : String) : Option Value := layer.members.lookup name

/-- Whether the members are children that can be counted and indexed. -/
def isListLike (layer : Layer) : Bool :=
  match layer.kind with
  | .list | .sequential => true
  | _ => false

/-- The number of children of a list-like layer. -/
def length? (layer : Layer) : Option Nat :=
  if layer.isListLike then some layer.members.length else Option.none

/-- The members that are layers, in order. -/
def children (layer : Layer) : List Layer :=
  layer.members.filterMap fun member =>
    match member.2 with
    | .layer child => some child
    | _ => Option.none

/-- The child at a possibly negative index of a list-like layer. -/
def child? (layer : Layer) (index : Int64) : Option Layer := do
  let size ← layer.length?
  let position ← position? index size
  match layer.members[position]? with
  | some (_, .layer child) => some child
  | _ => Option.none

/-- A layer whose members are numbered children. -/
def indexed (id : Identity) (typeName : String) (kind : LayerKind)
    (children : List Layer) : Layer :=
  { id, typeName, kind,
    members := children.mapIdx fun position child => (Text.showNat position, .layer child) }

/-- A list of layers. -/
def ofList (id : Identity) (children : List Layer) : Layer :=
  indexed id "ModuleList" .list children

/-- A chain of layers. -/
def chain (id : Identity) (children : List Layer) : Layer :=
  indexed id "Sequential" .sequential children

/-- A layer that multiplies by a weight. -/
def weighted (id : Identity) (weight : Value) : Layer :=
  { id, typeName := "Scale", kind := .scale, members := [("weight", weight)] }

end Layer

/-- The library of the free primitives and the common element types and devices. -/
def Library.standard (id : Identity) : Library :=
  { id
    members := (Primitive.freeFunctions.map fun primitive => (primitive.name, .primitive primitive))
      ++ [("float32", .elementType .float32), ("float64", .elementType .float64),
        ("int64", .elementType .int64), ("cpu", .device .cpu)] }

namespace Value

def typeName : Value → TypeName
  | none => .noneType
  | bool _ => .bool
  | int _ => .int
  | float _ => .float
  | str _ => .str
  | tuple _ => .tuple
  | list _ => .list
  | dict _ => .dict
  | slice _ => .slice
  | array _ => .array
  | elementType _ => .elementType
  | device _ => .device
  | layer node => .layer node.typeName
  | routine _ => .routine
  | boundPrimitive .. | boundRoutine .. => .method
  | primitive _ => .primitive
  | builtin _ => .builtin
  | library _ => .library
  | object owner => .object owner.typeName

/-- The identity that a guard can pin down; bound methods are made anew at every access and have
none. -/
def identity? : Value → Option Identity
  | layer node => some node.id
  | routine function => some function.id
  | library space => some space.id
  | object owner => some owner.id
  | _ => Option.none

/-! ## Equality as programs see it -/

mutual

/-- Whether a program finds two values equal: objects by identity, floats as numbers, containers by
content.  Values of different types differ. -/
def equals : Value → Value → Bool
  | none, none => true
  | bool a, bool b => a == b
  | int a, int b => a == b
  | float a, float b => a.numEq b
  | str a, str b => a == b
  | tuple a, tuple b => equalItems a b
  | list a, list b => equalItems a b
  | dict a, dict b => equalEntries a b
  | slice a, slice b => a == b
  | array a, array b => a.numEq b
  | elementType a, elementType b => a == b
  | device a, device b => a == b
  | primitive a, primitive b => a == b
  | builtin a, builtin b => a == b
  | boundPrimitive a _ _, boundPrimitive b _ _ => a == b
  | boundRoutine a _ _, boundRoutine b _ _ => a == b
  | a, b =>
    match a.identity?, b.identity? with
    | some x, some y => x == y
    | _, _ => false
termination_by structural a => a

def equalItems : List Value → List Value → Bool
  | [], [] => true
  | a :: as, b :: bs => equals a b && equalItems as bs
  | _, _ => false
termination_by structural as => as

def equalEntries : List (Key × Value) → List (Key × Value) → Bool
  | [], [] => true
  | (k, a) :: as, (l, b) :: bs => k == l && equals a b && equalEntries as bs
  | _, _ => false
termination_by structural as => as

end

/-! ## Literals as values -/

mutual

/-- The value of a literal. -/
def ofLiteral : Literal → Value
  | .none => none
  | .bool value => bool value
  | .int value => int value
  | .float value => float value
  | .str value => str value
  | .tuple items => tuple (ofLiterals items)
  | .list items => list (ofLiterals items)
  | .slice bounds => slice bounds
  | .elementType type => elementType type
  | .device place => device place
termination_by structural literal => literal

def ofLiterals : List Literal → List Value
  | [] => []
  | item :: rest => ofLiteral item :: ofLiterals rest
termination_by structural items => items

end

mutual

/-- The literal of a value, when the value is one. -/
def literal? : Value → Option Literal
  | none => some .none
  | bool value => some (.bool value)
  | int value => some (.int value)
  | float value => some (.float value)
  | str value => some (.str value)
  | tuple items => (literals? items).map .tuple
  | list items => (literals? items).map .list
  | slice bounds => some (.slice bounds)
  | elementType type => some (.elementType type)
  | device place => some (.device place)
  | _ => Option.none
termination_by structural value => value

def literals? : List Value → Option (List Literal)
  | [] => some []
  | item :: rest =>
    match literal? item, literals? rest with
    | some literal, some literals => some (literal :: literals)
    | _, _ => Option.none
termination_by structural items => items

end

/-! ## Truth and length -/

/-- Whether a value counts as true in a branch. -/
def truthy : Value → Run Bool
  | none => .ok false
  | bool value => .ok value
  | int value => .ok (value != 0)
  | float value => .ok !value.isZero
  | str value => .ok !value.isEmpty
  | tuple items | list items => .ok !items.isEmpty
  | dict entries => .ok !entries.isEmpty
  | array numbers =>
    match numbers.data with
    | [element] => .ok !element.isZero
    | _ => .error (.value .ambiguousTruth)
  | layer node =>
    match node.length? with
    | some size => .ok (0 < size)
    | Option.none => .ok true
  | _ => .ok true

/-- The number of items of a container. -/
def length : Value → Run Nat
  | tuple items | list items => .ok items.length
  | str value => .ok value.length
  | dict entries => .ok entries.length
  | array numbers =>
    match numbers.shape with
    | size :: _ => .ok size
    | [] => .error (.type .lengthOfScalar)
  | layer node =>
    match node.length? with
    | some size => .ok size
    | Option.none => .error (.type (.noLength (.layer node.typeName)))
  | other => .error (.type (.noLength other.typeName))

/-- The word of a size, when it fits. -/
def wordOfSize (size : Nat) : Run Int64 :=
  (narrow size).elim (.error (.overflow (.size size))) .ok

/-- The word of a float without its fraction, when it fits. -/
def wordOfDouble (x : Double) : Run Int64 :=
  match x.toWord? with
  | some word => .ok word
  | Option.none => .error (.overflow (.floatToInt x))

/-- The integer of a size. -/
def ofSize (size : Nat) : Run Value := (wordOfSize size).map int

/-- The tuple of a list of sizes. -/
def ofSizes (sizes : List Nat) : Run Value := (sizes.mapM ofSize).map tuple

end Value

end GuardedTrace
