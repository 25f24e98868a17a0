/-
The callables that the host provides: primitives and builtins.

A *primitive* is an operation of the array library.  Primitives are what the nodes of a dataflow
graph compute.  A *builtin* is a function that every program can name without binding it.
-/

namespace GuardedTrace

/-- An operation of the array library. -/
inductive Primitive where
  | add
  | sub
  | mul
  | div
  | floorDiv
  | mod
  | neg
  | abs
  | relu
  | sum
  | getItem
  | lt
  | le
  | eq
  | ne
  | gt
  | ge
  | size
  | dim
  | stride
deriving DecidableEq

namespace Primitive

/-- The primitives, in their order. -/
def all : List Primitive :=
  [add, sub, mul, div, floorDiv, mod, neg, abs, relu, sum, getItem, lt, le, eq, ne, gt, ge, size,
    dim, stride]

def name : Primitive → String
  | add => "add"
  | sub => "sub"
  | mul => "mul"
  | div => "div"
  | floorDiv => "floordiv"
  | mod => "mod"
  | neg => "neg"
  | abs => "abs"
  | relu => "relu"
  | sum => "sum"
  | getItem => "getitem"
  | lt => "lt"
  | le => "le"
  | eq => "eq"
  | ne => "ne"
  | gt => "gt"
  | ge => "ge"
  | size => "size"
  | dim => "dim"
  | stride => "stride"

/-- The name with which a guard on the primitive is written. -/
def title : Primitive → String
  | add => "Add"
  | sub => "Sub"
  | mul => "Mul"
  | div => "Div"
  | floorDiv => "FloorDiv"
  | mod => "Mod"
  | neg => "Neg"
  | abs => "Abs"
  | relu => "Relu"
  | sum => "Sum"
  | getItem => "GetItem"
  | lt => "Lt"
  | le => "Le"
  | eq => "Eq"
  | ne => "Ne"
  | gt => "Gt"
  | ge => "Ge"
  | size => "Size"
  | dim => "Dim"
  | stride => "Stride"

/-- The primitive of a name. -/
def ofName? (text : String) : Option Primitive := all.find? fun primitive => primitive.name == text

/-- The place of a primitive in the order. -/
def rank (primitive : Primitive) : Nat := all.findIdx (· == primitive)

/-- The primitives that the array library offers as free functions. -/
def freeFunctions : List Primitive := [add, sub, mul, div, neg, abs, relu, sum]

/-- The comparisons, numbered as the operand of a comparing instruction numbers them. -/
def comparisons : List Primitive := [lt, le, eq, ne, gt, ge]

/-- The primitive behind a method of arrays. -/
def ofMethod? : String → Option Primitive
  | "add" => some add
  | "sub" => some sub
  | "mul" => some mul
  | "div" => some div
  | "neg" => some neg
  | "abs" => some abs
  | "relu" => some relu
  | "sum" => some sum
  | "size" => some size
  | "dim" | "ndimension" => some dim
  | "stride" => some stride
  | _ => none

/-- Whether shape and layout alone answer the primitive. -/
def isShapeQuery : Primitive → Bool
  | size | dim | stride => true
  | _ => false

def isComparison (primitive : Primitive) : Bool := comparisons.contains primitive

/-- Whether the primitive keeps the shape of its array operand. -/
def isElementwise : Primitive → Bool
  | sum | getItem | size | dim | stride => false
  | _ => true

end Primitive

/-- A function that is known under its name in every program. -/
inductive Builtin where
  | len
  | abs
  | min
  | max
  | range
  | int
  | float
deriving DecidableEq

namespace Builtin

/-- The builtins, in their order. -/
def all : List Builtin := [len, abs, min, max, range, int, float]

def name : Builtin → String
  | len => "len"
  | abs => "abs"
  | min => "min"
  | max => "max"
  | range => "range"
  | int => "int"
  | float => "float"

/-- The name with which a guard on the builtin is written. -/
def title : Builtin → String
  | len => "Len"
  | abs => "Abs"
  | min => "Min"
  | max => "Max"
  | range => "Range"
  | int => "Int"
  | float => "Float"

/-- The builtin of a name. -/
def ofName? (text : String) : Option Builtin := all.find? fun builtin => builtin.name == text

/-- The place of a builtin in the order. -/
def rank (builtin : Builtin) : Nat := all.findIdx (· == builtin)

end Builtin

end GuardedTrace
