/-
The types of values, as programs see them.
-/

namespace GuardedTrace

/-- The type of a value.  Layers and objects carry the name of their own type. -/
inductive TypeName where
  | noneType
  | bool
  | int
  | float
  | str
  | tuple
  | list
  | dict
  | slice
  | array
  | elementType
  | device
  | layer (name : String)
  | routine
  | method
  | primitive
  | builtin
  | library
  | object (name : String)
deriving DecidableEq

namespace TypeName

/-- A type as it is written in messages and guards. -/
def text : TypeName → String
  | noneType => "NoneType"
  | bool => "bool"
  | int => "int"
  | float => "float"
  | str => "str"
  | tuple => "tuple"
  | list => "list"
  | dict => "dict"
  | slice => "slice"
  | array => "array"
  | elementType => "dtype"
  | device => "device"
  | layer name => name
  | routine => "function"
  | method => "method"
  | primitive => "builtin_function_or_method"
  | builtin => "builtin"
  | library => "module"
  | object name => name

/-- The types that are the same for every program. -/
def common : List TypeName :=
  [noneType, bool, int, float, str, tuple, list, dict, slice, array, elementType, device, routine,
    method, primitive, builtin, library]

/-- The common type of a text. -/
def ofText? (name : String) : Option TypeName := common.find? fun type => type.text == name

/-- The place of a type in the order, before the names of layers and objects are looked at. -/
def rank : TypeName → Nat
  | noneType => 0
  | bool => 1
  | int => 2
  | float => 3
  | str => 4
  | tuple => 5
  | list => 6
  | dict => 7
  | slice => 8
  | array => 9
  | elementType => 10
  | device => 11
  | layer _ => 12
  | routine => 13
  | method => 14
  | primitive => 15
  | builtin => 16
  | library => 17
  | object _ => 18

/-- The order of types. -/
def cmp (a b : TypeName) : Ordering := (compare a.rank b.rank).then (compare a.text b.text)

end TypeName

end GuardedTrace
