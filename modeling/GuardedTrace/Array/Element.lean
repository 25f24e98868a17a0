/-
Element types and placements of numeric arrays.

The elements of an array are always stored as doubles; the element type is what the array reports
and what the result of an operation is computed from.  Types are ordered by their place in the
declaration, devices with the processor first and then by number.
-/
import GuardedTrace.Text.Numeral

namespace GuardedTrace

/-- The element type that a numeric array reports. -/
inductive ElementType where
  | float32
  | float64
  | int64
  | bool
deriving DecidableEq

namespace ElementType

def name : ElementType → String
  | float32 => "float32"
  | float64 => "float64"
  | int64 => "int64"
  | bool => "bool"

/-- The element types, in their order. -/
def all : List ElementType := [float32, float64, int64, bool]

/-- The element type of a name. -/
def ofName? (text : String) : Option ElementType := all.find? fun type => type.name == text

/-- The place of an element type in the order. -/
def rank : ElementType → Nat
  | float32 => 0
  | float64 => 1
  | int64 => 2
  | bool => 3

def isFloating : ElementType → Bool
  | float32 | float64 => true
  | int64 | bool => false

/-- The element type of a combination of two arrays: the wider floating type if there is one, then
integers, then truth values. -/
def promote : ElementType → ElementType → ElementType
  | float64, _ | _, float64 => float64
  | float32, _ | _, float32 => float32
  | int64, _ | _, int64 => int64
  | bool, bool => bool

/-- The type of a quotient: floating types are kept, others become `float32`. -/
def quotient (type : ElementType) : ElementType := if type.isFloating then type else float32

end ElementType

/-- Where an array is placed. -/
inductive Device where
  | cpu
  | cuda (index : UInt8)
deriving DecidableEq

namespace Device

def isCuda : Device → Bool
  | cpu => false
  | cuda _ => true

def text : Device → String
  | cpu => "cpu"
  | cuda index => "cuda:" ++ Text.showNat index.toNat

/-- The device of a text. -/
def ofText? (text : String) : Option Device :=
  match text.toList with
  | 'c' :: 'p' :: 'u' :: [] => some cpu
  | 'c' :: 'u' :: 'd' :: 'a' :: ':' :: digits =>
    (Text.readDigits digits).bind fun index =>
      if index < UInt8.size then some (cuda (UInt8.ofNat index)) else none
  | _ => none

/-- The place of a device in the order. -/
def rank : Device → Nat
  | cpu => 0
  | cuda index => index.toNat + 1

end Device

end GuardedTrace
