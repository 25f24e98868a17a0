/-
What can go wrong when a program runs.

An error belongs to one of ten classes and names its cause.  The classes are those that programs
distinguish; the causes carry the data of the message.  All wording is in `RunError.message` and
the functions it calls.
-/
import GuardedTrace.Key
import GuardedTrace.Number.Shortest
import GuardedTrace.Primitive
import GuardedTrace.TypeName

namespace GuardedTrace

open Text (showNat showInt showSizes)

/-- An operation was applied to a value of a type that does not support it. -/
inductive TypeFault where
  | sumOf (type : TypeName)
  | arguments (callee : String) (count : Nat)
  | notAnInteger (type : TypeName)
  | intOf (type : TypeName)
  | floatOf (type : TypeName)
  | notOrderable (type : TypeName)
  | notElementwise (operation : Primitive)
  | notBinary (operation : Primitive)
  | notUnary (operation : Primitive)
  | operands (operation : Primitive) (lhs rhs : TypeName)
  | operand (operation : Primitive) (type : TypeName)
  | lengthOfScalar
  | noLength (type : TypeName)
  | notSubscriptable (container key : TypeName)
  | notCallable (type : TypeName)
  | layerArity (callee : String) (expected given : Nat)
  | routineArity (callee : String) (expected given : Nat)
  | iterationOfScalar
  | notIterable (type : TypeName)
  | sliceBound (type : TypeName)
  | unhashable (type : TypeName)
  | notLiteral (type : TypeName)
deriving DecidableEq

/-- A value has the right type and is still not acceptable. -/
inductive ValueFault where
  | reshape (size : Nat) (shape : List Nat)
  | sliceStepZero
  | ambiguousTruth
  | rangeStepZero
  | intText (text : String)
  | floatText (text : String)
  | emptySequence (callee : String)
  | unpack (expected given : Nat)
deriving DecidableEq

/-- A position lies outside a sequence. -/
inductive IndexFault where
  | outOfRange (index : Int64)
  | scalarArray
  | outOfBounds (index : Int64) (size : Nat)
  | dimension (index : Int64)
deriving DecidableEq

/-- A value has no attribute of some name. -/
inductive AttributeFault where
  | missing (type : TypeName) (name : String)
  | weight (typeName : String)
  /-- The holder is known only by its description. -/
  | missingOf (holder : String) (name : String)
deriving DecidableEq

/-- A division by zero. -/
inductive DivisionFault where
  | integer
  | quotient
  | float
deriving DecidableEq

/-- A result lies beyond what a word or a sequence can hold. -/
inductive OverflowFault where
  | integer (operation : Primitive)
  | floatToInt (value : Double)
  | rangeLength (length limit : Nat)
  | rangeItem
  | size (value : Nat)
  | sequence
deriving DecidableEq

/-- The code itself is malformed, or calls nest too deeply. -/
inductive SystemFault where
  | stackUnderflow
  | noConstant (index : Nat)
  | noVariable (index : Nat)
  | noName (index : Nat)
  | comparison (index : Nat)
  | sliceArity (count : Nat)
  | mapKeys
  | mapLength
  | noIterator
  | iteratorAsValue
  | noReturn (code : String)
  | recursion
  /-- A failure that was reported in words. -/
  | reported (text : String)
deriving DecidableEq

/-- An error of a running program. -/
inductive RunError where
  | type (fault : TypeFault)
  | value (fault : ValueFault)
  | index (fault : IndexFault)
  | key (key : Key)
  | noAttribute (fault : AttributeFault)
  | name (name : String)
  | zeroDivision (fault : DivisionFault)
  | overflow (fault : OverflowFault)
  | shapeMismatch (lhs rhs : List Nat)
  | system (fault : SystemFault)
deriving DecidableEq

/-- The result of a computation that can fail. -/
abbrev Run (α : Type) : Type := Except RunError α

/-! ## Messages -/

def TypeFault.message : TypeFault → String
  | sumOf type => "sum() of '" ++ type.text ++ "'"
  | arguments callee count =>
    callee ++ "() got " ++ showNat count ++ " argument(s) it cannot accept"
  | notAnInteger type => "'" ++ type.text ++ "' object cannot be interpreted as an integer"
  | intOf type => "int() argument must not be '" ++ type.text ++ "'"
  | floatOf type => "float() argument must not be '" ++ type.text ++ "'"
  | notOrderable type => "'" ++ type.text ++ "' is not orderable"
  | notElementwise operation => operation.name ++ " is not elementwise"
  | notBinary operation => operation.name ++ " is not a binary operator"
  | notUnary operation => operation.name ++ " is not unary"
  | operands operation lhs rhs =>
    "unsupported operand type(s) for " ++ operation.name ++ ": '" ++ lhs.text ++ "' and '"
      ++ rhs.text ++ "'"
  | operand operation type => "bad operand type for " ++ operation.name ++ ": '" ++ type.text ++ "'"
  | lengthOfScalar => "len() of a 0-d array"
  | noLength type => "object of type '" ++ type.text ++ "' has no len()"
  | notSubscriptable container key =>
    "'" ++ container.text ++ "' object is not subscriptable with '" ++ key.text ++ "'"
  | notCallable type => "'" ++ type.text ++ "' object is not callable"
  | layerArity callee expected given =>
    callee ++ "() takes " ++ showNat expected ++ " argument(s) but " ++ showNat given
      ++ " were given"
  | routineArity callee expected given =>
    callee ++ "() takes " ++ showNat expected ++ " positional argument(s) but " ++ showNat given
      ++ " were given"
  | iterationOfScalar => "iteration over a 0-d array"
  | notIterable type => "'" ++ type.text ++ "' object is not iterable"
  | sliceBound type => "slice indices must be integers or None, not '" ++ type.text ++ "'"
  | unhashable type => "unhashable type: '" ++ type.text ++ "'"
  | notLiteral type => "'" ++ type.text ++ "' result is not a literal"

def ValueFault.message : ValueFault → String
  | reshape size shape =>
    "cannot reshape array of size " ++ showNat size ++ " into shape " ++ showSizes shape
  | sliceStepZero => "slice step cannot be zero"
  | ambiguousTruth => "the truth value of an array with more than one element is ambiguous"
  | rangeStepZero => "range() arg 3 must not be zero"
  | intText text => "invalid literal for int(): '" ++ text ++ "'"
  | floatText text => "could not convert string to float: '" ++ text ++ "'"
  | emptySequence callee => callee ++ "() arg is an empty sequence"
  | unpack expected given =>
    "expected " ++ showNat expected ++ " values to unpack, got " ++ showNat given

def IndexFault.message : IndexFault → String
  | outOfRange index => "index " ++ showInt index.toInt ++ " out of range"
  | scalarArray => "invalid index of a 0-d array"
  | outOfBounds index size =>
    "index " ++ showInt index.toInt ++ " is out of bounds for dimension 0 with size "
      ++ showNat size
  | dimension index => "dimension " ++ showInt index.toInt ++ " out of range"

def AttributeFault.message : AttributeFault → String
  | missing type name => "'" ++ type.text ++ "' object has no attribute '" ++ name ++ "'"
  | weight typeName => "'" ++ typeName ++ "' has no weight"
  | missingOf holder name => holder ++ " has no attribute '" ++ name ++ "'"

def DivisionFault.message : DivisionFault → String
  | integer => "integer division or modulo by zero"
  | quotient => "division by zero"
  | float => "float division by zero"

def OverflowFault.message : OverflowFault → String
  | integer operation => "integer overflow in " ++ operation.name
  | floatToInt value => "cannot convert float " ++ value.showPlain ++ " to integer"
  | rangeLength length limit =>
    "range of " ++ showNat length ++ " items exceeds the limit of " ++ showNat limit
  | rangeItem => "range overflow"
  | size value => showNat value ++ " does not fit in an int"
  | sequence => "sequence too long"

def SystemFault.message : SystemFault → String
  | stackUnderflow => "stack underflow"
  | noConstant index => "no constant " ++ showNat index
  | noVariable index => "no local variable " ++ showNat index
  | noName index => "no name " ++ showNat index
  | comparison index => "bad comparison " ++ showNat index
  | sliceArity count => "bad slice arity " ++ showNat count
  | mapKeys => "map keys must be a tuple"
  | mapLength => "map keys and values differ in length"
  | noIterator => "FOR_ITER without an iterator"
  | iteratorAsValue => "iterator used as a value"
  | noReturn code => "`" ++ code ++ "` ended without returning"
  | recursion => "maximum recursion depth exceeded"
  | reported text => text

/-- The name of the class of an error. -/
def RunError.label : RunError → String
  | type _ => "Type"
  | value _ => "Value"
  | index _ => "Index"
  | key _ => "Key"
  | noAttribute _ => "Attribute"
  | name _ => "Name"
  | zeroDivision _ => "ZeroDivision"
  | overflow _ => "Overflow"
  | shapeMismatch .. => "ShapeMismatch"
  | system _ => "System"

/-- The text of an error, with the name of its class in front. -/
def RunError.message : RunError → String
  | type fault => "TypeError: " ++ fault.message
  | value fault => "ValueError: " ++ fault.message
  | index fault => "IndexError: " ++ fault.message
  | key missing => "KeyError: " ++ missing.written
  | noAttribute fault => "AttributeError: " ++ fault.message
  | name unbound => "NameError: name '" ++ unbound ++ "' is not defined"
  | zeroDivision fault => "ZeroDivisionError: " ++ fault.message
  | overflow fault => "OverflowError: " ++ fault.message
  | shapeMismatch lhs rhs => "shape mismatch: " ++ showSizes lhs ++ " vs " ++ showSizes rhs
  | system fault => "SystemError: " ++ fault.message

end GuardedTrace
