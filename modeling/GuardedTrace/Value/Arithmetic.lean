/-
Arithmetic and comparison of values.

One definition of every operation serves direct runs, the evaluation of graphs and the folding of
constants, so a folded constant is what running would have computed.

Operands are arrays, numbers, or other values.  Two numbers are combined as integers when neither
is a float, and as floats otherwise.  A number meets an array as an array without dimensions whose
element type gives way to the array's.  Other values support equality, and texts, tuples and lists
a few operations more.
-/
import GuardedTrace.Value.Basic

namespace GuardedTrace

/-- A number: an integer (truth values count as 0 and 1) or a float. -/
inductive Number where
  | int (value : Int64)
  | float (value : Double)

namespace Number

/-- The number that a value is. -/
def of? : Value → Option Number
  | .bool value => some (.int (Literal.wordOfBool value))
  | .int value => some (.int value)
  | .float value => some (.float value)
  | _ => none

def toDouble : Number → Double
  | int value => Double.ofWord value
  | float value => value

/-- Compares two numbers exactly; nothing when a NaN is involved. -/
def compare? : Number → Number → Option Ordering
  | int a, int b => some (compare a.toInt b.toInt)
  | float a, float b => a.compareNum b
  | int a, float b => b.compareInt a.toInt
  | float a, int b => (a.compareInt b.toInt).map Ordering.swap

/-- A number as an array without dimensions that does not promote arrays of type `like`. -/
def toArray (number : Number) (like : ElementType) : NumArray :=
  let elementType := match number with
    | int _ => like
    | float _ => like.quotient
  NumArray.scalar number.toDouble elementType .cpu

end Number

/-! ## Integers -/

/-- A word result, or the overflow of an operation. -/
def wordResult (operation : Primitive) : Option Int64 → Run Value
  | some word => .ok (.int word)
  | none => .error (.overflow (.integer operation))

/-- The floor of a quotient, from the quotient rounded toward zero. -/
def floorDivWord (a b : Int64) : Option Int64 := do
  let quotient ← narrow (a.toInt.tdiv b.toInt)
  let remainder := a.toInt.tmod b.toInt
  if remainder ≠ 0 ∧ (decide (remainder < 0) != decide (b.toInt < 0)) then
    narrow (quotient.toInt - 1)
  else some quotient

/-- The remainder that goes with the floor of a quotient; it takes the sign of the divisor.  Where
the quotient rounded toward zero is no word there is no remainder either. -/
def modWord (a b : Int64) : Option Int64 := do
  let _ ← narrow (a.toInt.tdiv b.toInt)
  let remainder := a.toInt.tmod b.toInt
  if remainder ≠ 0 ∧ (decide (remainder < 0) != decide (b.toInt < 0)) then
    narrow (remainder + b.toInt)
  else narrow remainder

/-- Applies a primitive to two integers. -/
def intBinary (operation : Primitive) (a b : Int64) : Run Value :=
  match operation with
  | .add => wordResult operation (narrow (a.toInt + b.toInt))
  | .sub => wordResult operation (narrow (a.toInt - b.toInt))
  | .mul => wordResult operation (narrow (a.toInt * b.toInt))
  | .div =>
    if b = 0 then .error (.zeroDivision .quotient)
    else .ok (.float ((Double.ofWord a).div (Double.ofWord b)))
  | .floorDiv =>
    if b = 0 then .error (.zeroDivision .integer) else wordResult operation (floorDivWord a b)
  | .mod => if b = 0 then .error (.zeroDivision .integer) else wordResult operation (modWord a b)
  | .lt => .ok (.bool (a.toInt < b.toInt))
  | .le => .ok (.bool (a.toInt ≤ b.toInt))
  | .eq => .ok (.bool (a.toInt = b.toInt))
  | .ne => .ok (.bool (a.toInt ≠ b.toInt))
  | .gt => .ok (.bool (b.toInt < a.toInt))
  | .ge => .ok (.bool (b.toInt ≤ a.toInt))
  | _ => .error (.type (.notBinary operation))

/-! ## Floats and arrays -/

/-- The function of two floats behind a primitive; comparisons give one and zero. -/
def kernel? : Primitive → Option (Double → Double → Double)
  | .add => some Double.add
  | .sub => some Double.sub
  | .mul => some Double.mul
  | .div => some Double.div
  | .floorDiv => some fun a b => (a.div b).floor
  | .mod => some fun a b => a.sub (b.mul (a.div b).floor)
  | .lt => some fun a b => .ofBool (a.lt b)
  | .le => some fun a b => .ofBool (a.le b)
  | .eq => some fun a b => .ofBool (a.numEq b)
  | .ne => some fun a b => .ofBool !(a.numEq b)
  | .gt => some fun a b => .ofBool (b.lt a)
  | .ge => some fun a b => .ofBool (b.le a)
  | _ => none

/-- Whether a primitive divides. -/
def divides : Primitive → Bool
  | .div | .floorDiv | .mod => true
  | _ => false

/-- Applies a primitive to two floats. -/
def floatBinary (operation : Primitive) (a b : Double) : Run Value :=
  if divides operation && b.isZero then .error (.zeroDivision .float)
  else
    match kernel? operation with
    | none => .error (.type (.notBinary operation))
    | some kernel =>
      if operation.isComparison then .ok (.bool !(kernel a b).isZero) else .ok (.float (kernel a b))

/-- The element type of a combination of arrays, from the promoted type of its operands. -/
def combinedType (operation : Primitive) (promoted : ElementType) : ElementType :=
  if operation.isComparison then .bool
  else if operation = .div then promoted.quotient
  else promoted

/-- Applies a primitive to two arrays. -/
def arrayBinary (operation : Primitive) (a b : NumArray) : Run Value :=
  match kernel? operation with
  | none => .error (.type (.notElementwise operation))
  | some kernel =>
    (a.zipWith b kernel).map fun result =>
      .array { result with elementType := combinedType operation result.elementType }

/-! ## All values -/

/-- The truth of a comparison of two texts. -/
def textComparison (operation : Primitive) (a b : String) : Bool :=
  match operation with
  | .lt => compare a b == .lt
  | .le => compare a b != .gt
  | .gt => compare a b == .gt
  | _ => compare a b != .lt

/-- Applies a primitive to two values of which at least one is no number and none an array that
meets a number. -/
def otherBinary (operation : Primitive) (lhs rhs : Value) : Run Value :=
  match operation, lhs, rhs with
  | .eq, a, b => .ok (.bool (a.equals b))
  | .ne, a, b => .ok (.bool !(a.equals b))
  | .add, .str a, .str b => .ok (.str (a ++ b))
  | .add, .tuple a, .tuple b => .ok (.tuple (a ++ b))
  | .add, .list a, .list b => .ok (.list (a ++ b))
  | .lt, .str a, .str b | .le, .str a, .str b | .gt, .str a, .str b | .ge, .str a, .str b =>
    .ok (.bool (textComparison operation a b))
  | _, a, b => .error (.type (.operands operation a.typeName b.typeName))

/-- Applies a primitive to two numbers, or to two other values. -/
def scalarBinary (operation : Primitive) (lhs rhs : Value) : Run Value :=
  match Number.of? lhs, Number.of? rhs with
  | some (.int a), some (.int b) => intBinary operation a b
  | some a, some b => floatBinary operation a.toDouble b.toDouble
  | _, _ => otherBinary operation lhs rhs

/-- Applies a primitive of two operands. -/
def binary (operation : Primitive) (lhs rhs : Value) : Run Value :=
  match lhs, rhs with
  | .array a, .array b => arrayBinary operation a b
  | .array a, other =>
    match Number.of? other with
    | some number => arrayBinary operation a (number.toArray a.elementType)
    | none => otherBinary operation (.array a) other
  | other, .array b =>
    match Number.of? other with
    | some number => arrayBinary operation (number.toArray b.elementType) b
    | none => otherBinary operation other (.array b)
  | a, b => scalarBinary operation a b

/-- The function of one float behind a primitive. -/
def unaryKernel? : Primitive → Option (Double → Double)
  | .neg => some Double.neg
  | .abs => some Double.abs
  | .relu => some Double.clampBelow
  | _ => none

/-- The function of one integer behind a primitive. -/
def unaryWord? : Primitive → Option (Int → Int)
  | .neg => some fun n => -n
  | .abs => some fun n => n.natAbs
  | .relu => some fun n => max n 0
  | _ => none

/-- Applies a primitive of one operand: negation, absolute value or `relu`. -/
def unary (operation : Primitive) (value : Value) : Run Value :=
  match value with
  | .array array =>
    match unaryKernel? operation with
    | some kernel => .ok (.array (array.map array.elementType kernel))
    | none => .error (.type (.notUnary operation))
  | other =>
    match Number.of? other, unaryWord? operation, unaryKernel? operation with
    | some (.int n), some word, _ => wordResult operation (narrow (word n.toInt))
    | some (.float x), _, some kernel => .ok (.float (kernel x))
    | _, _, _ => .error (.type (.operand operation other.typeName))

end GuardedTrace
