/-
Double-precision floating-point numbers.

A `Double` is its 64 bits, so two doubles are equal exactly when no bit tells them apart: the two
zeros differ, and a NaN equals itself when sign and payload agree.  This is the equality under
which literals are compared and stored.  The comparison of the arithmetic, under which the zeros
agree and a NaN differs from everything, is `numEq`, `lt` and `le`.

Sums, products and quotients are those of core's `Float`.  Sign changes and roundings to integers
act on the bits, and the conversions from and to integers are exact: `ofRatio` rounds a quotient of
natural numbers to the nearest double, ties to even.
-/
import GuardedTrace.Number.Word

namespace GuardedTrace

/-- A binary64 floating-point number, as its bits: one sign bit, eleven exponent bits and
fifty-two fraction bits. -/
structure Double where
  bits : UInt64
deriving DecidableEq

namespace Double

/-- The bit that holds the sign. -/
def signMask : UInt64 := 0x8000000000000000

/-- The bits below the sign. -/
def magnitudeMask : UInt64 := 0x7fffffffffffffff

/-- The bits of positive infinity. -/
def infinityBits : UInt64 := 0x7ff0000000000000

def zero : Double := ⟨0⟩

def negZero : Double := ⟨signMask⟩

def one : Double := ⟨0x3ff0000000000000⟩

def infinity : Double := ⟨infinityBits⟩

/-- The quiet NaN that reading the text `nan` gives. -/
def nan : Double := ⟨0x7ff8000000000000⟩

/-- The quiet NaN of an operation that has no result; its sign bit is set. -/
def invalid : Double := ⟨0xfff8000000000000⟩

/-! ## Parts of a double -/

def isNegative (x : Double) : Bool := x.bits &&& signMask != 0

/-- The bits without the sign. -/
def magnitude (x : Double) : UInt64 := x.bits &&& magnitudeMask

def isNaN (x : Double) : Bool := infinityBits < x.magnitude

def isFinite (x : Double) : Bool := x.magnitude < infinityBits

/-- The exponent field. -/
def exponentField (x : Double) : Nat := (x.magnitude >>> 52).toNat

/-- The fraction field. -/
def fractionField (x : Double) : Nat := (x.bits &&& 0xfffffffffffff).toNat

/-- The leading bit of a significand, `2 ^ 52`, which normal doubles leave out. -/
def hiddenBit : Nat := 0x10000000000000

/-- A finite double is `± significand * 2 ^ exponent`. -/
def significand (x : Double) : Nat :=
  if x.exponentField = 0 then x.fractionField else hiddenBit + x.fractionField

/-- The power of two that goes with `significand`. -/
def exponent (x : Double) : Int :=
  if x.exponentField = 0 then -1074 else (x.exponentField : Int) - 1075

/-! ## Sign -/

def neg (x : Double) : Double := ⟨x.bits ^^^ signMask⟩

def abs (x : Double) : Double := ⟨x.magnitude⟩

/-! ## Arithmetic -/

def toFloat (x : Double) : Float := Float.ofBits x.bits

/-- Applies an operation of core's floating-point numbers.  A NaN operand is passed on, and an
operation without a result gives `invalid`. -/
def lift (f : Float → Float → Float) (a b : Double) : Double :=
  if a.isNaN then a
  else if b.isNaN then b
  else
    let result : Double := ⟨(f a.toFloat b.toFloat).toBits⟩
    if result.isNaN then invalid else result

def add (a b : Double) : Double := lift (· + ·) a b

def sub (a b : Double) : Double := lift (· - ·) a b

def mul (a b : Double) : Double := lift (· * ·) a b

def div (a b : Double) : Double := lift (· / ·) a b

/-! ## Numeric comparison -/

def numEq (a b : Double) : Bool := a.toFloat == b.toFloat

def lt (a b : Double) : Bool := a.toFloat < b.toFloat

def le (a b : Double) : Bool := a.toFloat ≤ b.toFloat

/-- Whether a double is one of the two zeros. -/
def isZero (x : Double) : Bool := x.magnitude == 0

/-- The numeric comparison; nothing when a NaN is involved. -/
def compareNum (a b : Double) : Option Ordering :=
  if a.lt b then some .lt else if numEq a b then some .eq else if b.lt a then some .gt else none

/-- The greater of a double and zero; a NaN counts as absent. -/
def clampBelow (x : Double) : Double := if lt zero x then x else zero

/-! ## Total order

Doubles are ordered by sign and then by magnitude, in reverse below zero: `-NaN`, `-∞`, the
negative numbers, `-0`, `0`, the positive numbers, `∞`, `NaN`. -/

/-- The place of a double in the total order, as an integer. -/
def rank (x : Double) : Int :=
  if x.isNegative then -(x.magnitude.toNat : Int) - 1 else x.magnitude.toNat

/-- The total order of doubles, under which only a double itself is equal to it. -/
def compareTotal (a b : Double) : Ordering := compare a.rank b.rank

/-! ## Rounding to integers -/

/-- The integral part, with the sign kept. -/
def trunc (x : Double) : Double :=
  if x.exponentField < 1023 then ⟨x.bits &&& signMask⟩
  else if 1075 ≤ x.exponentField then x
  else ⟨(x.bits >>> (1075 - x.exponentField).toUInt64) <<< (1075 - x.exponentField).toUInt64⟩

/-- The greatest integral double that is not above. -/
def floor (x : Double) : Double :=
  if x.trunc = x then x else if x.isNegative then x.trunc.sub one else x.trunc

/-- The integer that remains when the fraction of a finite double is dropped. -/
def truncInt (x : Double) : Int :=
  let size : Nat :=
    if 0 ≤ x.exponent then x.significand * Nat.pow 2 x.exponent.toNat
    else x.significand / Nat.pow 2 (-x.exponent).toNat
  if x.isNegative then -(size : Int) else size

/-- The word with the value of a double without its fraction; nothing for a double that is not
finite or lies beyond the words. -/
def toWord? (x : Double) : Option Int64 :=
  if x.isFinite then narrow x.truncInt else none

/-- Compares an integer with a double as numbers, without rounding; nothing for a NaN. -/
def compareInt (n : Int) (x : Double) : Option Ordering :=
  if x.isNaN then none
  else if x.isFinite then
    let size : Int := if x.isNegative then -(x.significand : Int) else x.significand
    if 0 ≤ x.exponent then some (compare n (size * (Nat.pow 2 x.exponent.toNat : Nat)))
    else some (compare (n * (Nat.pow 2 (-x.exponent).toNat : Nat)) size)
  else some (if x.isNegative then .gt else .lt)

/-! ## The nearest double -/

/-- The quotient `num / den` rounded to the nearest natural number, ties to even. -/
def roundDiv (num den : Nat) : Nat :=
  let quotient := num / den
  let twice := 2 * (num % den)
  if twice < den ∨ (twice = den ∧ quotient % 2 = 0) then quotient else quotient + 1

/-- The double nearest to `num / den`, with a sign.  The quotient is scaled so that its integral
part has fifty-three binary digits (fewer only below the smallest normal double), rounded there,
and packed; a result beyond the largest double is infinite. -/
def ofRatio (negative : Bool) (num den : Nat) : Double :=
  let sign : UInt64 := if negative then signMask else 0
  if num = 0 ∨ den = 0 then ⟨sign⟩
  else
    let guess : Int := (num.log2 : Int) - den.log2 - 52
    let scaled (q : Int) : Nat × Nat :=
      if 0 ≤ q then (num, den * Nat.pow 2 q.toNat) else (num * Nat.pow 2 (-q).toNat, den)
    let start := scaled guess
    let q : Int := max (if start.1 / start.2 < hiddenBit then guess - 1 else guess) (-1074)
    let parts := scaled q
    let packed := (q + 1074).toNat * hiddenBit + roundDiv parts.1 parts.2
    if infinityBits.toNat ≤ packed then ⟨infinityBits ||| sign⟩ else ⟨packed.toUInt64 ||| sign⟩

/-- The double nearest to a word. -/
def ofWord (n : Int64) : Double := ofRatio (n.toInt < 0) n.toInt.natAbs 1

/-- The double one or zero of a truth value. -/
def ofBool (b : Bool) : Double := if b then one else zero

end Double

end GuardedTrace
