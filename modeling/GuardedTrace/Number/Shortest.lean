/-
The shortest decimal of a double, and its two written forms.

A finite double stands for an interval of real numbers, those that round to it.  `shortest` finds
the fewest decimal digits whose value lies in that interval; of two such values of equal length the
nearer one is taken, and the greater one when both are equally near.  Everything is computed in
exact natural arithmetic.

Two layouts of the digits occur:

* *exponent form for extremes* (`showLiteral`): positional from `10 ^ -4` up to `10 ^ 16`, with at
  least one digit after the point, and `1.5e-7`, `1e16` outside;
* *always positional* (`showPlain`): no exponent, and no point in whole numbers.
-/
import GuardedTrace.Number.Double
import GuardedTrace.Text.Numeral

namespace GuardedTrace

open Text (showNat showInt)

/-- A positive decimal `0.d₁d₂d₃… * 10 ^ point`. -/
structure Decimal where
  /-- The digits, the first and the last of them not zero. -/
  digits : List Char
  point : Int

namespace Decimal

/-- The decimal `digits * 10 ^ exponent`, without zeros at the end. -/
def ofScaled (digits : Nat) (exponent : Int) : Decimal :=
  let written := Nat.toDigits 10 digits
  { digits := (written.reverse.dropWhile (· == '0')).reverse
    point := exponent + written.length }

/-- The position of the leading digit of `num / den`: the `e` with
`10 ^ e ≤ num / den < 10 ^ (e + 1)`. -/
def leadingPlace (num den : Nat) : Int :=
  if den ≤ num then (Nat.toDigits 10 (num / den)).length - 1
  else
    let bound := (Nat.toDigits 10 (den / num)).length
    if den ≤ num * Nat.pow 10 (bound - 1) then -((bound - 1 : Nat) : Int) else -(bound : Int)

/-- The interval of the real numbers that round to `significand * 2 ^ exponent`, in units of
`2 ^ (exponent - 2)`: lower end, the value itself, upper end. -/
structure Interval where
  lower : Nat
  value : Nat
  upper : Nat
  /-- Whether the ends belong to the interval. -/
  closed : Bool

/-- The interval of a positive finite double.  Below a power of two the neighbour is only half as
far away. -/
def Interval.of (x : Double) : Interval :=
  let m := x.significand
  { lower := if x.fractionField = 0 ∧ 1 < x.exponentField then 4 * m - 1 else 4 * m - 2
    value := 4 * m
    upper := 4 * m + 2
    closed := m % 2 == 0 }

/-- The decimal of exactly `count` digits for the interval, if one lies in it.  The units of the
interval are `num / den`, and `place` is the place of the value's leading digit. -/
def candidate (interval : Interval) (num den : Nat) (place : Int) (count : Nat) : Option Decimal :=
  let unit : Int := place - (count - 1 : Nat)
  -- One unit of the decimal grid is `up / down`.
  let up := if 0 ≤ unit then Nat.pow 10 unit.toNat else 1
  let down := if 0 ≤ unit then 1 else Nat.pow 10 (-unit).toNat
  -- A grid point `d` equals `d * up * den` where the interval's `v` equals `v * num * down`.
  let scale := num * down
  let step := up * den
  let below := interval.value * scale / step
  let fits (d : Nat) : Bool :=
    if interval.closed then interval.lower * scale ≤ d * step && d * step ≤ interval.upper * scale
    else interval.lower * scale < d * step && d * step < interval.upper * scale
  let nearerBelow := 2 * (interval.value * scale) < (2 * below + 1) * step
  match fits below, fits (below + 1) with
  | true, true => some (ofScaled (if nearerBelow then below else below + 1) unit)
  | true, false => some (ofScaled below unit)
  | false, true => some (ofScaled (below + 1) unit)
  | false, false => none

/-- The shortest decimal that rounds to a positive finite double. -/
def shortest (x : Double) : Decimal :=
  let exponent := x.exponent - 2
  let num := if 0 ≤ exponent then Nat.pow 2 exponent.toNat else 1
  let den := if 0 ≤ exponent then 1 else Nat.pow 2 (-exponent).toNat
  let interval := Interval.of x
  let place := leadingPlace (interval.value * num) den
  match (List.range 17).findSome? fun i => candidate interval num den place (i + 1) with
  | some decimal => decimal
  | none => ofScaled 0 0

/-- A run of zeros. -/
def zeros (count : Nat) : List Char := List.replicate count '0'

/-- The positional digits of a decimal: those before and those after the point. -/
def positional (decimal : Decimal) : List Char × List Char :=
  let size := decimal.digits.length
  if decimal.point ≤ 0 then (['0'], zeros (-decimal.point).toNat ++ decimal.digits)
  else
    let point := decimal.point.toNat
    (decimal.digits.take point ++ zeros (point - size), decimal.digits.drop point)

/-- A decimal with one digit before the point and an exponent. -/
def scientific (decimal : Decimal) : String :=
  let exponent := "e" ++ showInt (decimal.point - 1)
  match decimal.digits with
  | [] => "0" ++ exponent
  | [digit] => String.ofList [digit] ++ exponent
  | digit :: rest => String.ofList (digit :: '.' :: rest) ++ exponent

end Decimal

namespace Double

/-- Puts the sign of a double before the text of its magnitude, and names what is not finite. -/
def showWith (layout : Double → String) (x : Double) : String :=
  if x.isNaN then "NaN"
  else (if x.isNegative then "-" else "") ++ (if x.isFinite then layout x.abs else "inf")

/-- The text of a double in a literal: positional with a point from `10 ^ -4` up to `10 ^ 16`, with
an exponent elsewhere. -/
def showLiteral : Double → String :=
  showWith fun x =>
    if x.isZero then "0.0"
    else
      let decimal := Decimal.shortest x
      if -3 ≤ decimal.point ∧ decimal.point ≤ 16 then
        let parts := decimal.positional
        let fraction := if parts.2.isEmpty then ['0'] else parts.2
        String.ofList (parts.1 ++ '.' :: fraction)
      else decimal.scientific

/-- The text of a double without an exponent, whole numbers without a point. -/
def showPlain : Double → String :=
  showWith fun x =>
    if x.isZero then "0"
    else
      let parts := (Decimal.shortest x).positional
      if parts.2.isEmpty then String.ofList parts.1
      else String.ofList (parts.1 ++ '.' :: parts.2)

end Double

end GuardedTrace
