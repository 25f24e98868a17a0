/-
Reading decimal text as a double.

The text is an optional sign followed by `inf`, `infinity` or `nan` in any case of letters, or by
digits with an optional point and an optional exponent.  At least one digit stands before or after
the point, and at least one in the exponent.  The value is rounded to the nearest double, ties to
even.
-/
import GuardedTrace.Number.Double
import GuardedTrace.Text.Numeral

namespace GuardedTrace.Double

open Text (readDigits readDigitsFrom readInteger)

/-- The digits before and after the point, and the exponent, of unsigned decimal text. -/
structure DecimalText where
  whole : List Char
  fraction : List Char
  exponent : Int

/-- Cuts unsigned decimal text into its parts. -/
def DecimalText.read (text : List Char) : Option DecimalText :=
  let whole := text.takeWhile Char.isDigit
  let afterWhole := text.dropWhile Char.isDigit
  let pointed := match afterWhole with
    | '.' :: rest => (rest.takeWhile Char.isDigit, rest.dropWhile Char.isDigit)
    | rest => ([], rest)
  if whole.isEmpty && pointed.1.isEmpty then none
  else
    match pointed.2 with
    | [] => some ⟨whole, pointed.1, 0⟩
    | mark :: rest =>
      if mark == 'e' || mark == 'E' then
        (readInteger rest).map fun exponent => ⟨whole, pointed.1, exponent⟩
      else none

/-- The double nearest to decimal text.  The place of the leading digit bounds the value, so an
exponent beyond all doubles is settled without computing its power of ten. -/
def DecimalText.toDouble (negative : Bool) (parts : DecimalText) : Double :=
  let digits := (readDigitsFrom 0 (parts.whole ++ parts.fraction)).getD 0
  let exponent : Int := parts.exponent - parts.fraction.length
  let leading : Int := exponent + (Nat.toDigits 10 digits).length
  if digits = 0 ∨ leading < -400 then ofRatio negative 0 1
  else if 400 < leading then ofRatio negative (Nat.pow 2 1024) 1
  else if 0 ≤ exponent then ofRatio negative (digits * Nat.pow 10 exponent.toNat) 1
  else ofRatio negative digits (Nat.pow 10 (-exponent).toNat)

/-- Reads text without a sign. -/
def readUnsigned (negative : Bool) (text : List Char) : Option Double :=
  let sign (x : Double) : Double := if negative then x.neg else x
  let lower := String.ofList (text.map Char.toLower)
  if lower = "inf" ∨ lower = "infinity" then some (sign infinity)
  else if lower = "nan" then some (sign nan)
  else (DecimalText.read text).map (DecimalText.toDouble negative)

/-- Reads text as a double. -/
def read : List Char → Option Double
  | '+' :: rest => readUnsigned false rest
  | '-' :: rest => readUnsigned true rest
  | text => readUnsigned false text

end GuardedTrace.Double
