/-
Decimal numerals as text.

A numeral is a non-empty run of ASCII digits, with a sign where the reader allows one.  Readers
are strict: no blanks, no separators, no digits of other scripts.
-/
import GuardedTrace.Text.Blank

namespace GuardedTrace.Text

/-- The value of a run of digits after an already read part; nothing when another character
occurs. -/
def readDigitsFrom (read : Nat) : List Char → Option Nat
  | [] => some read
  | c :: rest => if c.isDigit then readDigitsFrom (10 * read + (c.toNat - '0'.toNat)) rest else none

/-- The value of a non-empty run of digits. -/
def readDigits : List Char → Option Nat
  | [] => none
  | text => readDigitsFrom 0 text

/-- The value of a numeral that may carry a plus sign. -/
def readNatural : List Char → Option Nat
  | '+' :: rest => readDigits rest
  | text => readDigits text

/-- The value of a numeral that may carry a sign. -/
def readInteger : List Char → Option Int
  | '+' :: rest => (readDigits rest).map Int.ofNat
  | '-' :: rest => (readDigits rest).map fun n => -(n : Int)
  | text => (readDigits text).map Int.ofNat

/-- The digits of a number in base ten. -/
def showNat (n : Nat) : String := String.ofList (Nat.toDigits 10 n)

/-- The digits of a number in base sixteen, in lower case. -/
def showHex (n : Nat) : String := String.ofList (Nat.toDigits 16 n)

/-- An integer in base ten, with a minus sign when it is negative. -/
def showInt : Int → String
  | .ofNat n => showNat n
  | .negSucc n => "-" ++ showNat (n + 1)

/-- A list of sizes as it stands in messages: `[2, 3]`. -/
def showSizes (sizes : List Nat) : String := "[" ++ joinWith ", " (sizes.map showNat) ++ "]"

end GuardedTrace.Text
