/-
JSON texts.

Settings, element types and devices are stored as JSON.  A value is read here only as far as the
readers of those forms look at it: whole numbers without sign, fraction or exponent keep their
value, all other numerals are only known to be numerals, and a string whose escapes name half of a
surrogate pair stands for no text, though it is well formed.  Objects keep their entries in order
and with repetitions, so that a reader can refuse a repeated name.
-/
import GuardedTrace.Text.Numeral

namespace GuardedTrace

/-- A JSON value. -/
inductive Json where
  | null
  | bool (value : Bool)
  /-- A numeral of digits alone. -/
  | natural (value : Nat)
  /-- A numeral with a sign, a fraction or an exponent. -/
  | numeral
  /-- A string, with the text that it stands for if it stands for one. -/
  | text (value : Option String)
  | array (items : List Json)
  | object (entries : List (Option String × Json))

namespace Json

/-! ## Strings -/

/-- A part of a string: a character, or the UTF-16 unit of a numeric escape. -/
inductive Piece where
  | char (c : Char)
  | unit (value : Nat)

/-- The character that a backslash and a letter stand for. -/
def escaped? : Char → Option Char
  | '"' => some '"'
  | '\\' => some '\\'
  | '/' => some '/'
  | 'b' => some '\x08'
  | 'f' => some '\x0c'
  | 'n' => some '\n'
  | 'r' => some '\r'
  | 't' => some '\t'
  | _ => none

/-- The value of a hexadecimal digit. -/
def hexDigit? (c : Char) : Option Nat :=
  if c.isDigit then some (c.toNat - '0'.toNat)
  else if 'a' ≤ c && c ≤ 'f' then some (c.toNat - 'a'.toNat + 10)
  else if 'A' ≤ c && c ≤ 'F' then some (c.toNat - 'A'.toNat + 10)
  else none

/-- The value of a run of hexadecimal digits. -/
def hexValue? (digits : List Char) : Option Nat :=
  digits.foldlM (fun value c => (hexDigit? c).map (16 * value + ·)) 0

/-- The parts of a string up to its closing quote, and the text after the quote.  Control
characters have to be escaped. -/
def readPieces : List Char → Option (List Piece × List Char)
  | [] => none
  | '"' :: rest => some ([], rest)
  | '\\' :: 'u' :: a :: b :: c :: d :: rest => do
    let value ← hexValue? [a, b, c, d]
    let (pieces, rest) ← readPieces rest
    return (.unit value :: pieces, rest)
  | '\\' :: c :: rest => do
    let c ← escaped? c
    let (pieces, rest) ← readPieces rest
    return (.char c :: pieces, rest)
  | c :: rest =>
    if c == '\\' || c.toNat < 0x20 then none
    else (readPieces rest).map fun (pieces, rest) => (.char c :: pieces, rest)

/-- Whether a unit is the first half of a surrogate pair. -/
def isLeading (value : Nat) : Bool := 0xd800 ≤ value && value < 0xdc00

/-- Whether a unit is the second half of a surrogate pair. -/
def isTrailing (value : Nat) : Bool := 0xdc00 ≤ value && value < 0xe000

/-- The characters that parts stand for: two units that form a surrogate pair are one character,
and half of a pair is none. -/
def decode? : List Piece → Option (List Char)
  | [] => some []
  | .char c :: rest => (decode? rest).map (c :: ·)
  | .unit high :: .unit low :: rest =>
    if isLeading high then
      if isTrailing low then
        (decode? rest).map (Char.ofNat (0x10000 + 0x400 * (high - 0xd800) + (low - 0xdc00)) :: ·)
      else none
    else if isTrailing high then none
    else (decode? (.unit low :: rest)).map (Char.ofNat high :: ·)
  | .unit value :: rest =>
    if isLeading value || isTrailing value then none
    else (decode? rest).map (Char.ofNat value :: ·)

/-- A string after its opening quote. -/
def readText (source : List Char) : Option (Option String × List Char) :=
  (readPieces source).map fun (pieces, rest) => ((decode? pieces).map String.ofList, rest)

/-! ## Numerals -/

/-- A non-empty run of digits and the text after it. -/
def readRun (source : List Char) : Option (List Char × List Char) :=
  match source.span Char.isDigit with
  | ([], _) => none
  | (digits, rest) => some (digits, rest)

/-- The text after a fraction, if there is one; a point must be followed by a digit. -/
def skipFraction : List Char → Option (List Char × Bool)
  | '.' :: rest => (readRun rest).map fun (_, rest) => (rest, true)
  | source => some (source, false)

/-- The text after an exponent, if there is one; its mark and sign must be followed by a digit. -/
def skipExponent : List Char → Option (List Char × Bool)
  | c :: rest =>
    if c == 'e' || c == 'E' then
      let digits := match rest with
        | '+' :: digits | '-' :: digits => digits
        | digits => digits
      (readRun digits).map fun (_, rest) => (rest, true)
    else some (c :: rest, false)
  | [] => some ([], false)

/-- A numeral without its sign.  A zero stands alone before the point. -/
def readUnsigned (source : List Char) : Option (Json × List Char) := do
  let (whole, rest) ← match source with
    | '0' :: rest => some (['0'], rest)
    | _ => readRun source
  let (rest, hasFraction) ← skipFraction rest
  let (rest, hasExponent) ← skipExponent rest
  if hasFraction || hasExponent then return (.numeral, rest)
  let value ← Text.readDigits whole
  return (.natural value, rest)

/-! ## Values -/

/-- Whether a character may stand between the parts of a value. -/
def isSpace (c : Char) : Bool := c == ' ' || c == '\n' || c == '\t' || c == '\r'

/-- The text after the spaces in front of it. -/
def skipSpace (source : List Char) : List Char := source.dropWhile isSpace

/-- A value that is neither an array nor an object. -/
def readScalar : List Char → Option (Json × List Char)
  | 'n' :: 'u' :: 'l' :: 'l' :: rest => some (.null, rest)
  | 't' :: 'r' :: 'u' :: 'e' :: rest => some (.bool true, rest)
  | 'f' :: 'a' :: 'l' :: 's' :: 'e' :: rest => some (.bool false, rest)
  | '"' :: rest => (readText rest).map fun (value, rest) => (.text value, rest)
  | '-' :: rest => (readUnsigned rest).map fun (_, rest) => (.numeral, rest)
  | source => readUnsigned source

mutual

/-- A value at the front of a text, and the text after it. -/
def readValue : Nat → List Char → Option (Json × List Char)
  | 0, _ => none
  | depth + 1, source =>
    match skipSpace source with
    | '[' :: rest =>
      match skipSpace rest with
      | ']' :: rest => some (.array [], rest)
      | rest => (readItems depth rest).map fun (items, rest) => (.array items, rest)
    | '\x7b' :: rest =>
      match skipSpace rest with
      | '\x7d' :: rest => some (.object [], rest)
      | rest => (readEntries depth rest).map fun (entries, rest) => (.object entries, rest)
    | rest => readScalar rest

/-- The items of an array that is not empty, up to its closing bracket. -/
def readItems : Nat → List Char → Option (List Json × List Char)
  | 0, _ => none
  | depth + 1, source => do
    let (item, rest) ← readValue depth source
    match skipSpace rest with
    | ',' :: rest =>
      let (items, rest) ← readItems depth rest
      return (item :: items, rest)
    | ']' :: rest => return ([item], rest)
    | _ => none

/-- The entries of an object that is not empty, up to its closing brace. -/
def readEntries : Nat → List Char → Option (List (Option String × Json) × List Char)
  | 0, _ => none
  | depth + 1, source => do
    let '"' :: rest := skipSpace source | none
    let (name, rest) ← readText rest
    let ':' :: rest := skipSpace rest | none
    let (value, rest) ← readValue depth rest
    match skipSpace rest with
    | ',' :: rest =>
      let (entries, rest) ← readEntries depth rest
      return ((name, value) :: entries, rest)
    | '\x7d' :: rest => return ([(name, value)], rest)
    | _ => none

end

/-- The value that a text spells.  A value nests no deeper than its text has characters, and each
level is entered by way of a list, so twice the length bounds the recursion. -/
def read (source : String) : Option Json := do
  let (value, rest) ← readValue (2 * source.length + 2) source.toList
  if (skipSpace rest).isEmpty then some value else none

end Json

end GuardedTrace
