/-
Blank characters, and the cutting of text into lines and words.

A character is blank when it has the Unicode property `White_Space`.  Texts are lists of
characters here, because every rule of the library that reads text works from left to right.
-/

namespace GuardedTrace.Text

/-- Whether a character is blank. -/
def isBlank (c : Char) : Bool :=
  let point := c.toNat
  (9 ≤ point && point ≤ 13) || point == 0x20 || point == 0x85 || point == 0xa0 || point == 0x1680
    || (0x2000 ≤ point && point ≤ 0x200a) || point == 0x2028 || point == 0x2029 || point == 0x202f
    || point == 0x205f || point == 0x3000

/-- A text without the blanks at its two ends. -/
def trim (text : List Char) : List Char :=
  ((text.dropWhile isBlank).reverse.dropWhile isBlank).reverse

/-- Cuts a text at every character of a class.  The pieces keep their order, empty ones included,
so there is always one piece more than there are cuts. -/
def cutAt (stops : Char → Bool) : List Char → List (List Char)
  | [] => [[]]
  | c :: rest =>
    match cutAt stops rest with
    | [] => [[c]]
    | piece :: pieces => if stops c then [] :: piece :: pieces else (c :: piece) :: pieces

/-- The lines of a text: the pieces between its newlines. -/
def lines (text : List Char) : List (List Char) := cutAt (· == '\n') text

/-- A line without the carriage return that may end it. -/
def dropReturn (line : List Char) : List Char :=
  if line.getLast? = some '\r' then line.dropLast else line

/-- The words of a text: its longest runs of characters that are not blank. -/
def words (text : List Char) : List (List Char) := (cutAt isBlank text).filter (!·.isEmpty)

/-- Concatenates texts with a separator between neighbours. -/
def joinWith (separator : String) : List String → String
  | [] => ""
  | [text] => text
  | text :: rest => text ++ separator ++ joinWith separator rest

/-- Pads a text with spaces on the right up to a width, counted in characters. -/
def padRight (width : Nat) (text : String) : String :=
  text ++ String.ofList (List.replicate (width - text.length) ' ')

end GuardedTrace.Text
