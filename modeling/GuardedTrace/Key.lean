/-
Dictionary keys: integers and texts.

Integers come before texts, integers are ordered by value and texts by code points.
-/
import GuardedTrace.Table
import GuardedTrace.Text.Numeral

namespace GuardedTrace

/-- A key of a dictionary. -/
inductive Key where
  | int (value : Int64)
  | text (value : String)
deriving DecidableEq

namespace Key

/-- The order of keys. -/
def cmp : Key → Key → Ordering
  | int a, int b => compare a.toInt b.toInt
  | int _, text _ => .lt
  | text _, int _ => .gt
  | text a, text b => compare a b

/-- The lexicographic order of lists of keys. -/
def cmpList : List Key → List Key → Ordering
  | [], [] => .eq
  | [], _ :: _ => .lt
  | _ :: _, [] => .gt
  | a :: as, b :: bs => (a.cmp b).then (cmpList as bs)

/-- A key as it is written in paths and messages; texts stand in single quotes, with nothing
escaped. -/
def written : Key → String
  | int value => Text.showInt value.toInt
  | text value => "'" ++ value ++ "'"

/-- Keys with commas between them. -/
def writtenList (keys : List Key) : String := Text.joinWith ", " (keys.map written)

end Key

end GuardedTrace
