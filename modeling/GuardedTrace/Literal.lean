/-
Literals: values that are fully known before a program runs.

Literals occur as constants of code, as operands of graphs and inside guards.  Their equality is
structural and strict: `1`, `1.0` and `True` are three literals, and floats are the same literal
only when their bits agree.
-/
import GuardedTrace.Array.Element
import GuardedTrace.Slice

namespace GuardedTrace

/-- A value known before running. -/
inductive Literal where
  | none
  | bool (value : Bool)
  | int (value : Int64)
  | float (value : Double)
  | str (value : String)
  | tuple (items : List Literal)
  | list (items : List Literal)
  | slice (bounds : Slice)
  | elementType (type : ElementType)
  | device (place : Device)

namespace Literal

def typeName : Literal → TypeName
  | none => .noneType
  | bool _ => .bool
  | int _ => .int
  | float _ => .float
  | str _ => .str
  | tuple _ => .tuple
  | list _ => .list
  | slice _ => .slice
  | elementType _ => .elementType
  | device _ => .device

/-- The word of a 0-or-1 truth value. -/
def wordOfBool (b : Bool) : Int64 := if b then 1 else 0

/-- The integer that a literal counts as, truth values included. -/
def toInt? : Literal → Option Int64
  | int value => some value
  | bool value => some (wordOfBool value)
  | _ => Option.none

/-- The dictionary key of an integer or a text. -/
def toKey? : Literal → Option Key
  | int value => some (.int value)
  | str value => some (.text value)
  | _ => Option.none

/-- The items of a tuple or a list. -/
def items? : Literal → Option (List Literal)
  | tuple items | list items => some items
  | _ => Option.none

/-! ## Equality -/

mutual

/-- Whether two literals are the same. -/
def same : Literal → Literal → Bool
  | none, none => true
  | bool a, bool b => a == b
  | int a, int b => a == b
  | float a, float b => a == b
  | str a, str b => a == b
  | tuple a, tuple b => sameItems a b
  | list a, list b => sameItems a b
  | slice a, slice b => a == b
  | elementType a, elementType b => a == b
  | device a, device b => a == b
  | _, _ => false
termination_by structural a => a

/-- Whether two lists of literals are the same. -/
def sameItems : List Literal → List Literal → Bool
  | [], [] => true
  | a :: as, b :: bs => same a b && sameItems as bs
  | _, _ => false
termination_by structural as => as

end

mutual

theorem same_iff : ∀ a b : Literal, same a b = true ↔ a = b
  | none, b => by cases b <;> simp [same]
  | bool _, b => by cases b <;> simp [same]
  | int _, b => by cases b <;> simp [same]
  | float _, b => by cases b <;> simp [same]
  | str _, b => by cases b <;> simp [same]
  | tuple as, b => by cases b <;> simp [same, sameItems_iff as]
  | list as, b => by cases b <;> simp [same, sameItems_iff as]
  | slice _, b => by cases b <;> simp [same]
  | elementType _, b => by cases b <;> simp [same]
  | device _, b => by cases b <;> simp [same]
termination_by structural a => a

theorem sameItems_iff : ∀ as bs : List Literal, sameItems as bs = true ↔ as = bs
  | [], bs => by cases bs <;> simp [sameItems]
  | a :: as, bs => by cases bs <;> simp [sameItems, same_iff a, sameItems_iff as]
termination_by structural as => as

end

instance : DecidableEq Literal := fun a b => decidable_of_iff _ (same_iff a b)

/-! ## Order -/

/-- The place of a literal's kind in the order. -/
def rank : Literal → Nat
  | none => 0
  | bool _ => 1
  | int _ => 2
  | float _ => 3
  | str _ => 4
  | tuple _ => 5
  | list _ => 6
  | slice _ => 7
  | elementType _ => 8
  | device _ => 9

mutual

/-- The order of literals: by kind, then by content; floats in their total order, tuples and lists
lexicographically. -/
def cmp : Literal → Literal → Ordering
  | none, none => .eq
  | bool a, bool b => compare a.toNat b.toNat
  | int a, int b => compare a.toInt b.toInt
  | float a, float b => a.compareTotal b
  | str a, str b => compare a b
  | tuple a, tuple b => cmpItems a b
  | list a, list b => cmpItems a b
  | slice a, slice b => a.cmp b
  | elementType a, elementType b => compare a.rank b.rank
  | device a, device b => compare a.rank b.rank
  | a, b => compare a.rank b.rank
termination_by structural a => a

/-- The lexicographic order of lists of literals. -/
def cmpItems : List Literal → List Literal → Ordering
  | [], [] => .eq
  | [], _ :: _ => .lt
  | _ :: _, [] => .gt
  | a :: as, b :: bs => (cmp a b).then (cmpItems as bs)
termination_by structural as => as

end

/-! ## Text -/

/-- A bound of a slice as it is written. -/
def writtenBound : Option Int64 → String
  | some bound => Text.showInt bound.toInt
  | Option.none => "None"

mutual

/-- A literal as it is written in guards, graphs and messages.  Texts stand in single quotes, with
nothing escaped. -/
def written : Literal → String
  | none => "None"
  | bool true => "True"
  | bool false => "False"
  | int value => Text.showInt value.toInt
  | float value => value.showLiteral
  | str value => "'" ++ value ++ "'"
  | tuple [] => "()"
  | tuple [item] => "(" ++ written item ++ ",)"
  | tuple items => "(" ++ writtenItems items ++ ")"
  | list items => "[" ++ writtenItems items ++ "]"
  | slice bounds =>
    "slice(" ++ writtenBound bounds.start ++ ", " ++ writtenBound bounds.stop ++ ", "
      ++ writtenBound bounds.step ++ ")"
  | elementType type => type.name
  | device place => "device('" ++ place.text ++ "')"
termination_by structural literal => literal

/-- Literals with commas between them. -/
def writtenItems : List Literal → String
  | [] => ""
  | [item] => written item
  | item :: rest => written item ++ ", " ++ writtenItems rest
termination_by structural items => items

end

end Literal

end GuardedTrace
