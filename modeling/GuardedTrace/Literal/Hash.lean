/-
What literals write to a hasher.

A hasher takes one write after the other: numbers of a fixed width, the bytes of a text, the place
of a constructor in its type, a number of items.  A literal writes the place of its kind and then
its content, a float its bits, a text its bytes and an end mark, a tuple or a list its length and
its items.
-/
import GuardedTrace.Literal

namespace GuardedTrace

/-- A write to a hasher. -/
inductive HashWrite where
  | byte (value : UInt8)
  | word (value : Int64)
  | bits (value : UInt64)
  | bytes (content : Array UInt8)
  /-- The place of a constructor in its type. -/
  | variant (place : Nat)
  /-- The number of items that follow. -/
  | length (count : Nat)
deriving DecidableEq

/-- What an optional bound writes. -/
def Slice.hashBound : Option Int64 → List HashWrite
  | none => [.variant 0]
  | some bound => [.variant 1, .word bound]

/-- What a slice writes: its bounds, one after the other. -/
def Slice.hashWrites (slice : Slice) : List HashWrite :=
  hashBound slice.start ++ hashBound slice.stop ++ hashBound slice.step

/-- What an element type writes. -/
def ElementType.hashWrites (type : ElementType) : List HashWrite := [.variant type.rank]

/-- What a device writes. -/
def Device.hashWrites : Device → List HashWrite
  | cpu => [.variant 0]
  | cuda index => [.variant 1, .byte index]

namespace Literal

mutual

/-- What a literal writes behind the place of its kind. -/
def hashContent : Literal → List HashWrite
  | none => []
  | bool value => [.byte value.toUInt8]
  | int value => [.word value]
  | float value => [.bits value.bits]
  | str value => [.bytes value.toUTF8.data, .byte 0xff]
  | tuple items => .length items.length :: hashItems items
  | list items => .length items.length :: hashItems items
  | slice bounds => bounds.hashWrites
  | elementType type => type.hashWrites
  | device place => place.hashWrites
termination_by structural literal => literal

/-- What items write, one after the other. -/
def hashItems : List Literal → List HashWrite
  | [] => []
  | item :: rest => .byte (UInt8.ofNat item.rank) :: hashContent item ++ hashItems rest
termination_by structural items => items

end

/-- What a literal writes: the place of its kind, and its content behind it. -/
def hashWrites (literal : Literal) : List HashWrite :=
  .byte (UInt8.ofNat literal.rank) :: literal.hashContent

end Literal

end GuardedTrace
