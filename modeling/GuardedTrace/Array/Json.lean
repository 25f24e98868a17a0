/-
Element types and devices as JSON texts.

A form without a parameter is stored as its title; it may also be spelt as an object with the
title as the only name and `null` as the value.  A graphics device is an object with its number.
-/
import GuardedTrace.Array.Element
import GuardedTrace.Text.Json

namespace GuardedTrace

/-- The title that a JSON value gives to a form without a parameter. -/
def Json.title? : Json → Option String
  | .text name => name
  | .object [(name, .null)] => name
  | _ => none

namespace ElementType

/-- The name under which an element type is stored. -/
def title : ElementType → String
  | float32 => "Float32"
  | float64 => "Float64"
  | int64 => "Int64"
  | bool => "Bool"

/-- The element type of a stored text. -/
def read (source : String) : Option ElementType := do
  let name ← (← Json.read source).title?
  all.find? fun type => type.title == name

/-- An element type as a stored text. -/
def json (type : ElementType) : String := "\"" ++ type.title ++ "\""

end ElementType

namespace Device

/-- The device that a JSON value stands for. -/
def ofJson? : Json → Option Device
  | .object [(some "Cuda", .natural index)] =>
    if index < UInt8.size then some (cuda (UInt8.ofNat index)) else none
  | value => if value.title? = some "Cpu" then some cpu else none

/-- The device of a stored text. -/
def read (source : String) : Option Device := (Json.read source).bind ofJson?

/-- A device as a stored text. -/
def json : Device → String
  | cpu => "\"Cpu\""
  | cuda index => "\x7b\"Cuda\":" ++ Text.showNat index.toNat ++ "\x7d"

end Device

end GuardedTrace
