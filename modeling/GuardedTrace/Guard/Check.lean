/-
Checks: what a guard asks of a value.

A check pins down as much of a value as a trace relied on: its type, its content, its identity, the
description of an array, the length of a sequence, the keys of a dictionary, or that nothing is
bound at all.  `Check.mismatch?` evaluates a check and names the first difference.
-/
import GuardedTrace.Value.Basic

namespace GuardedTrace

open Text (showNat showSizes)

/-- The description of an array that a guard pins down. -/
structure ArraySpec where
  elementType : ElementType
  device : Device
  rank : Nat
  /-- Present when shapes are specialised. -/
  shape : Option (List Nat)
  strides : Option (List Nat)
deriving DecidableEq

/-- The description of an array; without shape and strides when shapes are dynamic. -/
def ArraySpec.of (array : NumArray) (dynamicShapes : Bool) : ArraySpec :=
  { elementType := array.elementType
    device := array.device
    rank := array.rank
    shape := if dynamicShapes then none else some array.shape
    strides := if dynamicShapes then none else some array.strides }

/-- A callable without state of its own. -/
inductive HostCallable where
  | primitive (function : Primitive)
  | builtin (function : Builtin)
deriving DecidableEq

namespace HostCallable

/-- The host callable that a value is. -/
def of? : Value → Option HostCallable
  | .primitive function => some (primitive function)
  | .builtin function => some (builtin function)
  | _ => none

def written : HostCallable → String
  | primitive function => "HostFunction(" ++ function.title ++ ")"
  | builtin function => "Builtin(" ++ function.title ++ ")"

/-- The order of host callables: primitives first. -/
def cmp : HostCallable → HostCallable → Ordering
  | primitive a, primitive b => compare a.rank b.rank
  | primitive _, builtin _ => .lt
  | builtin _, primitive _ => .gt
  | builtin a, builtin b => compare a.rank b.rank

end HostCallable

/-- What a guard asks of a value. -/
inductive Check where
  | typeMatch (type : TypeName)
  | constantMatch (literal : Literal)
  | idMatch (id : Identity)
  | arrayMatch (spec : ArraySpec)
  | lengthMatch (length : Nat)
  /-- A dictionary with exactly these keys. -/
  | keysMatch (keys : List Key)
  | hostMatch (callable : HostCallable)
  /-- Nothing is bound under the name. -/
  | unbound
deriving DecidableEq

/-- How a value differs from what a check asks.  The actual part comes first. -/
inductive Mismatch where
  | type (actual expected : TypeName)
  | constant (actual expected : Literal)
  | notLiteral (type : TypeName)
  | identity (actual expected : Identity)
  | noIdentity (type : TypeName)
  | notArray (type : TypeName)
  | elementType (actual expected : ElementType)
  | device (actual expected : Device)
  | rank (actual expected : Nat)
  | shape (actual expected : List Nat)
  | strides (actual expected : List Nat)
  | length (actual expected : Nat)
  | noLength (type : TypeName)
  | keys (actual expected : List Key)
  | notDict (type : TypeName)
  | notHost (type : TypeName) (expected : HostCallable)
  | bound (type : TypeName)
deriving DecidableEq

def Mismatch.message : Mismatch → String
  | type actual expected => "type " ++ actual.text ++ " != " ++ expected.text
  | constant actual expected => actual.written ++ " != " ++ expected.written
  | notLiteral given => given.text ++ " is not a literal"
  | identity actual expected => "id " ++ actual.written ++ " != " ++ expected.written
  | noIdentity given => given.text ++ " has no identity"
  | notArray given => "type " ++ given.text ++ " != array"
  | elementType actual expected => "dtype " ++ actual.name ++ " != " ++ expected.name
  | device actual expected => "device " ++ actual.text ++ " != " ++ expected.text
  | rank actual expected => "ndim " ++ showNat actual ++ " != " ++ showNat expected
  | shape actual expected => "shape " ++ showSizes actual ++ " != " ++ showSizes expected
  | strides actual expected => "strides " ++ showSizes actual ++ " != " ++ showSizes expected
  | length actual expected => "len " ++ showNat actual ++ " != " ++ showNat expected
  | noLength given => given.text ++ " has no length"
  | keys actual expected =>
    "keys [" ++ Key.writtenList actual ++ "] != [" ++ Key.writtenList expected ++ "]"
  | notDict given => "type " ++ given.text ++ " != dict"
  | notHost given expected => given.text ++ " is not " ++ expected.written
  | bound given => "bound to " ++ given.text

namespace ArraySpec

/-- A part that is pinned down differs. -/
def differs (actual : List Nat) : Option (List Nat) → Option (List Nat)
  | some expected => if actual = expected then none else some expected
  | none => none

/-- The first difference between an array and a description. -/
def mismatch? (spec : ArraySpec) (array : NumArray) : Option Mismatch :=
  if array.elementType ≠ spec.elementType
    then some (.elementType array.elementType spec.elementType)
  else if array.device ≠ spec.device then some (.device array.device spec.device)
  else if array.rank ≠ spec.rank then some (.rank array.rank spec.rank)
  else
    match differs array.shape spec.shape, differs array.strides spec.strides with
    | some expected, _ => some (.shape array.shape expected)
    | none, some expected => some (.strides array.strides expected)
    | none, none => none

end ArraySpec

namespace Check

/-- The difference between a value and what a check asks; nothing when the value passes. -/
def mismatch? (check : Check) (value : Value) : Option Mismatch :=
  match check with
  | typeMatch type => if value.typeName = type then none else some (.type value.typeName type)
  | constantMatch expected =>
    match value.literal? with
    | some actual => if actual = expected then none else some (.constant actual expected)
    | none => some (.notLiteral value.typeName)
  | idMatch expected =>
    match value.identity? with
    | some actual => if actual = expected then none else some (.identity actual expected)
    | none => some (.noIdentity value.typeName)
  | arrayMatch spec =>
    match value with
    | .array array => spec.mismatch? array
    | other => some (.notArray other.typeName)
  | lengthMatch expected =>
    match value with
    | .tuple items | .list items =>
      if items.length = expected then none else some (.length items.length expected)
    | other => some (.noLength other.typeName)
  | keysMatch expected =>
    match value with
    | .dict entries =>
      if Table.keys entries = expected then none else some (.keys (Table.keys entries) expected)
    | other => some (.notDict other.typeName)
  | hostMatch expected =>
    if HostCallable.of? value = some expected then none
    else some (.notHost value.typeName expected)
  | unbound => some (.bound value.typeName)

/-- A check as it is written. -/
def written : Check → String
  | typeMatch type => "TYPE_MATCH(" ++ type.text ++ ")"
  | constantMatch literal => "CONSTANT_MATCH(" ++ literal.written ++ ")"
  | idMatch id => "ID_MATCH(" ++ id.written ++ ")"
  | arrayMatch spec =>
    "ARRAY_MATCH(" ++ spec.elementType.name ++ ", " ++ spec.device.text ++ ", ndim="
      ++ showNat spec.rank
      ++ (match spec.shape with
        | some shape => ", shape=" ++ showSizes shape
        | none => "")
      ++ (match spec.strides with
        | some strides => ", strides=" ++ showSizes strides
        | none => "")
      ++ ")"
  | lengthMatch length => "LENGTH_MATCH(" ++ showNat length ++ ")"
  | keysMatch keys => "KEYS_MATCH([" ++ Key.writtenList keys ++ "])"
  | hostMatch callable => "HOST_MATCH(" ++ callable.written ++ ")"
  | unbound => "UNBOUND"

/-! ## Order -/

/-- The lexicographic order of sizes. -/
def cmpSizes : List Nat → List Nat → Ordering
  | [], [] => .eq
  | [], _ :: _ => .lt
  | _ :: _, [] => .gt
  | a :: as, b :: bs => (compare a b).then (cmpSizes as bs)

/-- The order of optional sizes: absent ones first. -/
def cmpSizes? : Option (List Nat) → Option (List Nat) → Ordering
  | none, none => .eq
  | none, some _ => .lt
  | some _, none => .gt
  | some a, some b => cmpSizes a b

/-- The order of descriptions of arrays, part by part. -/
def cmpSpec (a b : ArraySpec) : Ordering :=
  ((((compare a.elementType.rank b.elementType.rank).then
    (compare a.device.rank b.device.rank)).then
    (compare a.rank b.rank)).then (cmpSizes? a.shape b.shape)).then (cmpSizes? a.strides b.strides)

/-- The place of a check's kind in the order. -/
def rank : Check → Nat
  | typeMatch _ => 0
  | constantMatch _ => 1
  | idMatch _ => 2
  | arrayMatch _ => 3
  | lengthMatch _ => 4
  | keysMatch _ => 5
  | hostMatch _ => 6
  | unbound => 7

/-- The order of checks: by kind, then by content. -/
def cmp : Check → Check → Ordering
  | typeMatch a, typeMatch b => a.cmp b
  | constantMatch a, constantMatch b => a.cmp b
  | idMatch a, idMatch b => a.cmp b
  | arrayMatch a, arrayMatch b => cmpSpec a b
  | lengthMatch a, lengthMatch b => compare a b
  | keysMatch a, keysMatch b => Key.cmpList a b
  | hostMatch a, hostMatch b => a.cmp b
  | a, b => compare a.rank b.rank

end Check

end GuardedTrace
