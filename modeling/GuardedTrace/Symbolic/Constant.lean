/-
Constants among symbolic values, and the attributes that are constants.
-/
import GuardedTrace.Symbolic.Basic
import GuardedTrace.Symbolic.Error
import GuardedTrace.Value.Subscript

namespace GuardedTrace

namespace Literal

/-- `literal[key]`, when the result is a literal again. -/
def getItem (literal key : Literal) : Run Literal := do
  let result ← (Value.ofLiteral literal).subscript 0 (Value.ofLiteral key)
  match result.literal? with
  | some item => .ok item
  | Option.none => .error (.type (.notLiteral result.typeName))

end Literal

namespace Symbolic

/-- A guard on the binding of a value. -/
def createGuard (value : Symbolic) (check : Check) : Answer Guard :=
  match value.binding? with
  | some (name, scope) => .ok ⟨name, scope, check⟩
  | none => .error (.noGuardPossible value.shown)

/-! ## The literal of a value -/

mutual

/-- The literal that a value stands for.  An item of a container that is no constant is reported
before the container. -/
def constant? : Symbolic → Answer Literal
  | ⟨kind, support, guards, localName, globalName⟩ =>
    match constantOfKind? kind with
    | .ok (some literal) => .ok literal
    | .ok none =>
      .error (.notConstant (.value (shown ⟨kind, support, guards, localName, globalName⟩)))
    | .error error => .error error
termination_by structural value => value

/-- The literal of a kind, if it has one; the error is that of an item. -/
def constantOfKind? : Kind → Answer (Option Literal)
  | .constant literal => .ok (some literal)
  | .host (.elementType type) => .ok (some (.elementType type))
  | .host (.device place) => .ok (some (.device place))
  | .sequence kind items => (constants? items).map kind.literal?
  | _ => .ok none
termination_by structural kind => kind

def constants? : List Symbolic → Answer (List Literal)
  | [] => .ok []
  | item :: rest => do
    let literal ← constant? item
    let literals ← constants? rest
    .ok (literal :: literals)
termination_by structural items => items

end

def isConstant (value : Symbolic) : Bool := (value.constant?).isOk

/-! ## The type of a value -/

/-- The type of a value, when it is known. -/
def typeName? (value : Symbolic) : Answer TypeName :=
  let unknown : Answer TypeName := .error (.unknownType value.shown)
  match value.kind with
  | .array _ => .ok .array
  | .scalar facts =>
    match facts.elementType with
    | some .bool => .ok .bool
    | some .int64 => .ok .int
    | some .float32 | some .float64 => .ok .float
    | none => unknown
  | .layer _ node => .ok (.layer node.typeName)
  | .constant literal => .ok literal.typeName
  | .builtin _ => .ok .builtin
  | .sequence kind _ => .ok kind.typeName
  | .dict _ => .ok .dict
  | .routine _ => .ok .routine
  | .method .. => .ok .method
  | .host item => .ok item.typeName
  | .library _ => .ok .library
  | .unsupported _ type => .ok type
  | .deferred _ | .iterator .. | .attr .. | .unknown _ => unknown

/-! ## Attributes of arrays -/

/-- The tuple of a list of sizes, when every size is a word. -/
def sizesLiteral? (sizes : List Nat) : Option Literal :=
  (sizes.mapM fun (size : Nat) => (narrow size).map Literal.int).map Literal.tuple

/-- Whether an attribute of arrays is a method that answers with a constant. -/
def isDeferredAttr (name : String) : Bool :=
  name == "dim" || name == "ndimension" || name == "size" || name == "stride"

/-- The literal behind an attribute of an array with known facts. -/
def factsAttr? (facts : ArrayFacts) (name : String) : Option Literal :=
  match name with
  | "ndim" | "dim" | "ndimension" => do
    let rank ← facts.rank
    (narrow rank).map Literal.int
  | "dtype" => facts.elementType.map Literal.elementType
  | "device" => facts.device.map Literal.device
  | "is_cuda" => facts.device.map fun place => Literal.bool place.isCuda
  | "shape" | "size" => facts.shape.bind sizesLiteral?
  | "stride" => facts.strides.bind sizesLiteral?
  | _ => none

/-- An attribute of an array that is known before running; queries that programs call come as
deferred constants. -/
def constAttr? (value : Symbolic) (name : String) : Option Symbolic :=
  match value.kind with
  | .array facts =>
    (factsAttr? facts name).map fun literal =>
      let constant := derived (.constant literal) [value]
      if isDeferredAttr name then derived (.deferred constant) [value] else constant
  | _ => none

/-- Calls a deferred constant: no argument gives it, one argument gives an item of it. -/
def callDeferred (callee : Symbolic) (args : List Symbolic) : Answer Symbolic :=
  match callee.kind with
  | .deferred payload => do
    let literal ← payload.constant?
    let result ← match args with
      | [] => .ok literal
      | [index] => do
        let key ← index.constant?
        match literal.getItem key with
        | .ok item => .ok item
        | .error error => .error (.notConstant (.run error))
      | _ => .error (.notConstant (.deferredArity callee.shown args.length))
    .ok (derived (.constant result) (callee :: args))
  | _ => .error (.notConstant (.value callee.shown))

/-! ## Attributes of layers and objects -/

/-- The literal that a member is. -/
def literalMember (member : Option Value) (name : String) : Answer Literal :=
  match member with
  | none => .error (.attributeNotConstant name .noSuchAttribute)
  | some value =>
    match value.literal? with
    | some literal => .ok literal
    | none => .error (.attributeNotConstant name (.notLiteral value.typeName))

/-- The value that an attribute of a layer or an object leads to. -/
def attrTarget? (holder : Kind) (name : String) : Option Value :=
  match holder with
  | .layer _ node => node.member? name
  | .unsupported value _ => (value.getAttr 0 name).toOption
  | _ => none

/-- An attribute that is proven to be a literal: of a layer, of an object, or of an attribute of
one of these. -/
def getConstAttr (value : Symbolic) (name : String) : Answer Literal :=
  match value.kind with
  | .attr holder step =>
    match attrTarget? holder.kind step with
    | none => .error (.attributeNotConstant name (.unresolved value.shown))
    | some (.layer node) => literalMember (node.member? name) name
    | some (.object owner) => literalMember (owner.attributes.lookup name) name
    | some other => .error (.attributeNotConstant name (.noneConstant other.typeName.text))
  | .layer _ node => literalMember (node.member? name) name
  | .unsupported (.object owner) _ => literalMember (owner.attributes.lookup name) name
  | _ => .error (.attributeNotConstant name (.noneConstant value.shown))

end Symbolic

end GuardedTrace
