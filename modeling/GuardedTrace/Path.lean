/-
Binding paths: texts that name a place in a frame.

A path is a name followed by any number of steps, `.attr` or `[key]`, such as `x`, `xs[1]`,
`cfg.dims[0]` or `d['scale']`.  A path is *well formed* when its root is an identifier, every
attribute is an identifier or a run of digits, and no text key contains a closing bracket; these
are exactly the paths that reading their written form gives back.
-/
import GuardedTrace.Frame
import GuardedTrace.Text.Identifier
import GuardedTrace.Value.Subscript

namespace GuardedTrace

/-- One step from a value to a value inside it. -/
inductive PathStep where
  | attr (name : String)
  | index (key : Key)
deriving DecidableEq

/-- A place in a frame. -/
structure Path where
  root : String
  steps : List PathStep
deriving DecidableEq

/-- Why a path leads nowhere. -/
inductive PathError where
  | malformed (text : String)
  | unbound (name : String)
  /-- A step failed on the value before it. -/
  | step (path : Path) (error : RunError)
deriving DecidableEq

namespace PathStep

def written : PathStep → String
  | attr name => "." ++ name
  | index key => "[" ++ key.written ++ "]"

/-- Whether a text can stand after a point: an identifier or the number of a child. -/
def isAttrName (text : List Char) : Bool :=
  Text.isIdentifier text || (!text.isEmpty && text.all Char.isDigit)

/-- Reads what stands between brackets: a text in single quotes or an integer. -/
def readKey (inner : List Char) : Option Key :=
  let integer : Option Key := ((Text.readInteger inner).bind narrow).map .int
  match inner with
  | '\'' :: body =>
    if body.getLast? = some '\'' then some (.text (String.ofList body.dropLast)) else integer
  | _ => integer

/-- Whether a character ends a name in a path. -/
def endsName (c : Char) : Bool := c == '.' || c == '['

/-- Reads steps up to the end of the text.  Every step takes at least one character, so the length
of the text bounds their number. -/
def readAll : Nat → List Char → Option (List PathStep)
  | _, [] => some []
  | 0, _ => none
  | fuel + 1, '.' :: rest =>
    let name := rest.takeWhile (!endsName ·)
    if isAttrName name then
      (readAll fuel (rest.dropWhile (!endsName ·))).map (attr (String.ofList name) :: ·)
    else none
  | fuel + 1, '[' :: rest =>
    match readKey (rest.takeWhile (· != ']')), rest.dropWhile (· != ']') with
    | some key, ']' :: tail => (readAll fuel tail).map (index key :: ·)
    | _, _ => none
  | _, _ => none

end PathStep

namespace Path

/-- The text of a path. -/
def written (path : Path) : String :=
  path.steps.foldl (fun text step => text ++ step.written) path.root

/-- Reads a path. -/
def read (text : String) : Except PathError Path :=
  let chars := text.toList
  let root := chars.takeWhile (!PathStep.endsName ·)
  let rest := chars.dropWhile (!PathStep.endsName ·)
  if Text.isIdentifier root then
    match PathStep.readAll rest.length rest with
    | some steps => .ok ⟨String.ofList root, steps⟩
    | none => .error (.malformed text)
  else .error (.malformed text)

/-- Takes one step from a value. -/
def take (value : Value) : PathStep → Run Value
  | .attr name => value.getAttr 0 name
  | .index key => value.subscript 0 (Value.ofKey key)

/-- Follows steps from a value. -/
def follow (value : Value) : List PathStep → Run Value
  | [] => .ok value
  | step :: rest => (take value step).bind fun next => follow next rest

/-- The value at a path of a frame. -/
def resolve (path : Path) (frame : Frame) (scope : Scope) : Except PathError Value :=
  match frame.lookup? scope path.root with
  | none => .error (.unbound path.root)
  | some value =>
    match follow value path.steps with
    | .ok result => .ok result
    | .error error => .error (.step path error)

end Path

/-- The name of the class of an error. -/
def PathError.label : PathError → String
  | malformed _ => "Malformed"
  | unbound _ => "Unbound"
  | step .. => "Step"

def PathError.message : PathError → String
  | malformed text => "malformed binding path `" ++ text ++ "`"
  | unbound name => "`" ++ name ++ "` is not bound"
  | step path error => "cannot resolve `" ++ path.written ++ "`: " ++ error.message

/-- The value at the path that a text names. -/
def Frame.resolve (frame : Frame) (scope : Scope) (text : String) : Except PathError Value :=
  (Path.read text).bind fun path => path.resolve frame scope

end GuardedTrace
