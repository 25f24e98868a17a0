/-
Why a symbolic value cannot be used in some way.
-/
import GuardedTrace.Error
import GuardedTrace.Literal

namespace GuardedTrace

open Text (showNat showInt)

/-- Why something is no constant.  `shown` is the description of the value at fault. -/
inductive ConstantFault where
  | value (shown : String)
  /-- Computing the constant failed. -/
  | run (error : RunError)
  | deferredArity (shown : String) (count : Nat)
  | notLayer (shown : String)
  | notLayerList (typeName : String)
  | layerIndexRange (index : Int64)
  | layerIndex (index : Literal)
  | notIterable (shown : String)
  | notSequence (shown : String)
  | index (index : Literal)
  | indexRange (index : Int64)
  | unhashable (key : Literal)
  | missingKey (key : Key)
  | notIndexable (shown : String)
  | notIterator (shown : String)
deriving DecidableEq

def ConstantFault.message : ConstantFault → String
  | value shown => shown
  | run error => error.message
  | deferredArity shown count => shown ++ " called with " ++ showNat count ++ " arguments"
  | notLayer shown => shown ++ " is not a module"
  | notLayerList typeName => typeName ++ " is not a module list"
  | layerIndexRange position => "module index " ++ showInt position.toInt ++ " out of range"
  | layerIndex position => "module index " ++ position.written
  | notIterable shown => shown ++ " is not iterable"
  | notSequence shown => shown ++ " is not a known sequence"
  | index position => "index " ++ position.written
  | indexRange position => "index " ++ showInt position.toInt ++ " out of range"
  | unhashable key => "unhashable key " ++ key.written
  | missingKey key => "missing key " ++ key.written
  | notIndexable shown => shown ++ " is not indexable by a constant"
  | notIterator shown => shown ++ " is not an iterator"

/-- Why an attribute is not known before running. -/
inductive AttrFault where
  | noSuchAttribute
  | notLiteral (type : TypeName)
  | unresolved (shown : String)
  | noneConstant (shown : String)
deriving DecidableEq

def AttrFault.message : AttrFault → String
  | noSuchAttribute => "no such attribute"
  | notLiteral type => type.text ++ " is not a literal"
  | unresolved shown => "cannot resolve " ++ shown
  | noneConstant shown => shown ++ " has no constant attributes"

/-- Why a symbolic value cannot be used in some way. -/
inductive SymbolicError where
  | notConstant (fault : ConstantFault)
  /-- The value has no binding that a guard could name. -/
  | noGuardPossible (shown : String)
  | attributeNotConstant (name : String) (fault : AttrFault)
  /-- The value cannot be an operand in a graph. -/
  | notANode (shown : String)
  | unknownType (shown : String)
deriving DecidableEq

/-- The name of the class of an error. -/
def SymbolicError.label : SymbolicError → String
  | notConstant _ => "NotConstant"
  | noGuardPossible _ => "NoGuardPossible"
  | attributeNotConstant .. => "AttributeNotConstant"
  | notANode _ => "NotANode"
  | unknownType _ => "UnknownType"

def SymbolicError.message : SymbolicError → String
  | notConstant fault => "not a constant: " ++ fault.message
  | noGuardPossible shown => "no guard possible for " ++ shown
  | attributeNotConstant name fault =>
    "attribute `" ++ name ++ "` is not constant: " ++ fault.message
  | notANode shown => "cannot be represented as a graph node: " ++ shown
  | unknownType shown => "type of " ++ shown ++ " is not known"

/-- The result of a question about a symbolic value. -/
abbrev Answer (α : Type) : Type := Except SymbolicError α

end GuardedTrace
