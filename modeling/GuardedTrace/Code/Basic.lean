/-
Code: instruction lists together with the tables their operands index.

An instruction is an opcode and an operand.  Its text form is the name of the opcode, a space and
the operand in decimal; reading is more liberal and takes any blanks, an absent operand and a plus
sign.  `assemble` reads one instruction from every line that is not blank.
-/
import GuardedTrace.Code.Opcode
import GuardedTrace.Literal
import GuardedTrace.Text.Blank

namespace GuardedTrace

/-- One step of a program. -/
structure Instruction where
  opcode : Opcode
  /-- A table index, a jump target, a count or a comparison; ignored by some opcodes. -/
  operand : UInt32
deriving DecidableEq

/-- Why a text is no instruction. -/
inductive InstructionError where
  | unknownOpcode (name : String)
  | badOperand (text : String)
  | empty
deriving DecidableEq

/-- The name of the class of an error. -/
def InstructionError.label : InstructionError → String
  | unknownOpcode _ => "UnknownOpcode"
  | badOperand _ => "BadOperand"
  | empty => "Empty"

def InstructionError.message : InstructionError → String
  | unknownOpcode name => "unknown opcode `" ++ name ++ "`"
  | badOperand text => "bad operand `" ++ text ++ "`"
  | empty => "empty instruction"

namespace Instruction

/-- The text form of an instruction. -/
def written (instruction : Instruction) : String :=
  instruction.opcode.name ++ " " ++ Text.showNat instruction.operand.toNat

/-- Reads an operand: a numeral below `2 ^ 32`. -/
def readOperand (text : List Char) : Except InstructionError UInt32 :=
  match Text.readNatural text with
  | some n =>
    if n < UInt32.size then .ok (UInt32.ofNat n) else .error (.badOperand (String.ofList text))
  | none => .error (.badOperand (String.ofList text))

/-- Reads the words of an instruction.  The first fault from the left is reported. -/
def ofWords : List (List Char) → Except InstructionError Instruction
  | [] => .error .empty
  | name :: operands =>
    match Opcode.ofName? (String.ofList name) with
    | none => .error (.unknownOpcode (String.ofList name))
    | some opcode =>
      match operands with
      | [] => .ok ⟨opcode, 0⟩
      | [operand] => (readOperand operand).map fun operand => ⟨opcode, operand⟩
      | operand :: extra :: _ => do
        let _ ← readOperand operand
        .error (.badOperand (String.ofList extra))

/-- Reads an instruction from text. -/
def read (text : List Char) : Except InstructionError Instruction := ofWords (Text.words text)

end Instruction

/-- A program: its instructions and the tables that their operands index. -/
structure Code where
  /-- What tells two programs apart, whatever their content. -/
  id : Nat
  name : String
  /-- How many of the variables are bound by the arguments of a call. -/
  argCount : Nat
  varNames : List String
  names : List String
  constants : List Literal
  instructions : List Instruction

namespace Code

/-- A program from its parts; at most all variables are parameters. -/
def make (id : Nat) (name : String) (varNames : List String) (argCount : Nat) (names : List String)
    (constants : List Literal) (instructions : List Instruction) : Code :=
  { id, name, argCount := min argCount varNames.length, varNames, names, constants, instructions }

/-- Reads one instruction from every line that is not blank. -/
def assemble (source : String) : Except InstructionError (List Instruction) :=
  (((Text.lines source.toList).map Text.trim).filter (!·.isEmpty)).mapM Instruction.read

def instruction? (code : Code) (pc : Nat) : Option Instruction := code.instructions[pc]?

def varName? (code : Code) (operand : UInt32) : Option String := code.varNames[operand.toNat]?

def name? (code : Code) (operand : UInt32) : Option String := code.names[operand.toNat]?

def constant? (code : Code) (operand : UInt32) : Option Literal := code.constants[operand.toNat]?

/-- The variables that the arguments of a call are bound to, in order. -/
def parameters (code : Code) : List String := code.varNames.take code.argCount

end Code

end GuardedTrace
