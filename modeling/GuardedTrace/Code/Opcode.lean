/-
The instruction set of the stack machine.

Every opcode has a name, which is its text form, and a byte, which is its number in an encoded
program.
-/
import GuardedTrace.Primitive

namespace GuardedTrace

/-- An operation of the stack machine. -/
inductive Opcode where
  | popTop
  | rotTwo
  | dupTop
  | nop
  | unaryNegative
  | binaryMultiply
  | binaryModulo
  | binaryAdd
  | binarySubtract
  | binarySubscr
  | binaryFloorDivide
  | binaryTrueDivide
  | getIter
  | returnValue
  | unpackSequence
  | forIter
  | jumpAbsolute
  | popJumpIfFalse
  | popJumpIfTrue
  | loadConst
  | loadAttr
  | loadGlobal
  | loadFast
  | storeFast
  | loadMethod
  | buildTuple
  | buildList
  | buildSlice
  | buildConstKeyMap
  | compareOp
  | callFunction
  | callMethod
deriving DecidableEq

namespace Opcode

/-- All opcodes. -/
def all : List Opcode :=
  [popTop, rotTwo, dupTop, nop, unaryNegative, binaryMultiply, binaryModulo, binaryAdd,
    binarySubtract, binarySubscr, binaryFloorDivide, binaryTrueDivide, getIter, returnValue,
    unpackSequence, forIter, jumpAbsolute, popJumpIfFalse, popJumpIfTrue, loadConst, loadAttr,
    loadGlobal, loadFast, storeFast, loadMethod, buildTuple, buildList, buildSlice,
    buildConstKeyMap, compareOp, callFunction, callMethod]

def name : Opcode → String
  | popTop => "POP_TOP"
  | rotTwo => "ROT_TWO"
  | dupTop => "DUP_TOP"
  | nop => "NOP"
  | unaryNegative => "UNARY_NEGATIVE"
  | binaryMultiply => "BINARY_MULTIPLY"
  | binaryModulo => "BINARY_MODULO"
  | binaryAdd => "BINARY_ADD"
  | binarySubtract => "BINARY_SUBTRACT"
  | binarySubscr => "BINARY_SUBSCR"
  | binaryFloorDivide => "BINARY_FLOOR_DIVIDE"
  | binaryTrueDivide => "BINARY_TRUE_DIVIDE"
  | getIter => "GET_ITER"
  | returnValue => "RETURN_VALUE"
  | unpackSequence => "UNPACK_SEQUENCE"
  | forIter => "FOR_ITER"
  | jumpAbsolute => "JUMP_ABSOLUTE"
  | popJumpIfFalse => "POP_JUMP_IF_FALSE"
  | popJumpIfTrue => "POP_JUMP_IF_TRUE"
  | loadConst => "LOAD_CONST"
  | loadAttr => "LOAD_ATTR"
  | loadGlobal => "LOAD_GLOBAL"
  | loadFast => "LOAD_FAST"
  | storeFast => "STORE_FAST"
  | loadMethod => "LOAD_METHOD"
  | buildTuple => "BUILD_TUPLE"
  | buildList => "BUILD_LIST"
  | buildSlice => "BUILD_SLICE"
  | buildConstKeyMap => "BUILD_CONST_KEY_MAP"
  | compareOp => "COMPARE_OP"
  | callFunction => "CALL_FUNCTION"
  | callMethod => "CALL_METHOD"

def byte : Opcode → Nat
  | popTop => 1
  | rotTwo => 2
  | dupTop => 4
  | nop => 9
  | unaryNegative => 11
  | binaryMultiply => 20
  | binaryModulo => 22
  | binaryAdd => 23
  | binarySubtract => 24
  | binarySubscr => 25
  | binaryFloorDivide => 26
  | binaryTrueDivide => 27
  | getIter => 68
  | returnValue => 83
  | unpackSequence => 92
  | forIter => 93
  | jumpAbsolute => 113
  | popJumpIfFalse => 114
  | popJumpIfTrue => 115
  | loadConst => 100
  | loadAttr => 106
  | loadGlobal => 116
  | loadFast => 124
  | storeFast => 125
  | loadMethod => 160
  | buildTuple => 102
  | buildList => 103
  | buildSlice => 133
  | buildConstKeyMap => 156
  | compareOp => 107
  | callFunction => 131
  | callMethod => 161

/-- The opcode of a name. -/
def ofName? (text : String) : Option Opcode := all.find? fun opcode => opcode.name == text

/-- The opcode of a byte. -/
def ofByte? (byte : Nat) : Option Opcode := all.find? fun opcode => opcode.byte == byte

/-- The primitive that an arithmetic opcode computes. -/
def arithmetic? : Opcode → Option Primitive
  | binaryAdd => some .add
  | binarySubtract => some .sub
  | binaryMultiply => some .mul
  | binaryTrueDivide => some .div
  | binaryFloorDivide => some .floorDiv
  | binaryModulo => some .mod
  | _ => none

end Opcode

end GuardedTrace
