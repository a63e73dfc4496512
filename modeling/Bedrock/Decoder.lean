import Mathlib.Data.Nat.Notation

/-!
# Decoding the moves that access device registers

Only moves between a register and memory are recognised.  The decoder computes
the length of the instruction and the register; the address comes from the exit.
-/

namespace Bedrock

inductive MemoryOperation
  | load | store
  deriving DecidableEq, Repr

structure DecodedInstruction where
  length : Nat
  operation : MemoryOperation
  register : Nat
  operandSize : Nat
  deriving DecidableEq, Repr

inductive DecodeError
  | bufferTooShort | unsupportedOpcode | unsupportedAddressing
  deriving DecidableEq, Repr

/-- Operand-size, address-size, segment, lock and repeat prefixes. -/
def isLegacyPrefix (byte : UInt8) : Bool :=
  byte ∈ [0x66, 0x67, 0x26, 0x2E, 0x36, 0x3E, 0x64, 0x65, 0xF0, 0xF2, 0xF3]

/-- Skip prefixes: how many, whether the operand-size prefix is among them, and
what follows. -/
def skipPrefixes : List UInt8 → Nat × Bool × List UInt8
  | [] => (0, false, [])
  | byte :: rest =>
    if isLegacyPrefix byte then
      let (n, operandSize, rest) := skipPrefixes rest
      (n + 1, byte = 0x66 || operandSize, rest)
    else (0, false, byte :: rest)

structure RexPrefix where
  w : Bool := false
  r : Bool := false
  b : Bool := false

/-- An optional REX prefix: its length, the prefix and what follows. -/
def takeRex : List UInt8 → Nat × RexPrefix × List UInt8
  | [] => (0, {}, [])
  | byte :: rest =>
    if byte &&& 0xF0 = 0x40 then
      (1, ⟨byte &&& 0x08 ≠ 0, byte &&& 0x04 ≠ 0, byte &&& 0x01 ≠ 0⟩, rest)
    else (0, {}, byte :: rest)

/-- `modrm_displacement_length`: SIB byte and displacement after the ModR/M byte. -/
def modrmDisplacementLength (modBits rm : UInt8) (remaining : List UInt8) :
    Except DecodeError Nat := do
  let hasSib := rm = 4 ∧ modBits ≠ 3
  let need := fun len extra : Nat =>
    if remaining.length < len + extra then .error .bufferTooShort else .ok (len + extra)
  let len ←
    if hasSib then
      match remaining with
      | [] => .error .bufferTooShort
      | sib :: _ => if modBits = 0 ∧ sib &&& 0x07 = 5 then need 1 4 else .ok 1
    else .ok 0
  match modBits.toNat with
  | 0 => if rm = 5 ∧ ¬hasSib then need len 4 else .ok len
  | 1 => need len 1
  | 2 => need len 4
  | _ => .ok len

/-- The ModR/M part shared by all recognised opcodes; `pos` bytes precede it. -/
def decodeModrm (rex : RexPrefix) (pos : Nat) (operation : MemoryOperation)
    (operandSize : Nat) : List UInt8 → Except DecodeError DecodedInstruction
  | [] => .error .bufferTooShort
  | modrm :: rest => do
    let modBits := modrm >>> 6
    let len ← modrmDisplacementLength modBits (modrm &&& 0x07) rest
    if modBits = 3 then .error .unsupportedAddressing
    else
      .ok ⟨pos + 1 + len, operation,
        ((modrm >>> 3) &&& 0x07).toNat + (if rex.r then 8 else 0), operandSize⟩

/-- `decode_instruction` -/
def decodeInstruction (bytes : List UInt8) : Except DecodeError DecodedInstruction :=
  let (prefixes, operandSizePrefix, bytes) := skipPrefixes bytes
  let (rexLen, rex, bytes) := takeRex bytes
  let pos := prefixes + rexLen
  let operandSize := if rex.w then 8 else if operandSizePrefix then 2 else 4
  match bytes with
  | [] => .error .bufferTooShort
  | opcode :: rest =>
    match opcode.toNat with
    | 0x8B => decodeModrm rex (pos + 1) .load operandSize rest
    | 0x89 => decodeModrm rex (pos + 1) .store operandSize rest
    | 0x8A => decodeModrm rex (pos + 1) .load 1 rest
    | 0x88 => decodeModrm rex (pos + 1) .store 1 rest
    | 0x0F =>
      match rest with
      | [] => .error .bufferTooShort
      | opcode2 :: rest =>
        match opcode2.toNat with
        | 0xB6 => decodeModrm rex (pos + 2) .load 1 rest
        | 0xB7 => decodeModrm rex (pos + 2) .load 2 rest
        | _ => .error .unsupportedOpcode
    | _ => .error .unsupportedOpcode

end Bedrock
