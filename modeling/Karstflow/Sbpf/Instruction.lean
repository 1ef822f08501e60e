import Mathlib.Data.BitVec

namespace Karstflow.Sbpf

/-! The instruction set: fields of an instruction word and the opcode table. -/

/-- A decoded instruction. The register fields are the four bits of the word,
whether or not there is such a register. -/
structure Instruction where
  opcode : UInt8
  dst : Fin 16
  src : Fin 16
  offset : BitVec 16
  immediate : BitVec 32
deriving Repr, DecidableEq

def Instruction.decode (raw : BitVec 64) : Instruction :=
  { opcode := .ofNat (raw.toNat % 256)
    dst := .ofNat 16 (raw.toNat / 2 ^ 8)
    src := .ofNat 16 (raw.toNat / 2 ^ 12)
    offset := raw.extractLsb' 16 16
    immediate := raw.extractLsb' 32 32 }

def Instruction.assemble (opcode : UInt8) (dst src : Nat) (offset : BitVec 16) (immediate : BitVec 32) : Instruction :=
  { opcode := opcode, dst := .ofNat 16 dst, src := .ofNat 16 src, offset := offset, immediate := immediate }

/-- The operand width of arithmetic and of comparisons. -/
inductive Width where
  | half
  | full
deriving Repr, DecidableEq

/-- Where the right operand comes from. -/
inductive Operand where
  | imm
  | reg
deriving Repr, DecidableEq

inductive AluOp where
  | add | sub | mul | div | or | and | lsh | rsh | mod | xor | mov | arsh
deriving Repr, DecidableEq

inductive Comparison where
  | eq | gt | ge | set | ne | sgt | sge | lt | le | slt | sle
deriving Repr, DecidableEq

inductive AccessSize where
  | byte | half | word | dword
deriving Repr, DecidableEq

def AccessSize.bytes : AccessSize → Nat
  | .byte => 1
  | .half => 2
  | .word => 4
  | .dword => 8

/-- The opcodes. `alu .full .add .imm` is the source's `Add64Imm`,
`jump .half .eq .reg` its `Jeq32Reg`, and so on. -/
inductive Opcode where
  | lddw
  | alu (width : Width) (operation : AluOp) (operand : Operand)
  | neg (width : Width)
  | le
  | be
  | ldx (size : AccessSize)
  | st (size : AccessSize)
  | stx (size : AccessSize)
  | ja
  | jump (width : Width) (comparison : Comparison) (operand : Operand)
  | call
  | syscall
  | exit
deriving Repr, DecidableEq

namespace Opcode

def fromRaw (raw : UInt8) : Option Opcode :=
  match raw.toNat with
  | 0x18 => some .lddw
  | 0x07 => some (.alu .full .add .imm)
  | 0x17 => some (.alu .full .sub .imm)
  | 0x27 => some (.alu .full .mul .imm)
  | 0x37 => some (.alu .full .div .imm)
  | 0x47 => some (.alu .full .or .imm)
  | 0x57 => some (.alu .full .and .imm)
  | 0x67 => some (.alu .full .lsh .imm)
  | 0x77 => some (.alu .full .rsh .imm)
  | 0x87 => some (.neg .full)
  | 0x97 => some (.alu .full .mod .imm)
  | 0xA7 => some (.alu .full .xor .imm)
  | 0xB7 => some (.alu .full .mov .imm)
  | 0xC7 => some (.alu .full .arsh .imm)
  | 0x0F => some (.alu .full .add .reg)
  | 0x1F => some (.alu .full .sub .reg)
  | 0x2F => some (.alu .full .mul .reg)
  | 0x3F => some (.alu .full .div .reg)
  | 0x4F => some (.alu .full .or .reg)
  | 0x5F => some (.alu .full .and .reg)
  | 0x6F => some (.alu .full .lsh .reg)
  | 0x7F => some (.alu .full .rsh .reg)
  | 0x9F => some (.alu .full .mod .reg)
  | 0xAF => some (.alu .full .xor .reg)
  | 0xBF => some (.alu .full .mov .reg)
  | 0xCF => some (.alu .full .arsh .reg)
  | 0x04 => some (.alu .half .add .imm)
  | 0x14 => some (.alu .half .sub .imm)
  | 0x24 => some (.alu .half .mul .imm)
  | 0x34 => some (.alu .half .div .imm)
  | 0x44 => some (.alu .half .or .imm)
  | 0x54 => some (.alu .half .and .imm)
  | 0x64 => some (.alu .half .lsh .imm)
  | 0x74 => some (.alu .half .rsh .imm)
  | 0x84 => some (.neg .half)
  | 0x94 => some (.alu .half .mod .imm)
  | 0xA4 => some (.alu .half .xor .imm)
  | 0xB4 => some (.alu .half .mov .imm)
  | 0xC4 => some (.alu .half .arsh .imm)
  | 0x0C => some (.alu .half .add .reg)
  | 0x1C => some (.alu .half .sub .reg)
  | 0x2C => some (.alu .half .mul .reg)
  | 0x3C => some (.alu .half .div .reg)
  | 0x4C => some (.alu .half .or .reg)
  | 0x5C => some (.alu .half .and .reg)
  | 0x6C => some (.alu .half .lsh .reg)
  | 0x7C => some (.alu .half .rsh .reg)
  | 0x9C => some (.alu .half .mod .reg)
  | 0xAC => some (.alu .half .xor .reg)
  | 0xBC => some (.alu .half .mov .reg)
  | 0xCC => some (.alu .half .arsh .reg)
  | 0xD4 => some .le
  | 0xDC => some .be
  | 0x71 => some (.ldx .byte)
  | 0x69 => some (.ldx .half)
  | 0x61 => some (.ldx .word)
  | 0x79 => some (.ldx .dword)
  | 0x72 => some (.st .byte)
  | 0x6A => some (.st .half)
  | 0x62 => some (.st .word)
  | 0x7A => some (.st .dword)
  | 0x73 => some (.stx .byte)
  | 0x6B => some (.stx .half)
  | 0x63 => some (.stx .word)
  | 0x7B => some (.stx .dword)
  | 0x05 => some .ja
  | 0x15 => some (.jump .full .eq .imm)
  | 0x1D => some (.jump .full .eq .reg)
  | 0x25 => some (.jump .full .gt .imm)
  | 0x2D => some (.jump .full .gt .reg)
  | 0x35 => some (.jump .full .ge .imm)
  | 0x3D => some (.jump .full .ge .reg)
  | 0x45 => some (.jump .full .set .imm)
  | 0x4D => some (.jump .full .set .reg)
  | 0x55 => some (.jump .full .ne .imm)
  | 0x5D => some (.jump .full .ne .reg)
  | 0x65 => some (.jump .full .sgt .imm)
  | 0x6D => some (.jump .full .sgt .reg)
  | 0x75 => some (.jump .full .sge .imm)
  | 0x7D => some (.jump .full .sge .reg)
  | 0xA5 => some (.jump .full .lt .imm)
  | 0xAD => some (.jump .full .lt .reg)
  | 0xB5 => some (.jump .full .le .imm)
  | 0xBD => some (.jump .full .le .reg)
  | 0xC5 => some (.jump .full .slt .imm)
  | 0xCD => some (.jump .full .slt .reg)
  | 0xD5 => some (.jump .full .sle .imm)
  | 0xDD => some (.jump .full .sle .reg)
  | 0x16 => some (.jump .half .eq .imm)
  | 0x1E => some (.jump .half .eq .reg)
  | 0x26 => some (.jump .half .gt .imm)
  | 0x2E => some (.jump .half .gt .reg)
  | 0x36 => some (.jump .half .ge .imm)
  | 0x3E => some (.jump .half .ge .reg)
  | 0x46 => some (.jump .half .set .imm)
  | 0x4E => some (.jump .half .set .reg)
  | 0x56 => some (.jump .half .ne .imm)
  | 0x5E => some (.jump .half .ne .reg)
  | 0x66 => some (.jump .half .sgt .imm)
  | 0x6E => some (.jump .half .sgt .reg)
  | 0x76 => some (.jump .half .sge .imm)
  | 0x7E => some (.jump .half .sge .reg)
  | 0xA6 => some (.jump .half .lt .imm)
  | 0xAE => some (.jump .half .lt .reg)
  | 0xB6 => some (.jump .half .le .imm)
  | 0xBE => some (.jump .half .le .reg)
  | 0xC6 => some (.jump .half .slt .imm)
  | 0xCE => some (.jump .half .slt .reg)
  | 0xD6 => some (.jump .half .sle .imm)
  | 0xDE => some (.jump .half .sle .reg)
  | 0x85 => some .call
  | 0x8D => some .syscall
  | 0x95 => some .exit
  | _ => none

/-- An arithmetic opcode: the class bits say 32-bit or 64-bit arithmetic, which
the byte swaps share. -/
def isAlu : Opcode → Bool
  | .alu _ _ _ | .neg _ | .le | .be => true
  | _ => false

def isJump : Opcode → Bool
  | .ja | .jump _ _ _ | .call | .syscall | .exit => true
  | _ => false

/-- Arithmetic with the source bit clear. A byte swap to big-endian has it set. -/
def isImmediateSource : Opcode → Bool
  | .alu _ _ .imm | .neg _ | .le => true
  | _ => false

end Opcode

def lddwRaw : UInt8 := 0x18

def exitRaw : UInt8 := 0x95

def Instruction.isLddw (instruction : Instruction) : Bool := instruction.opcode = lddwRaw

inductive SbpfVersion where
  | v0 | v1 | v2 | v3
deriving Repr, DecidableEq

namespace SbpfVersion

def hasDynamicStackFrames : SbpfVersion → Bool
  | .v0 => false
  | _ => true

def lddwDisabled : SbpfVersion → Bool
  | .v2 | .v3 => true
  | _ => false

def leDisabled : SbpfVersion → Bool
  | .v2 | .v3 => true
  | _ => false

def negDisabled : SbpfVersion → Bool
  | .v2 | .v3 => true
  | _ => false

def callxUsesSrcRegister : SbpfVersion → Bool
  | .v2 | .v3 => true
  | _ => false

end SbpfVersion

end Karstflow.Sbpf
