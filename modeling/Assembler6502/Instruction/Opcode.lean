import Assembler6502.Instruction.AddressingMode
import Assembler6502.Instruction.Mnemonic
import Assembler6502.Problem

/-!
# Opcodes

The opcode of each instruction in each of its addressing modes. No two of the one hundred and
fifty-one entries share an opcode.
-/

namespace Assembler6502

def Mnemonic.opcodes : Mnemonic → List (AddressingMode × Nat)
  | adc => [
      (.immediate, 0x69), (.zeroPage, 0x65), (.zeroPageX, 0x75), (.absolute, 0x6d),
      (.absoluteX, 0x7d), (.absoluteY, 0x79), (.indirectX, 0x61), (.indirectY, 0x71)]
  | and => [
      (.immediate, 0x29), (.zeroPage, 0x25), (.zeroPageX, 0x35), (.absolute, 0x2d),
      (.absoluteX, 0x3d), (.absoluteY, 0x39), (.indirectX, 0x21), (.indirectY, 0x31)]
  | asl => [
      (.accumulator, 0x0a), (.zeroPage, 0x06), (.zeroPageX, 0x16), (.absolute, 0x0e),
      (.absoluteX, 0x1e)]
  | bit => [(.zeroPage, 0x24), (.absolute, 0x2c)]
  | bpl => [(.relative, 0x10)]
  | bmi => [(.relative, 0x30)]
  | bvc => [(.relative, 0x50)]
  | bvs => [(.relative, 0x70)]
  | bcc => [(.relative, 0x90)]
  | bcs => [(.relative, 0xb0)]
  | bne => [(.relative, 0xd0)]
  | beq => [(.relative, 0xf0)]
  | brk => [(.implied, 0x00)]
  | cmp => [
      (.immediate, 0xc9), (.zeroPage, 0xc5), (.zeroPageX, 0xd5), (.absolute, 0xcd),
      (.absoluteX, 0xdd), (.absoluteY, 0xd9), (.indirectX, 0xc1), (.indirectY, 0xd1)]
  | cpx => [(.immediate, 0xe0), (.zeroPage, 0xe4), (.absolute, 0xec)]
  | cpy => [(.immediate, 0xc0), (.zeroPage, 0xc4), (.absolute, 0xcc)]
  | dec => [(.zeroPage, 0xc6), (.zeroPageX, 0xd6), (.absolute, 0xce), (.absoluteX, 0xde)]
  | eor => [
      (.immediate, 0x49), (.zeroPage, 0x45), (.zeroPageX, 0x55), (.absolute, 0x4d),
      (.absoluteX, 0x5d), (.absoluteY, 0x59), (.indirectX, 0x41), (.indirectY, 0x51)]
  | clc => [(.implied, 0x18)]
  | sec => [(.implied, 0x38)]
  | cli => [(.implied, 0x58)]
  | sei => [(.implied, 0x78)]
  | clv => [(.implied, 0xb8)]
  | cld => [(.implied, 0xd8)]
  | sed => [(.implied, 0xf8)]
  | inc => [(.zeroPage, 0xe6), (.zeroPageX, 0xf6), (.absolute, 0xee), (.absoluteX, 0xfe)]
  | jmp => [(.absolute, 0x4c), (.indirect, 0x6c)]
  | jsr => [(.absolute, 0x20)]
  | lda => [
      (.immediate, 0xa9), (.zeroPage, 0xa5), (.zeroPageX, 0xb5), (.absolute, 0xad),
      (.absoluteX, 0xbd), (.absoluteY, 0xb9), (.indirectX, 0xa1), (.indirectY, 0xb1)]
  | ldx => [
      (.immediate, 0xa2), (.zeroPage, 0xa6), (.zeroPageY, 0xb6), (.absolute, 0xae),
      (.absoluteY, 0xbe)]
  | ldy => [
      (.immediate, 0xa0), (.zeroPage, 0xa4), (.zeroPageX, 0xb4), (.absolute, 0xac),
      (.absoluteX, 0xbc)]
  | lsr => [
      (.accumulator, 0x4a), (.zeroPage, 0x46), (.zeroPageX, 0x56), (.absolute, 0x4e),
      (.absoluteX, 0x5e)]
  | nop => [(.implied, 0xea)]
  | ora => [
      (.immediate, 0x09), (.zeroPage, 0x05), (.zeroPageX, 0x15), (.absolute, 0x0d),
      (.absoluteX, 0x1d), (.absoluteY, 0x19), (.indirectX, 0x01), (.indirectY, 0x11)]
  | tax => [(.implied, 0xaa)]
  | txa => [(.implied, 0x8a)]
  | dex => [(.implied, 0xca)]
  | inx => [(.implied, 0xe8)]
  | tay => [(.implied, 0xa8)]
  | tya => [(.implied, 0x98)]
  | dey => [(.implied, 0x88)]
  | iny => [(.implied, 0xc8)]
  | rol => [
      (.accumulator, 0x2a), (.zeroPage, 0x26), (.zeroPageX, 0x36), (.absolute, 0x2e),
      (.absoluteX, 0x3e)]
  | ror => [
      (.accumulator, 0x6a), (.zeroPage, 0x66), (.zeroPageX, 0x76), (.absolute, 0x6e),
      (.absoluteX, 0x7e)]
  | rti => [(.implied, 0x40)]
  | rts => [(.implied, 0x60)]
  | sbc => [
      (.immediate, 0xe9), (.zeroPage, 0xe5), (.zeroPageX, 0xf5), (.absolute, 0xed),
      (.absoluteX, 0xfd), (.absoluteY, 0xf9), (.indirectX, 0xe1), (.indirectY, 0xf1)]
  | sta => [
      (.zeroPage, 0x85), (.zeroPageX, 0x95), (.absolute, 0x8d), (.absoluteX, 0x9d),
      (.absoluteY, 0x99), (.indirectX, 0x81), (.indirectY, 0x91)]
  | txs => [(.implied, 0x9a)]
  | tsx => [(.implied, 0xba)]
  | pha => [(.implied, 0x48)]
  | pla => [(.implied, 0x68)]
  | php => [(.implied, 0x08)]
  | plp => [(.implied, 0x28)]
  | stx => [(.zeroPage, 0x86), (.zeroPageY, 0x96), (.absolute, 0x8e)]
  | sty => [(.zeroPage, 0x84), (.zeroPageX, 0x94), (.absolute, 0x8c)]

/-- The opcode of an instruction in an addressing mode, if it has that mode. -/
def Mnemonic.opcode? (mnemonic : Mnemonic) (mode : AddressingMode) : Option Nat :=
  mnemonic.opcodes.lookup mode

/-- The opcode that belongs to the name of an instruction and the name of a mode. -/
def opcodeOfNames (mnemonicName modeName : Text) : Except Problem Nat :=
  match Mnemonic.ofName? mnemonicName with
  | none => .error (.unknownMnemonic mnemonicName)
  | some mnemonic =>
    match (AddressingMode.ofName? modeName).bind mnemonic.opcode? with
    | none => .error (.unknownMode modeName)
    | some opcode => .ok opcode

end Assembler6502
