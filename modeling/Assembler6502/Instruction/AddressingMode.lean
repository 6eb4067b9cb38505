import Assembler6502.Text.Basic

/-!
# Addressing modes

The ways in which an instruction finds the value it works on, and the short names of the modes.
-/

namespace Assembler6502

/-- An addressing mode, with the way an instruction of that mode is written. -/
inductive AddressingMode where
  /-- The accumulator: `ROL A`. -/
  | accumulator
  /-- A byte: `ADC #$44`. -/
  | immediate
  /-- A label to branch to: `BPL label`. -/
  | relative
  /-- No operand: `BRK`. -/
  | implied
  /-- A zero page address: `ADC $44`. -/
  | zeroPage
  /-- A zero page address and the X register: `ADC $44,X`. -/
  | zeroPageX
  /-- A zero page address and the Y register. It has opcodes, and no form of operand. -/
  | zeroPageY
  /-- An address: `ADC $4400`. -/
  | absolute
  /-- An address and the X register: `ADC $4400,X`. -/
  | absoluteX
  /-- An address and the Y register: `ADC $4400,Y`. -/
  | absoluteY
  /-- An address that holds an address. It has an opcode, and no form of operand. -/
  | indirect
  /-- A pointer in the zero page, found with the X register: `ADC ($44,X)`. -/
  | indirectX
  /-- A pointer in the zero page, followed with the Y register: `ADC ($44),Y`. -/
  | indirectY
deriving DecidableEq, Repr

namespace AddressingMode

/-- All addressing modes. -/
def all : List AddressingMode :=
  [.accumulator, .immediate, .relative, .implied, .zeroPage, .zeroPageX, .zeroPageY,
    .absolute, .absoluteX, .absoluteY, .indirect, .indirectX, .indirectY]

/-- The short name of a mode. -/
def name : AddressingMode → Text
  | accumulator => "acc".toList
  | immediate => "imm".toList
  | relative => "rel".toList
  | implied => "imp".toList
  | zeroPage => "zp".toList
  | zeroPageX => "zp x".toList
  | zeroPageY => "zp y".toList
  | absolute => "abs".toList
  | absoluteX => "abs x".toList
  | absoluteY => "abs y".toList
  | indirect => "ind".toList
  | indirectX => "ind x".toList
  | indirectY => "ind y".toList

/-- The mode with a short name. -/
def ofName? (name : Text) : Option AddressingMode :=
  all.find? (·.name = name)

/-- The number of bytes of an instruction of a mode. -/
def size : AddressingMode → Nat
  | accumulator | implied => 1
  | immediate | relative | zeroPage | zeroPageX | zeroPageY | indirectX | indirectY => 2
  | absolute | absoluteX | absoluteY | indirect => 3

end AddressingMode

end Assembler6502
