import Assembler6502.Image
import Mathlib.Data.List.MinMax
import Mathlib.Tactic

/-!
# Programs

A program without its text: sections of commands, each command an instruction with the operand it
means. The image of a program is defined here from the processor's encoding alone, cell by cell.
Nothing in this file mentions how a program is written down or assembled.
-/

namespace Assembler6502

/-- A label is a word of digits, lower-case letters and underscores. The word `a` is the name of the
accumulator. -/
structure IsLabelName (name : Text) : Prop where
  nonempty : name ≠ []
  chars : ∀ c ∈ name, c.isDigit = true ∨ c.isLower = true ∨ c = '_'
  notAccumulator : name ≠ ['a']

/-- The operand of a command, in one of the addressing modes that have a written form. -/
inductive Argument where
  | accumulator
  | relative (target : Text)
  | implied
  | immediate (byte : Fin 0x100)
  | zeroPage (address : Fin 0x100)
  | zeroPageX (address : Fin 0x100)
  | absolute (address : Fin 0x10000)
  | absoluteX (address : Fin 0x10000)
  | absoluteY (address : Fin 0x10000)
  | indirectX (address : Fin 0x100)
  | indirectY (address : Fin 0x100)
deriving DecidableEq, Repr

def Argument.mode : Argument → AddressingMode
  | accumulator => .accumulator
  | relative _ => .relative
  | implied => .implied
  | immediate _ => .immediate
  | zeroPage _ => .zeroPage
  | zeroPageX _ => .zeroPageX
  | absolute _ => .absolute
  | absoluteX _ => .absoluteX
  | absoluteY _ => .absoluteY
  | indirectX _ => .indirectX
  | indirectY _ => .indirectY

/-- The bytes behind the opcode, the lower byte of an address first. A branch has one byte for its
displacement. -/
def Argument.bytes (displacement : Text → Int) : Argument → List Int
  | accumulator | implied => []
  | immediate byte => [byte.val]
  | zeroPage address | zeroPageX address | indirectX address | indirectY address =>
      [address.val]
  | absolute address | absoluteX address | absoluteY address =>
      [(address.val % 0x100 : Nat), (address.val / 0x100 : Nat)]
  | relative target => [displacement target % 0x100]

/-- An instruction in a program, in a mode for which it has an opcode. -/
structure Command where
  label : Option Text
  mnemonic : Mnemonic
  argument : Argument
  labelIsName : ∀ name, label = some name → IsLabelName name
  hasOpcode : (mnemonic.opcode? argument.mode).isSome

namespace Command

def opcode (command : Command) : Nat :=
  (command.mnemonic.opcode? command.argument.mode).get command.hasOpcode

def size (command : Command) : Nat :=
  command.argument.mode.size

/-- The number of bytes of a list of commands. -/
def codeSize (commands : List Command) : Nat :=
  (commands.map size).sum

/-- Where a label points: behind all commands before the first one that has it. -/
def positionOf (commands : List Command) (name : Text) : Nat :=
  codeSize (commands.takeWhile fun command => command.label ≠ some name)

/-- How far it is to a label from the end of a branch at a position. -/
def displacement (commands : List Command) (position : Nat) (target : Text) : Int :=
  positionOf commands target - (position + 2 : Nat)

def bytes (command : Command) (displacement : Text → Int) : List Int :=
  command.opcode :: command.argument.bytes displacement

/-- The code of commands that start at a position, within a section of all commands. -/
def codeFrom (all : List Command) (position : Nat) : List Command → List Int
  | [] => []
  | command :: rest =>
      command.bytes (displacement all position) ++
        codeFrom all (position + command.size) rest

end Command

/-- Commands with the address at which they go. Labels are local to a section, and every branch
reaches its target by a displacement that differs from zero by less than 256. -/
structure Section where
  origin : Nat
  commands : List Command
  originInMemory : origin < 0x10000
  fits : origin + Command.codeSize commands ≤ 0x10000
  labelsDistinct : (commands.filterMap Command.label).Nodup
  branchesReach : ∀ before command after target,
    commands = before ++ command :: after → command.argument = .relative target →
      some target ∈ commands.map Command.label ∧
        -0xff ≤ Command.displacement commands (Command.codeSize before) target ∧
        Command.displacement commands (Command.codeSize before) target ≤ 0xff

def Section.code (part : Section) : List Int :=
  Command.codeFrom part.commands 0 part.commands

/-- Sections at different origins. Their code may overlap. -/
structure Program where
  sections : List Section
  originsDistinct : (sections.map Section.origin).Nodup

namespace Program

/-- The section that is seen at an address: of those with a byte there, the one with the greatest
origin. -/
def sectionAt? (program : Program) (address : Nat) : Option Section :=
  (program.sections.filter fun part =>
    part.origin ≤ address ∧ address < part.origin + part.code.length).argmax Section.origin

/-- The byte at an address, which is the opcode of `nop` where there is no code. -/
def cell (program : Program) (address : Nat) : Int :=
  match program.sectionAt? address with
  | none => 0xea
  | some part => part.code.getD (address - part.origin) 0xea

/-- All 65536 cells of memory. -/
def image (program : Program) : Image :=
  (List.range 0x10000).map program.cell

end Program

end Assembler6502
