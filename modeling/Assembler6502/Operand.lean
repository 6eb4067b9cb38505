import Assembler6502.Entry
import Assembler6502.Instruction.AddressingMode
import Assembler6502.Numeral.Hexadecimal
import Assembler6502.Problem
import Assembler6502.Text.Lowercase

/-!
# Operands

The shape of an operand decides its addressing mode, and the mode decides where the operand's bytes
are read. The shape is looked at in a normal form without case and spaces. The bytes are read from
the operand as it was written.
-/

namespace Assembler6502

namespace Operand

/-- The normal form in which an operand is classified: lower case, trimmed, without spaces. -/
def normalize (operand : Text) : Text :=
  operand.lower.trim.filter (· ≠ ' ')

/-- The characters of labels: ASCII letters and digits, and the underscore. -/
def isLabelChar (c : Char) : Bool :=
  c.isAlphanum || c == '_'

/-- Whether a text starts with a dollar sign and at least `count` hexadecimal digits. -/
def startsWithAddress (count : Nat) : Text → Bool
  | '$' :: rest => (rest.take count).length == count && (rest.take count).all Hexadecimal.isDigit
  | _ => false

def modeOfNormal (normal : Text) : Except Problem AddressingMode :=
  if normal = [] then .ok .implied
  else if ['#', '$'].isPrefixOf normal then .ok .immediate
  else if normal = ['a'] then .ok .accumulator
  else if ['('].isPrefixOf normal then
    if [',', 'x', ')'].isSuffixOf normal then .ok .indirectX
    else if [')', ',', 'y'].isSuffixOf normal then .ok .indirectY
    else .error .operandForm
  else if startsWithAddress 4 normal then
    if [',', 'x'].isSuffixOf normal then .ok .absoluteX
    else if [',', 'y'].isSuffixOf normal then .ok .absoluteY
    else .ok .absolute
  else if startsWithAddress 2 normal ∧ normal.drop 3 = [] then .ok .zeroPage
  else if startsWithAddress 2 normal ∧ normal.drop 3 = [',', 'x'] then .ok .zeroPageX
  else if normal.all isLabelChar then .ok .relative
  else .error .operandForm

/-- The mode of an operand. An instruction without an operand has the implied mode. -/
def mode (operand : Option Text) : Except Problem AddressingMode :=
  modeOfNormal (normalize (operand.getD []))

def readNumeral (text : Text) : Except Problem Int :=
  match Hexadecimal.read? text with
  | some number => .ok number
  | none => .error (.numeral text)

/-- The value that is left of an operand when marks are trimmed from its ends. -/
def trimmedValue (marks : Text) : Option Text → Except Problem (Option Entry)
  | none => .error .noOperandToTrim
  | some operand => (readNumeral (operand.trimBy marks.contains)).map fun number =>
      some (.value number)

/-- The value of the characters of an operand from `start` up to `stop`. -/
def slicedValue (start stop : Nat) : Option Text → Except Problem (Option Entry)
  | none => .error .noOperandToSlice
  | some operand => (readNumeral (operand.slice start stop)).map fun number =>
      some (.value number)

end Operand

namespace AddressingMode

open Operand

/-- The entry that follows the opcode: the operand's only or lower byte, or the label of a
branch. -/
def lowEntry (mode : AddressingMode) (operand : Option Text) : Except Problem (Option Entry) :=
  match mode with
  | accumulator | implied => .ok none
  | relative => .ok (operand.map .label)
  | immediate => trimmedValue ['#', '$'] operand
  | zeroPage => trimmedValue ['$'] operand
  | zeroPageX => slicedValue 1 3 operand
  | absolute | absoluteX | absoluteY => slicedValue 3 5 operand
  | indirectX | indirectY => slicedValue 2 4 operand
  | zeroPageY | indirect => .error (.unreadableMode mode.name)

/-- The last entry of a three-byte instruction: the upper byte of its address. -/
def highEntry (mode : AddressingMode) (operand : Option Text) : Except Problem (Option Entry) :=
  match mode with
  | absolute | absoluteX | absoluteY => slicedValue 1 3 operand
  | accumulator | implied | relative | immediate | zeroPage | zeroPageX | indirectX | indirectY =>
    .ok none
  | zeroPageY | indirect => .error (.unreadableMode mode.name)

/-- The low entry of an operand for a mode that is given by its name. -/
def lowEntryOfName (name : Text) (operand : Option Text) : Except Problem (Option Entry) :=
  match ofName? name with
  | some mode => mode.lowEntry operand
  | none => .error (.unreadableMode name)

/-- The high entry of an operand for a mode that is given by its name. -/
def highEntryOfName (name : Text) (operand : Option Text) : Except Problem (Option Entry) :=
  match ofName? name with
  | some mode => mode.highEntry operand
  | none => .error (.unreadableMode name)

end AddressingMode

end Assembler6502
