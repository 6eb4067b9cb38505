import Assembler6502.Instruction.Opcode
import Assembler6502.Operand

/-!
# Statements

A line of code is an optional label before a colon, a mnemonic, and an optional operand after a
space. A statement becomes an instruction when its operand has a form and its mnemonic has an
opcode for that form.
-/

namespace Assembler6502

structure Statement where
  label : Option Text
  mnemonic : Text
  operand : Option Text
deriving DecidableEq, Repr

structure Instruction where
  mnemonic : Mnemonic
  mode : AddressingMode
  opcode : Nat
deriving DecidableEq, Repr

namespace Statement

/-- The statement with a label and a trimmed text after it: the mnemonic reaches up to the first
space, and the rest is the operand. -/
def ofBody (label : Option Text) (body : Text) : Statement :=
  match body.cut? ' ' with
  | some (mnemonic, operand) => ⟨label, mnemonic.trim, some operand.trim⟩
  | none => ⟨label, body.trim, none⟩

/-- The statement on a line of code. The text before the first colon is the label. -/
def ofLine (line : Text) : Statement :=
  match line.cut? ':' with
  | some (label, body) => ofBody (some label.trim) body.trim
  | none => ofBody none line.trim

def instruction (statement : Statement) : Except Problem Instruction :=
  match Operand.mode statement.operand with
  | .error problem => .error problem
  | .ok mode =>
    match Mnemonic.ofName? statement.mnemonic with
    | none => .error (.unknownMnemonic statement.mnemonic)
    | some mnemonic =>
      match mnemonic.opcode? mode with
      | none => .error (.unknownMode mode.name)
      | some opcode => .ok ⟨mnemonic, mode, opcode⟩

end Statement

/-- The object code of an instruction with its operand: the opcode and up to two entries. -/
def Instruction.encode (instruction : Instruction) (operand : Option Text) :
    Except Problem (List Entry) :=
  match instruction.mode.lowEntry operand with
  | .error problem => .error problem
  | .ok low =>
    match instruction.mode.highEntry operand with
    | .error problem => .error problem
    | .ok high => .ok (.value instruction.opcode :: (low.toList ++ high.toList))

end Assembler6502
