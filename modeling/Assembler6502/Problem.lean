import Assembler6502.Text.Quoted

/-!
# Problems

What can be wrong with a source or a memory map, and the message for each cause.
-/

namespace Assembler6502

/-- A cause for which assembling, or applying a memory map, stops. -/
inductive Problem where
  /-- The operand has none of the known forms. -/
  | operandForm
  /-- There is no instruction of this name. -/
  | unknownMnemonic (name : Text)
  /-- The instruction has no opcode for the mode of this name. -/
  | unknownMode (name : Text)
  /-- Operands of the mode of this name are not read. -/
  | unreadableMode (name : Text)
  /-- There is no operand whose marks could be trimmed. -/
  | noOperandToTrim
  /-- There is no operand of which digits could be taken. -/
  | noOperandToSlice
  /-- The text is not a numeral in base 16. -/
  | numeral (text : Text)
  /-- Two words are needed and another number of them is there. -/
  | wordCount (count : Nat)
  /-- Code stands before the first origin. -/
  | codeBeforeOrigin
  /-- A label is not defined, and no label before it is. -/
  | noPosition
  /-- The address lies outside the image. -/
  | addressRange
  /-- The address has more than 64 bits. -/
  | addressWidth
deriving DecidableEq, Repr

namespace Problem

/-- The message about a variable that has not been set. -/
def unset (name : String) : Text :=
  s!"cannot access local variable '{name}' where it is not associated with a value".toList

/-- The message for a problem. -/
def message : Problem → Text
  | operandForm => "None".toList
  | unknownMnemonic name => name.quoted
  | unknownMode name => name.quoted
  | unreadableMode name => name.quoted
  | noOperandToTrim => "'NoneType' object has no attribute 'strip'".toList
  | noOperandToSlice => "'NoneType' object is not subscriptable".toList
  | numeral text => "invalid literal for int() with base 16: ".toList ++ text.quoted.take 200
  | wordCount count =>
    if count < 2 then s!"not enough values to unpack (expected 2, got {count})".toList
    else "too many values to unpack (expected 2)".toList
  | codeBeforeOrigin => unset "offset"
  | noPosition => unset "symbol_position"
  | addressRange => "list assignment index out of range".toList
  | addressWidth => "cannot fit 'int' into an index-sized integer".toList

end Problem

end Assembler6502
