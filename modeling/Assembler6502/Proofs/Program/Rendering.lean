import Assembler6502.Proofs.CodeLines
import Assembler6502.Proofs.Program.Basic
import Assembler6502.Segment

/-!
# Renderings of programs

The texts that write a program down. Each rule says what is fixed and leaves the rest open: spaces
around a comma, spaces between a mnemonic and its operand, indentation, the case of letters,
comments, lines without code, and the way lines end. The written forms are stated in lower case,
and a line may write each of their letters in either case.
-/

namespace Assembler6502

def IsSpaces (gap : Text) : Prop :=
  ∀ c ∈ gap, c = ' '

def IsIndentation (gap : Text) : Prop :=
  ∀ c ∈ gap, c = ' ' ∨ c = '\t'

instance (gap : Text) : Decidable (IsSpaces gap) :=
  List.decidableBAll _ gap

instance (gap : Text) : Decidable (IsIndentation gap) :=
  List.decidableBAll _ gap

def IsComma (comma : Text) : Prop :=
  ∃ left right, IsSpaces left ∧ IsSpaces right ∧ comma = left ++ ',' :: right

/-- The written forms of an operand. An implied operand has none. -/
inductive Argument.Written : Argument → Text → Prop
  | accumulator : Written .accumulator ['a']
  | relative (target : Text) : Written (.relative target) target
  | immediate (byte : Fin 0x100) :
      Written (.immediate byte) ('#' :: '$' :: Text.hexPadded 2 byte)
  | zeroPage (address : Fin 0x100) :
      Written (.zeroPage address) ('$' :: Text.hexPadded 2 address)
  | zeroPageX (address : Fin 0x100) {comma : Text} (hcomma : IsComma comma) :
      Written (.zeroPageX address) ('$' :: Text.hexPadded 2 address ++ comma ++ ['x'])
  | absolute (address : Fin 0x10000) :
      Written (.absolute address) ('$' :: Text.hexPadded 4 address)
  | absoluteX (address : Fin 0x10000) {comma : Text} (hcomma : IsComma comma) :
      Written (.absoluteX address) ('$' :: Text.hexPadded 4 address ++ comma ++ ['x'])
  | absoluteY (address : Fin 0x10000) {comma : Text} (hcomma : IsComma comma) :
      Written (.absoluteY address) ('$' :: Text.hexPadded 4 address ++ comma ++ ['y'])
  | indirectX (address : Fin 0x100) {comma : Text} (hcomma : IsComma comma) :
      Written (.indirectX address)
        ('(' :: '$' :: Text.hexPadded 2 address ++ comma ++ ['x', ')'])
  | indirectY (address : Fin 0x100) {comma : Text} (hcomma : IsComma comma) :
      Written (.indirectY address)
        ('(' :: '$' :: Text.hexPadded 2 address ++ [')'] ++ comma ++ ['y'])

/-- What stands behind a mnemonic: nothing, or one or more spaces and an operand. -/
inductive Argument.Follows : Argument → Text → Prop
  | nothing : Follows .implied []
  | operand {argument : Argument} {gap text : Text}
      (hgap : IsSpaces gap) (hsome : gap ≠ []) (htext : argument.Written text) :
      Follows argument (gap ++ text)

/-- What stands before a mnemonic: nothing, or a label with its colon. -/
inductive LabelWritten : Option Text → Text → Prop
  | nothing : LabelWritten none []
  | label (name : Text) {gap : Text} (hgap : IsIndentation gap) :
      LabelWritten (some name) (name ++ ':' :: gap)

inductive Command.Written (command : Command) : Text → Prop
  | command {label operand : Text}
      (hlabel : LabelWritten command.label label)
      (hoperand : command.argument.Follows operand) :
      Written command (label ++ command.mnemonic.name ++ operand)

/-- A directive with the origin as a numeral of any width. -/
inductive OriginWritten (origin : Nat) : Text → Prop
  | directive {gap : Text} (width : Nat)
      (hgap : IsIndentation gap) (hsome : gap ≠ []) :
      OriginWritten origin
        (Segment.directive ++ gap ++ '$' :: Text.hexPadded width origin)

/-- What may stand behind the code of a line, or on a line without code. -/
inductive IsTrailer : Text → Prop
  | blank {gap : Text} (hgap : IsIndentation gap) : IsTrailer gap
  | comment {gap remark : Text}
      (hgap : IsIndentation gap) (hremark : SourceLine.IsOneLine remark) :
      IsTrailer (gap ++ ';' :: remark)

/-- A line whose code is a text in some case of its letters. -/
inductive IsLineOf (code : Text) : Text → Prop
  | line {indentation written trailer : Text}
      (hindentation : IsIndentation indentation)
      (hwritten : written.map Char.toLower = code)
      (htrailer : IsTrailer trailer) :
      IsLineOf code (indentation ++ written ++ trailer)

/-- The lines of commands, with other lines between them. -/
inductive CommandLines : List Command → List Text → Prop
  | nil : CommandLines [] []
  | trailer {commands : List Command} {line : Text} {later : List Text}
      (hline : IsTrailer line) (hlater : CommandLines commands later) :
      CommandLines commands (line :: later)
  | command {command : Command} {commands : List Command}
      {code line : Text} {later : List Text}
      (hcode : command.Written code) (hline : IsLineOf code line)
      (hlater : CommandLines commands later) :
      CommandLines (command :: commands) (line :: later)

/-- The lines of sections, each of them behind a line with its origin. -/
inductive SectionLines : List Section → List Text → Prop
  | nil : SectionLines [] []
  | trailer {sections : List Section} {line : Text} {later : List Text}
      (hline : IsTrailer line) (hlater : SectionLines sections later) :
      SectionLines sections (line :: later)
  | origin {part : Section} {sections : List Section}
      {code line : Text} {lines later : List Text}
      (hcode : OriginWritten part.origin code) (hline : IsLineOf code line)
      (hlines : CommandLines part.commands lines)
      (hlater : SectionLines sections later) :
      SectionLines (part :: sections) (line :: lines ++ later)

/-- The text is a file whose lines write the program down. -/
def Program.Renders (program : Program) (content : Text) : Prop :=
  ∃ lines, SectionLines program.sections lines ∧ SourceLine.IsFileOf lines content

end Assembler6502
