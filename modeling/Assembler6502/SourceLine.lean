import Assembler6502.Text.Blank
import Assembler6502.Text.Lines
import Assembler6502.Text.Lowercase

/-!
# Source lines

A source file is read as numbered lines of code: in lower case, without comments, and without the
blanks around the code. Lines without code are left out.
-/

namespace Assembler6502

structure SourceLine where
  number : Nat
  code : Text
deriving DecidableEq, Repr

namespace SourceLine

/-- The code on one line of a file: what stands before the first semicolon. -/
def code? (line : Text) : Option Text :=
  let text := line.lower.trim
  if [';'].isPrefixOf text then none
  else if text = [] then none
  else some (text.before ';').trim

/-- The lines of code among the lines of a file, of which the first has the given number. -/
def numbered (number : Nat) : List Text → List SourceLine
  | [] => []
  | line :: rest =>
    match code? line with
    | none => numbered (number + 1) rest
    | some code => ⟨number, code⟩ :: numbered (number + 1) rest

def ofFile (content : Text) : List SourceLine :=
  numbered 1 content.lines

end SourceLine

end Assembler6502
