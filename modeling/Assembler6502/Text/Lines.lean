import Assembler6502.Text.Basic

/-!
# Lines

A line ends with a line feed, a carriage return, or a carriage return followed by a line feed.
All three are read as one line feed, and no other character ends a line.
-/

namespace Assembler6502.Text

/-- Reads every line end as a line feed. The flag tells whether the character before was a
carriage return, whose line feed is then already written. -/
def unifyLineEndsAfter (afterReturn : Bool) : Text → Text
  | [] => []
  | c :: rest =>
    if c = '\n' ∧ afterReturn then unifyLineEndsAfter false rest
    else (if c = '\r' then '\n' else c) :: unifyLineEndsAfter (c = '\r') rest

def unifyLineEnds (text : Text) : Text :=
  unifyLineEndsAfter false text

/-- Cuts a text behind each line feed. The lines keep their line feed, which only the last one may
lack, and their concatenation is the text. -/
def splitLines (text : Text) : List Text :=
  text.foldr (fun c lines => if c = '\n' then [c] :: lines else extendFirst c lines) []

def lines (content : Text) : List Text :=
  splitLines (unifyLineEnds content)

end Assembler6502.Text
