import Assembler6502.Text.Basic

/-!
# Blank characters

The characters that separate words and that trimming removes.
-/

namespace Assembler6502.Text

/-- The blank characters: tabulation, line and page breaks, the four information separators, the
space, and the space and separator characters beyond ASCII. -/
def isBlank (c : Char) : Bool :=
  let code := c.toNat
  (0x9 ≤ code && code ≤ 0xd) || (0x1c ≤ code && code ≤ 0x20) || code == 0x85 || code == 0xa0 ||
    code == 0x1680 || (0x2000 ≤ code && code ≤ 0x200a) || code == 0x2028 || code == 0x2029 ||
    code == 0x202f || code == 0x205f || code == 0x3000

def trim (text : Text) : Text :=
  trimBy isBlank text

/-- The words of a text: its longest runs of characters that are not blank. -/
def words : Text → List Text
  | [] => []
  | c :: rest =>
    if isBlank c then words rest
    else if rest.head?.any (!isBlank ·) then extendFirst c (words rest)
    else [c] :: words rest

end Assembler6502.Text
