import Assembler6502.Listing.Cell

/-!
# Coefficient files

A coefficient file lists the cells in rows of sixty-four. Four rows make a page, and a comment line
with the address of the page stands before each page.
-/

namespace Assembler6502.Listing.Coefficients

def header : Text :=
  (";; Distributed Memory Generator COE file\n" ++
    ";; \tAddress Size = 65536\n" ++
    ";; \tPage Size = 256\n" ++
    "memory_initialization_radix = 16;\n" ++
    "memory_initialization_vector =\n").toList

def rowLength : Nat :=
  64

def pageRows : Nat :=
  4

def cutRows : Nat → Image → List (List Int)
  | 0, _ => []
  | count + 1, cells => cells.take rowLength :: cutRows count (cells.drop rowLength)

/-- The rows of an image. Only the last one may be short. -/
def rows (image : Image) : List (List Int) :=
  cutRows ((image.length + (rowLength - 1)) / rowLength) image

def pageMark (row : Nat) : Text :=
  ";; Begin page 0x".toList ++ Text.hexPadded 4 (rowLength * row) ++ ".\n".toList

def rowLine (cells : List Int) : Text :=
  Text.join [' '] (cells.map hexadecimalCell.write) ++ ['\n']

def rowText (numbered : List Int × Nat) : Text :=
  (if numbered.2 % pageRows = 0 then pageMark numbered.2 else []) ++ rowLine numbered.1

def write (image : Image) : Text :=
  header ++ (rows image).zipIdx.flatMap rowText

end Assembler6502.Listing.Coefficients
