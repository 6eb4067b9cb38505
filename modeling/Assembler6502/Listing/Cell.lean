import Assembler6502.Image

/-!
# Cells in listings

A cell is written in the base of the listing, padded with zeros. A negative value is marked by the
letter of the base.
-/

namespace Assembler6502.Listing

structure CellFormat where
  base : Nat
  letter : Char
  width : Nat

def CellFormat.write (format : CellFormat) (cell : Int) : Text :=
  Text.padZeros format.width
    ((if cell < 0 then [format.letter] else []) ++ Nat.toDigits format.base cell.natAbs)

def hexadecimalCell : CellFormat :=
  ⟨16, 'x', 2⟩

def binaryCell : CellFormat :=
  ⟨2, 'b', 8⟩

end Assembler6502.Listing
