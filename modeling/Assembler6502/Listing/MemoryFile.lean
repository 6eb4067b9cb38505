import Assembler6502.Listing.Cell

/-!
# Memory files

A memory file has one line with eight binary digits for each cell.
-/

namespace Assembler6502.Listing.MemoryFile

def write (image : Image) : Text :=
  image.flatMap fun cell => binaryCell.write cell ++ ['\n']

end Assembler6502.Listing.MemoryFile
