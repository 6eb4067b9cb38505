import Assembler6502.Block
import Assembler6502.Segment

/-!
# Memory images

An image lists the cells of memory. Assembling a source starts from an image that is filled with
the opcode of the instruction that does nothing, and lays the code of each segment over it.
-/

namespace Assembler6502

abbrev Image := List Int

namespace Image

def addressCount : Nat :=
  0x10000

/-- The cell that no code covers: the opcode of `nop`. -/
def filler : Int :=
  0xea

def blank : Image :=
  List.replicate addressCount filler

/-- The cell boundary that an address names: a negative address counts from the end, and an address
outside the image names its nearer end. -/
def boundary (size : Nat) (address : Int) : Nat :=
  if address < 0 then (address + size).toNat else min address.toNat size

/-- Lays code over the cells from an origin on. Cells are replaced between the boundaries that the
origin and the end of the code name. If the end comes before the origin, nothing is replaced and
the code is put in between. -/
def lay (image : Image) (origin : Int) (code : List Int) : Image :=
  let start := boundary image.length origin
  let stop := max start (boundary image.length (origin + code.length))
  image.take start ++ code ++ image.drop stop

/-- Assembles segments one after the other and lays their code over an image. -/
def laySegments (quiet : Bool) (image : Image) : List Segment → Report Problem Image
  | [] => ⟨[], .ok image⟩
  | segment :: rest =>
    let (block, report) := (Block.ofSource segment.code).assemble
    match report.result with
    | .error problem => ⟨report.notices, .error problem⟩
    | .ok () =>
      (laySegments quiet (image.lay segment.origin block.execCode) rest).preceded
        (report.notices ++ Notice.unlessQuiet quiet (.assembled block.size segment.origin))

def assemble (content : Text) (quiet : Bool) : Report Problem Image :=
  match Segment.ofFile content with
  | .error problem => ⟨[], .error problem⟩
  | .ok segments => laySegments quiet blank segments

end Image

end Assembler6502
