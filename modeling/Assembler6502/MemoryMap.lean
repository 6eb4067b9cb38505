import Assembler6502.Image

/-!
# Memory maps

A memory map sets single cells of an image. Each of its lines has an address and a value in base
16, or is a comment. The lines take effect in order, up to the first one that is wrong.
-/

namespace Assembler6502

namespace Image

def fitsWord (number : Int) : Bool :=
  -0x8000000000000000 ≤ number && number < 0x8000000000000000

/-- Sets the cell at an address. A negative address counts from the end. -/
def setCell (image : Image) (address value : Int) : Except Problem Image :=
  if !fitsWord address then .error .addressWidth
  else
    let index := if address < 0 then address + image.length else address
    if 0 ≤ index ∧ index < image.length then .ok (image.set index.toNat value)
    else .error .addressRange

end Image

namespace MemoryMap

/-- The part of a line that is read. A line with a semicolon is read up to its first number sign,
and without its last character if it has no number sign. -/
def body (line : Text) : Text :=
  if line.contains ';' then
    (if line.contains '#' then line.before '#' else line.dropLast).trim
  else line.trim

def readMarked (word : Text) : Except Problem Int :=
  Operand.readNumeral (word.trimBy (· == '$'))

/-- The address and the value on a line, or nothing if the line is a comment. -/
def readLine (line : Text) : Except Problem (Option (Int × Int)) :=
  if ['#'].isPrefixOf line then .ok none
  else
    match (body line).words with
    | [address, value] =>
      match readMarked address with
      | .error problem => .error problem
      | .ok address => (readMarked value).map fun value => some (address, value)
    | words => .error (.wordCount words.length)

def applyLine (image : Image) (line : Text) : Except Problem Image :=
  match readLine line with
  | .error problem => .error problem
  | .ok none => .ok image
  | .ok (some (address, value)) => image.setCell address value

def applyLines (image : Image) : List Text → Image × Except Problem Unit
  | [] => (image, .ok ())
  | line :: rest =>
    match applyLine image line with
    | .error problem => (image, .error problem)
    | .ok changed => applyLines changed rest

def applyFile (image : Image) (content : Text) : Image × Except Problem Unit :=
  applyLines image content.lines

end MemoryMap

end Assembler6502
