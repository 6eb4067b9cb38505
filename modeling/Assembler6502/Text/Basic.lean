/-!
# Text

Source files, operands, labels and reports are lists of characters, so that every rule about them
is a recursion on a list.
-/

namespace Assembler6502

abbrev Text := List Char

namespace Text

/-- The parts before and after the first `mark`, or nothing if the text has no `mark`. -/
def cut? (mark : Char) : Text → Option (Text × Text)
  | [] => none
  | c :: rest =>
    if c = mark then some ([], rest)
    else (cut? mark rest).map fun parts => (c :: parts.1, parts.2)

/-- The part before the first `mark`, which is all of the text if it has none. -/
def before (mark : Char) (text : Text) : Text :=
  text.takeWhile (· ≠ mark)

def trimBy (dropped : Char → Bool) (text : Text) : Text :=
  ((text.dropWhile dropped).reverse.dropWhile dropped).reverse

def extendFirst (c : Char) : List Text → List Text
  | [] => [[c]]
  | first :: others => (c :: first) :: others

/-- The characters at positions `start` up to, and not including, `stop`, as far as they exist. -/
def slice (start stop : Nat) (text : Text) : Text :=
  (text.take stop).drop start

/-- Pads a text on the left with zeros up to a width; a text that is wide enough is kept. -/
def padZeros (width : Nat) (text : Text) : Text :=
  List.replicate (width - text.length) '0' ++ text

def byteCount (text : Text) : Nat :=
  text.foldl (fun count c => count + c.utf8Size) 0

def join (separator : Text) (texts : List Text) : Text :=
  (texts.intersperse separator).flatten

/-- Whether a text comes before another one in the order of their characters' code points, or is
the same text. -/
def le : Text → Text → Bool
  | [], _ => true
  | _ :: _, [] => false
  | c :: rest, d :: others => if c = d then le rest others else c.toNat < d.toNat

/-- Membership of a character in a list of ranges of code points, both ends included. -/
def inRanges (ranges : List (Nat × Nat)) (c : Char) : Bool :=
  ranges.any fun range => range.1 ≤ c.toNat && c.toNat ≤ range.2

end Text

end Assembler6502
