import Assembler6502.Operand
import Assembler6502.SourceLine

/-!
# Segments

Origin lines cut a source into segments, each with the address at which its code goes. When an
origin is given again, its last segment replaces the earlier ones.
-/

namespace Assembler6502

structure Segment where
  origin : Int
  lines : List SourceLine
deriving DecidableEq, Repr

namespace Segment

def directive : Text :=
  ['.', 'o', 'r', 'g']

def isOrigin (code : Text) : Bool :=
  directive.isPrefixOf code

/-- The address on an origin line: the second of its two words, without its first character, in
base 16. -/
def readOrigin (code : Text) : Except Problem Int :=
  match code.words with
  | [_, address] => Operand.readNumeral (address.drop 1)
  | words => .error (.wordCount words.length)

/-- Cuts lines of code at the origin lines. The first part has the lines before any origin. -/
def cutAtOrigins : List SourceLine → Except Problem (List SourceLine × List Segment)
  | [] => .ok ([], [])
  | line :: rest =>
    if isOrigin line.code then
      match readOrigin line.code with
      | .error problem => .error problem
      | .ok origin => (cutAtOrigins rest).map fun parts => ([], ⟨origin, parts.1⟩ :: parts.2)
    else (cutAtOrigins rest).map fun parts => (line :: parts.1, parts.2)

/-- Keeps of the segments with one origin only the last. -/
def keepLast : List Segment → List Segment
  | [] => []
  | segment :: rest =>
    if rest.any (·.origin == segment.origin) then keepLast rest
    else segment :: keepLast rest

/-- The segments of lines of code, by ascending origin. Code before the first origin is an
error. -/
def ofLines (lines : List SourceLine) : Except Problem (List Segment) :=
  if lines.head?.any (!isOrigin ·.code) then .error .codeBeforeOrigin
  else (cutAtOrigins lines).map fun parts =>
    (keepLast parts.2).mergeSort fun first second => first.origin ≤ second.origin

def ofFile (content : Text) : Except Problem (List Segment) :=
  ofLines (SourceLine.ofFile content)

def code (segment : Segment) : List Text :=
  segment.lines.map (·.code)

end Segment

end Assembler6502
