import Assembler6502.Text.Basic

/-!
# Paths

A path is a text in which slashes divide the names of folders and, at the end, of a file.
-/

namespace Assembler6502.Path

/-- The parts before and after the last `mark`, or nothing if the text has no `mark`. -/
def cutLast? (mark : Char) (text : Text) : Option (Text × Text) :=
  (Text.cut? mark text.reverse).map fun parts => (parts.2.reverse, parts.1.reverse)

/-- The folders of a path, with the slash that ends them, and the name after them. -/
def splitName (path : Text) : Text × Text :=
  match cutLast? '/' path with
  | some (folders, name) => (folders ++ ['/'], name)
  | none => ([], path)

/-- A path without the extension of its last name. The extension starts at the last dot of the
name, unless only dots come before it. -/
def stem (path : Text) : Text :=
  let (folders, name) := splitName path
  match cutLast? '.' name with
  | some (base, _) => if base.any (· ≠ '.') then folders ++ base else path
  | none => path

/-- The names between the slashes of a path, of which some may be empty. -/
def steps : Text → List Text
  | [] => [[]]
  | c :: rest => if c = '/' then [] :: steps rest else Text.extendFirst c (steps rest)

end Assembler6502.Path
