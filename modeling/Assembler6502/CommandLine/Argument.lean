import Assembler6502.CommandLine.Usage
import Assembler6502.Text.Digit

/-!
# Arguments

Each argument of a command line is a plain text or a switch. A long name may be shortened, and may
have a value after an equals sign. A letter may have a value or further letters directly after it.

Parsers of arguments do not agree on letters, and this one follows the older convention. An equals
sign directly after the first letter is skipped, so `-c=q` is the same as `-cq` and as `-c -q`. A
letter that calls no switch is refused as the value of the flag before it, as in `-cx`. Newer
parsers refuse `-c=q`, and count `-x` among the unrecognized arguments.
-/

namespace Assembler6502.CommandLine

def separatorText : Text :=
  ['-', '-']

inductive Argument where
  | plain (text : Text)
  /-- The mark after which all arguments are plain. -/
  | separator
  /-- A switch, called by its letter or by its long name, and the text attached to it. -/
  | call (switch : Switch) (byLetter : Bool) (attached : Option Text)
  /-- An argument that looks like a switch and is none. -/
  | unknown (text : Text)
deriving DecidableEq, Repr

namespace Argument

/-- The switch whose name, letter or long name, is exactly this text, and whether it is called by
its letter. -/
def named? (text : Text) : Option (Switch × Bool) :=
  match Switch.all.find? (fun switch => ['-', switch.letter] = text) with
  | some switch => some (switch, true)
  | none => (Switch.all.find? (·.longName = text)).map fun switch => (switch, false)

/-- Whether a text is a negative number: digits, or a fraction with a point. One line feed may end
it. -/
def isNegativeNumber : Text → Bool
  | '-' :: rest =>
    let number : Text := if rest.getLast? = some '\n' then rest.dropLast else rest
    match number.cut? '.' with
    | none => !number.isEmpty && number.all Text.isDecimalDigit
    | some (whole, fraction) =>
      whole.all Text.isDecimalDigit && !fraction.isEmpty && fraction.all Text.isDecimalDigit
  | _ => false

/-- An argument that starts with a dash and names no switch, in full or in part. -/
def ofUnnamed (text : Text) : Argument :=
  if isNegativeNumber text ∨ text.contains ' ' then .plain text else .unknown text

/-- An argument that may start with the shortened long name of a switch. -/
def ofShortened (text : Text) : Except UsageProblem Argument :=
  let name := text.before '='
  match Switch.all.filter fun switch => name.isPrefixOf switch.longName with
  | [] => .ok (ofUnnamed text)
  | [switch] => .ok (.call switch false ((text.cut? '=').map (·.2)))
  | switches => .error (.ambiguous text switches)

def ofDashed (text : Text) : Except UsageProblem Argument :=
  match (text.cut? '=').bind fun parts => (named? parts.1).map fun named => (named, parts.2) with
  | some ((switch, byLetter), value) => .ok (.call switch byLetter (some value))
  | none =>
    if separatorText.isPrefixOf text then ofShortened text
    else
      match (text[1]?).bind Switch.ofLetter? with
      | some switch => .ok (.call switch true (some (text.drop 2)))
      | none => .ok (ofUnnamed text)

def ofText (text : Text) : Except UsageProblem Argument :=
  if text.head? ≠ some '-' then .ok (.plain text)
  else
    match named? text with
    | some (switch, byLetter) => .ok (.call switch byLetter none)
    | none => if text = ['-'] then .ok (.plain text) else ofDashed text

def ofTexts : List Text → Except UsageProblem (List Argument)
  | [] => .ok []
  | text :: rest =>
    if text = separatorText then .ok (.separator :: rest.map .plain)
    else
      match ofText text with
      | .error problem => .error problem
      | .ok argument => (ofTexts rest).map (argument :: ·)

end Argument

end Assembler6502.CommandLine
