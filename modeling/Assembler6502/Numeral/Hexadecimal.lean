import Assembler6502.Text.Blank
import Assembler6502.Text.Digit

/-!
# Hexadecimal numerals

Reading an integer in base 16. A numeral may stand between blanks, have a sign and the mark `0x`,
and group its digits by single underscores, of which one may also follow the mark. The decimal
digits of every script count as digits. There is no limit to its size.
-/

namespace Assembler6502.Hexadecimal

/-- The blanks that may surround a numeral: all of them but the information separators. -/
def isMargin (c : Char) : Bool :=
  Text.isBlank c && !(0x1c ≤ c.toNat && c.toNat ≤ 0x1f)

/-- Writes the decimal digits of every script as ASCII digits. -/
def unifyDigit (c : Char) : Char :=
  match Text.decimalDigit? c with
  | some digit => Char.ofNat (0x30 + digit)
  | none => c

def digit? (c : Char) : Option Nat :=
  if '0' ≤ c ∧ c ≤ '9' then some (c.toNat - 0x30)
  else if 'a' ≤ c ∧ c ≤ 'f' then some (c.toNat - 0x57)
  else if 'A' ≤ c ∧ c ≤ 'F' then some (c.toNat - 0x37)
  else none

def isDigit (c : Char) : Bool :=
  (digit? c).isSome

/-- Continues a number by digits in groups. The flag tells whether an underscore may come next,
which is also whether the digits may end here. -/
def readGroups (afterDigit : Bool) (value : Nat) : Text → Option Nat
  | [] => if afterDigit then some value else none
  | c :: rest =>
    if c = '_' then if afterDigit then readGroups false value rest else none
    else
      match digit? c with
      | some digit => readGroups true (16 * value + digit) rest
      | none => none

/-- Reads the digits after the mark, if there is one. -/
def readMagnitude : Text → Option Nat
  | '0' :: 'x' :: '_' :: rest => readGroups false 0 rest
  | '0' :: 'X' :: '_' :: rest => readGroups false 0 rest
  | '0' :: 'x' :: rest => readGroups false 0 rest
  | '0' :: 'X' :: rest => readGroups false 0 rest
  | digits => readGroups false 0 digits

def readSigned : Text → Option Int
  | '-' :: rest => (readMagnitude rest).map fun magnitude => -(magnitude : Int)
  | '+' :: rest => (readMagnitude rest).map Int.ofNat
  | rest => (readMagnitude rest).map Int.ofNat

def read? (text : Text) : Option Int :=
  readSigned ((text.trimBy isMargin).map unifyDigit)

def digits (number : Nat) : Text :=
  Nat.toDigits 16 number

def write (number : Int) : Text :=
  (if number < 0 then ['-'] else []) ++ '0' :: 'x' :: digits number.natAbs

end Assembler6502.Hexadecimal
