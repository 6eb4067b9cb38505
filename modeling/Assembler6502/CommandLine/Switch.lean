import Assembler6502.Text.Basic

/-!
# Switches

The switches of the command line, by letter and by long name.
-/

namespace Assembler6502.CommandLine

inductive Flag where
  | help
  | coeOnly
  | quiet
deriving DecidableEq, Repr

inductive Parameter where
  | withMap
  | output
deriving DecidableEq, Repr

inductive Switch where
  | flag (flag : Flag)
  | parameter (parameter : Parameter)
deriving DecidableEq, Repr

namespace Switch

def all : List Switch :=
  [.flag .help, .flag .coeOnly, .parameter .withMap, .parameter .output, .flag .quiet]

def letter : Switch → Char
  | flag .help => 'h'
  | flag .coeOnly => 'c'
  | flag .quiet => 'q'
  | parameter .withMap => 'm'
  | parameter .output => 'o'

def longName : Switch → Text
  | flag .help => "--help".toList
  | flag .coeOnly => "--coe-only".toList
  | flag .quiet => "--quiet".toList
  | parameter .withMap => "--with-map".toList
  | parameter .output => "--output".toList

def title (switch : Switch) : Text :=
  '-' :: switch.letter :: '/' :: switch.longName

def ofLetter? (letter : Char) : Option Switch :=
  all.find? (·.letter = letter)

end Switch

end Assembler6502.CommandLine
