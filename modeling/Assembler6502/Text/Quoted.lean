import Assembler6502.Text.Printable

/-!
# Quoted text

The form in which messages show a text that was read: between quotes, with a backslash form for
every character that does not print. Single quotes are used unless the text has a single quote and
no double quote.
-/

namespace Assembler6502.Text

def hexPadded (width number : Nat) : Text :=
  padZeros width (Nat.toDigits 16 number)

def quoteFor (text : Text) : Char :=
  if text.contains '\x27' && !text.contains '\x22' then '\x22' else '\x27'

def quotedChar (quote c : Char) : Text :=
  if c = quote ∨ c = '\\' then ['\\', c]
  else if c = '\n' then ['\\', 'n']
  else if c = '\r' then ['\\', 'r']
  else if c = '\t' then ['\\', 't']
  else if isPrintable c then [c]
  else if c.toNat < 0x100 then '\\' :: 'x' :: hexPadded 2 c.toNat
  else if c.toNat < 0x10000 then '\\' :: 'u' :: hexPadded 4 c.toNat
  else '\\' :: 'U' :: hexPadded 8 c.toNat

def quoted (text : Text) : Text :=
  let quote := quoteFor text
  quote :: text.flatMap (quotedChar quote) ++ [quote]

end Assembler6502.Text
