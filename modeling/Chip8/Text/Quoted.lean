import Chip8.Text.Numeral
import Chip8.Text.Printable

/-!
# Quoted text

Text in messages is quoted: in single quotes, or in double quotes if it holds a single
quote and no double one. A backslash and the quote itself are escaped, and so is every
character that is not printable, by its code point in lower-case hexadecimal.
-/

namespace Chip8.Quoted

/-- The quote that text is put in. -/
def quoteFor (cs : List Char) : Char :=
  if cs.contains '\'' && !cs.contains '"' then '"' else '\''

/-- Hexadecimal digits in lower case. -/
def lowerHex (width n : Nat) : List Char :=
  ((Numeral.digits 16 n).leftpad width '0').map Char.toLower

/-- A character by its code point, with as many digits as it needs. -/
def escapeCode (n : Nat) : List Char :=
  if n < 0x100 then '\\' :: 'x' :: lowerHex 2 n
  else if n < 0x10000 then '\\' :: 'u' :: lowerHex 4 n
  else '\\' :: 'U' :: lowerHex 8 n

/-- A character between given quotes. -/
def escape (quote c : Char) : List Char :=
  if c = '\\' || c = quote then ['\\', c]
  else if c = '\t' then ['\\', 't']
  else if c = '\n' then ['\\', 'n']
  else if c = '\r' then ['\\', 'r']
  else if Printable.isPrintable c then [c]
  else escapeCode c.toNat

/-- Text in quotes. -/
def text (s : String) : String :=
  let cs := s.toList
  let quote := quoteFor cs
  String.ofList (quote :: cs.flatMap (escape quote) ++ [quote])

end Chip8.Quoted
