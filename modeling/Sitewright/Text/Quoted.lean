import Sitewright.Text.Encoding
import Sitewright.Text.Printable

/-!
# Quoted text

`quoted` writes a text between quotes on one line of printable characters. The quotes are single
unless the text has a single quote and no double one. The quote in use, the backslash and the line
feed, carriage return and tabulator are written with a backslash, any other character that is not
printable by its code in hexadecimal, and so is half a pair of surrogates.
-/

namespace Sitewright.Text

def hexDigit (n : Nat) : Char :=
  if n < 10 then Char.ofNat (48 + n) else Char.ofNat (87 + n)

/-- The last `width` hexadecimal digits of `n`. -/
def hex (width n : Nat) : List Char :=
  match width with
  | 0 => []
  | width + 1 => hex width (n / 16) ++ [hexDigit (n % 16)]

def quoteFor (text : List Char) : Char :=
  if text.contains '\'' && !text.contains '"' then '"' else '\''

def quotedChar (quote c : Char) : List Char :=
  if c = quote || c = '\\' then ['\\', c]
  else if c = '\n' then ['\\', 'n']
  else if c = '\r' then ['\\', 'r']
  else if c = '\t' then ['\\', 't']
  else if isPrintable c then [c]
  else if c.toNat < 0x100 then '\\' :: 'x' :: hex 2 c.toNat
  else if c.toNat < 0x10000 then '\\' :: 'u' :: hex 4 c.toNat
  else '\\' :: 'U' :: hex 8 c.toNat

def quotedChars (quote : Char) : List Char → List Char
  | [] => []
  | [c] => quotedChar quote c
  | c :: d :: rest =>
      if isHalf c d then '\\' :: 'u' :: hex 4 (d.toNat - 0x800) ++ quotedChars quote rest
      else quotedChar quote c ++ quotedChars quote (d :: rest)

def quoted (text : List Char) : List Char :=
  let quote := quoteFor text
  quote :: quotedChars quote text ++ [quote]

end Sitewright.Text
