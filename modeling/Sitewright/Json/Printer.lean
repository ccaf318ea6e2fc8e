import Sitewright.Decimal.Text
import Sitewright.Json.Basic
import Sitewright.Text.Quoted

/-!
# JSON text

`Json.print` writes a value in one of two layouts, on one line or with every entry on a line of its
own two blanks further in, and in one of two alphabets, all of Unicode or ASCII alone. In ASCII a
character beyond U+FFFF is written as a surrogate pair. Half a pair of surrogates is written like any
other text, in ASCII too: as the two characters that stand for it. Infinity is no number of JSON:
where `words` are allowed it is written as a word, and as null elsewhere, and so is what is no
number at all.
-/

namespace Sitewright

structure JsonStyle where
  ascii : Bool
  indented : Bool
  words : Bool

namespace JsonStyle

def line : JsonStyle := ⟨false, false, true⟩
def asciiLine : JsonStyle := ⟨true, false, false⟩
def block : JsonStyle := ⟨false, true, true⟩
def asciiBlock : JsonStyle := ⟨true, true, true⟩

/-- What stands before an entry at the given depth. -/
def lead (style : JsonStyle) (depth : Nat) : List Char :=
  if style.indented then '\n' :: List.replicate (2 * depth) ' ' else []

/-- What stands between two entries at the given depth. -/
def separator (style : JsonStyle) (depth : Nat) : List Char :=
  if style.indented then ',' :: style.lead depth else [',', ' ']

end JsonStyle

namespace Json

def unicodeEscape (code : Nat) : List Char :=
  '\\' :: 'u' :: Text.hex 4 code

/-- The escapes of a character by its code, two of them beyond U+FFFF. -/
def codeEscape (c : Char) : List Char :=
  let code := c.toNat
  if code < 0x10000 then unicodeEscape code
  else
    unicodeEscape (0xD800 + (code - 0x10000) / 0x400) ++
      unicodeEscape (0xDC00 + (code - 0x10000) % 0x400)

def escapeChar (ascii : Bool) (c : Char) : List Char :=
  if c = '"' || c = '\\' then ['\\', c]
  else if c = '\n' then ['\\', 'n']
  else if c = '\r' then ['\\', 'r']
  else if c = '\t' then ['\\', 't']
  else if c.toNat = 0x0C then ['\\', 'f']
  else if c.toNat = 0x08 then ['\\', 'b']
  else if c.toNat < 0x20 || (ascii && 0x7F ≤ c.toNat) then codeEscape c
  else [c]

/-- The word for infinity, or for what is no number. -/
def numberWord (x : Decimal) : List Char :=
  if x = .nan then "NaN".toList
  else if x.negative then '-' :: "Infinity".toList
  else "Infinity".toList

def floatChars (style : JsonStyle) (x : Decimal) : List Char :=
  if x.isInfinite then (if style.words then numberWord x else ['n', 'u', 'l', 'l'])
  else x.text

def printString (ascii : Bool) (text : String) : List Char :=
  '"' :: text.toList.flatMap (escapeChar ascii) ++ ['"']

mutual

def chars (style : JsonStyle) (depth : Nat) : Json → List Char
  | .null => ['n', 'u', 'l', 'l']
  | .bool true => ['t', 'r', 'u', 'e']
  | .bool false => ['f', 'a', 'l', 's', 'e']
  | .int n => Decimal.intDigits n
  | .float x => floatChars style x
  | .string text => printString style.ascii text
  | .array [] => ['[', ']']
  | .array (item :: items) =>
      '[' :: style.lead (depth + 1) ++ chars style (depth + 1) item ++
        charsOfItems style (depth + 1) items ++ style.lead depth ++ [']']
  | .object [] => ['{', '}']
  | .object ((key, value) :: fields) =>
      '{' :: style.lead (depth + 1) ++ printString style.ascii key ++ ':' :: ' ' ::
        chars style (depth + 1) value ++ charsOfFields style (depth + 1) fields ++
        style.lead depth ++ ['}']

/-- The items after the first one. -/
def charsOfItems (style : JsonStyle) (depth : Nat) : List Json → List Char
  | [] => []
  | item :: items =>
      style.separator depth ++ chars style depth item ++ charsOfItems style depth items

/-- The entries after the first one. -/
def charsOfFields (style : JsonStyle) (depth : Nat) : List (String × Json) → List Char
  | [] => []
  | (key, value) :: fields =>
      style.separator depth ++ printString style.ascii key ++ ':' :: ' ' ::
        chars style depth value ++ charsOfFields style depth fields

end

def print (style : JsonStyle) (value : Json) : String :=
  String.ofList (chars style 0 value)

end Json

end Sitewright
