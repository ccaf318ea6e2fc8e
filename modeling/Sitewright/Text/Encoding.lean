/-!
# Encodings of a text

A text may be given as numbers, each of them the code of a character or half of one: a character
beyond U+FFFF is written as a pair of surrogates, which `joinUnits` joins. Half a pair that stands
alone is no character. It is kept as the noncharacter U+10FFFF and a character that tells which half
it is, and a text with such a half is not whole: there is no way to write it in UTF-8. A text that
brings these two characters along counts as one with half a pair.

`utf8Bytes` writes a character as bytes, and `decodeUtf8` reads bytes as characters. Where they are
none, the longest start of a character, or else a single byte, becomes one replacement character.

A text that starts with an ASCII character shows its encoding by the zeros among its first bytes.
`recode?` takes a text that was read as UTF-8 and reads its bytes in the encoding that they show; a
byte order mark in front of UTF-8 is no part of the text.
-/

namespace Sitewright.Text

/-! ## Code units -/

def isHighSurrogate (code : Nat) : Bool :=
  0xD800 ≤ code && code < 0xDC00

def isLowSurrogate (code : Nat) : Bool :=
  0xDC00 ≤ code && code < 0xE000

/-- Stands in front of half a pair. -/
def halfMark : Char := Char.ofNat 0x10FFFF

/-- The characters of a code, two of them for half a pair. -/
def charsOfCode (code : Nat) : List Char :=
  if isHighSurrogate code || isLowSurrogate code then [halfMark, Char.ofNat (code + 0x800)]
  else [Char.ofNat code]

/-- Joins surrogate pairs. -/
def joinUnits : List Nat → List Char
  | [] => []
  | [code] => charsOfCode code
  | high :: low :: rest =>
      if isHighSurrogate high && isLowSurrogate low then
        Char.ofNat (0x10000 + 0x400 * (high - 0xD800) + (low - 0xDC00)) :: joinUnits rest
      else charsOfCode high ++ joinUnits (low :: rest)

/-- Whether two characters in a row are half a pair. -/
def isHalf (c d : Char) : Bool :=
  c = halfMark && 0xE000 ≤ d.toNat && d.toNat < 0xE800

/-- Whether half a pair stands alone in a text, so that the text is not whole. -/
def hasHalf : List Char → Bool
  | c :: d :: rest => isHalf c d || hasHalf (d :: rest)
  | _ => false

/-! ## UTF-8 -/

def replacement : Char := '\uFFFD'

def utf8Bytes (c : Char) : List Nat :=
  (String.utf8EncodeChar c).map UInt8.toNat

/-- The number of bytes that follow a leading byte, and the bounds of the first of them. -/
def continuation? (lead : Nat) : Option (Nat × Nat × Nat) :=
  if lead < 0xC2 then none
  else if lead < 0xE0 then some (1, 0x80, 0xBF)
  else if lead = 0xE0 then some (2, 0xA0, 0xBF)
  else if lead = 0xED then some (2, 0x80, 0x9F)
  else if lead < 0xF0 then some (2, 0x80, 0xBF)
  else if lead = 0xF0 then some (3, 0x90, 0xBF)
  else if lead < 0xF4 then some (3, 0x80, 0xBF)
  else if lead = 0xF4 then some (3, 0x80, 0x8F)
  else none

/-- At most `count` bytes that continue a character, the first of them within the given bounds. -/
def continuing : (count low high : Nat) → List Nat → List Nat
  | 0, _, _, _ => []
  | _ + 1, _, _, [] => []
  | count + 1, low, high, byte :: rest =>
      if low ≤ byte && byte ≤ high then byte :: continuing count 0x80 0xBF rest else []

/-- The bits of a leading byte that count. -/
def leadBits (lead count : Nat) : Nat :=
  lead % Nat.pow 2 (6 - count)

/-- The character that starts with a leading byte, and how many bytes after it belong to it. -/
def utf8Char (lead : Nat) (rest : List Nat) : Char × Nat :=
  if lead < 0x80 then (Char.ofNat lead, 0)
  else
    match continuation? lead with
    | none => (replacement, 0)
    | some (count, low, high) =>
        let bytes := continuing count low high rest
        if bytes.length = count then
          (Char.ofNat (bytes.foldl (fun code byte => 64 * code + byte % 64) (leadBits lead count)),
            count)
        else (replacement, bytes.length)

/-- Leaves out `skip` bytes and then reads. -/
def decodeUtf8From : (skip : Nat) → List Nat → List Char
  | _, [] => []
  | skip + 1, _ :: rest => decodeUtf8From skip rest
  | 0, lead :: rest =>
      let (c, length) := utf8Char lead rest
      c :: decodeUtf8From length rest

def decodeUtf8 (bytes : List Nat) : List Char :=
  decodeUtf8From 0 bytes

/-! ## Other encodings -/

inductive Encoding where
  | utf8
  | utf16 (bigEndian : Bool)
  | utf32 (bigEndian : Bool)
  deriving DecidableEq, Repr

/-- The encoding of a text by its bytes, of which only the first four count. -/
def Encoding.ofBytes : List Nat → Encoding
  | 0 :: 0 :: _ :: _ :: _ => .utf32 true
  | 0 :: _ :: _ :: _ :: _ => .utf16 true
  | _ :: 0 :: 0 :: 0 :: _ => .utf32 false
  | _ :: 0 :: _ :: _ :: _ => .utf16 false
  | [0, _] => .utf16 true
  | [_, 0] => .utf16 false
  | _ => .utf8

/-- Joins the bytes two by two, none if one is left over. -/
def pairBytes? (bigEndian : Bool) : List Nat → Option (List Nat)
  | [] => some []
  | [_] => none
  | a :: b :: rest =>
      (pairBytes? bigEndian rest).map ((if bigEndian then 256 * a + b else a + 256 * b) :: ·)

/-- Joins the two halves of codes, none if one is left over or no code of a character results. -/
def pairHalves? (bigEndian : Bool) : List Nat → Option (List Nat)
  | [] => some []
  | [_] => none
  | a :: b :: rest =>
      let code := if bigEndian then 65536 * a + b else a + 65536 * b
      if code < 0x110000 then (pairHalves? bigEndian rest).map (code :: ·) else none

def dropMark : List Char → List Char
  | '\uFEFF' :: rest => rest
  | text => text

/-- Reads the bytes of a text in the encoding that they show, none if they end in the middle of a
character. -/
def recode? (text : List Char) : Option (List Char) :=
  let bytes := text.flatMap utf8Bytes
  match Encoding.ofBytes bytes with
  | .utf8 => some (dropMark text)
  | .utf16 bigEndian => (pairBytes? bigEndian bytes).map joinUnits
  | .utf32 bigEndian =>
      ((pairBytes? bigEndian bytes).bind (pairHalves? bigEndian)).map fun codes =>
        codes.flatMap charsOfCode

end Sitewright.Text
