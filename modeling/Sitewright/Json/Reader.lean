import Sitewright.Decimal.Binary64
import Sitewright.Json.Basic
import Sitewright.Text.Encoding

/-!
# Reading JSON

`Json.read` reads one JSON value with blanks around it. A text that is no such value is answered
with the position, counted in characters, at which the fault shows: where a value, a key, a colon
or a comma was expected, at the opening quote of a text without end, at the backslash of an unknown
escape, at the letter u of an incomplete one, or where something follows the value. An integer of
more digits than the limit is not read at all; `Json.read` sets the limit to `Decimal.maxDigits`, and
without a limit integers of any length are read. A number with a fraction or an exponent that is too
large counts as infinity, as the word `Infinity` does; the word `NaN` is read, too. Of the entries of
an object with the same key the last one counts, in the place of the first.
-/

namespace Sitewright.Json

/-- Why reading stops: at a fault, with the text from there on, or at an integer that is too
long. -/
inductive Stop where
  | fault (rest : List Char)
  | longInteger
  deriving Repr

/-- A value and the text after it. -/
def Reading (α : Type) := Except Stop (α × List Char)

namespace Reading

variable {α β : Type}

def done (value : α) (rest : List Char) : Reading α :=
  .ok (value, rest)

def fault (rest : List Char) : Reading α :=
  .error (.fault rest)

def longInteger : Reading α :=
  .error .longInteger

def andThen (reading : Reading α) (next : α → List Char → Reading β) : Reading β :=
  match reading with
  | .ok (value, rest) => next value rest
  | .error stop => .error stop

def map (f : α → β) (reading : Reading α) : Reading β :=
  reading.andThen fun value => done (f value)

end Reading

def isSpace (c : Char) : Bool :=
  c = ' ' || c = '\t' || c = '\n' || c = '\r'

def skipSpace (text : List Char) : List Char :=
  text.dropWhile isSpace

def hexValue? (c : Char) : Option Nat :=
  if '0' ≤ c && c ≤ '9' then some (c.toNat - 48)
  else if 'a' ≤ c && c ≤ 'f' then some (c.toNat - 87)
  else if 'A' ≤ c && c ≤ 'F' then some (c.toNat - 55)
  else none

def hexCode? (a b c d : Char) : Option Nat := do
  let a ← hexValue? a
  let b ← hexValue? b
  let c ← hexValue? c
  let d ← hexValue? d
  return 4096 * a + 256 * b + 16 * c + d

def simpleEscape? (c : Char) : Option Nat :=
  if c = '"' || c = '\\' || c = '/' then some c.toNat
  else if c = 'b' then some 0x08
  else if c = 'f' then some 0x0C
  else if c = 'n' then some 0x0A
  else if c = 'r' then some 0x0D
  else if c = 't' then some 0x09
  else none

/-- Reads the code units of a text up to its closing quote; `start` is the text from the opening
quote on. -/
def readUnits (start : List Char) : List Char → Reading (List Nat)
  | [] => .fault start
  | '"' :: rest => .done [] rest
  | '\\' :: 'u' :: a :: b :: c :: d :: rest =>
      match hexCode? a b c d, rest with
      | some code, _ :: _ => (readUnits start rest).map (code :: ·)
      | _, _ => .fault ('u' :: a :: b :: c :: d :: rest)
  | '\\' :: 'u' :: rest => .fault ('u' :: rest)
  | ['\\'] => .fault start
  | '\\' :: c :: rest =>
      match simpleEscape? c with
      | some code => (readUnits start rest).map (code :: ·)
      | none => .fault ('\\' :: c :: rest)
  | c :: rest =>
      if c.toNat < 0x20 then .fault (c :: rest)
      else (readUnits start rest).map (c.toNat :: ·)

/-- Reads a text after its opening quote. -/
def readString (text : List Char) : Reading String :=
  (readUnits ('"' :: text) text).map fun codes => String.ofList (Text.joinUnits codes)

/-- A minus sign in front of a number, and the text after it. -/
def splitMinus : List Char → Bool × List Char
  | '-' :: rest => (true, rest)
  | text => (false, text)

/-- The digits of the integer part: a zero alone, or a row that does not start with zero. -/
def splitWhole : List Char → List Char × List Char
  | '0' :: rest => (['0'], rest)
  | text => (text.takeWhile Decimal.isDigit, text.dropWhile Decimal.isDigit)

/-- The digits of a fraction; a point without digits is left where it is. -/
def splitFraction : List Char → List Char × List Char
  | '.' :: rest =>
      let digits := rest.takeWhile Decimal.isDigit
      if digits.isEmpty then ([], '.' :: rest) else (digits, rest.dropWhile Decimal.isDigit)
  | text => ([], text)

/-- The exponent of a number; a letter e without digits is left where it is. -/
def splitExponent (text : List Char) : Option Int × List Char :=
  match text with
  | c :: rest =>
      if c = 'e' || c = 'E' then
        let (negative, rest) := Decimal.splitSign rest
        let digits := rest.takeWhile Decimal.isDigit
        if digits.isEmpty then (none, text)
        else
          let n : Int := Decimal.ofDigits digits
          (some (if negative then -n else n), rest.dropWhile Decimal.isDigit)
      else (none, text)
  | [] => (none, [])

/-- Whether an integer of so many digits is read at all. -/
def admits (limit : Option Nat) (digits : Nat) : Bool :=
  limit.all (digits ≤ ·)

def readNumber (limit : Option Nat) (text : List Char) : Reading Json :=
  let (negative, rest) := splitMinus text
  let (whole, rest) := splitWhole rest
  if whole.isEmpty then .fault text
  else
    let (fraction, rest) := splitFraction rest
    let (exponent, rest) := splitExponent rest
    if fraction.isEmpty && exponent.isNone then
      let n : Int := Decimal.ofDigits whole
      if admits limit whole.length then .done (.int (if negative then -n else n)) rest
      else .longInteger
    else
      let numeral : Decimal :=
        ⟨negative, Decimal.ofDigits (whole ++ fraction), exponent.getD 0 - fraction.length⟩
      .done (.float numeral.rounded) rest

/-- A number or a word. -/
def readScalar (limit : Option Nat) : List Char → Reading Json
  | 'n' :: 'u' :: 'l' :: 'l' :: rest => .done .null rest
  | 't' :: 'r' :: 'u' :: 'e' :: rest => .done (.bool true) rest
  | 'f' :: 'a' :: 'l' :: 's' :: 'e' :: rest => .done (.bool false) rest
  | 'N' :: 'a' :: 'N' :: rest => .done (.float .nan) rest
  | 'I' :: 'n' :: 'f' :: 'i' :: 'n' :: 'i' :: 't' :: 'y' :: rest =>
      .done (.float (.infinite false)) rest
  | '-' :: 'I' :: 'n' :: 'f' :: 'i' :: 'n' :: 'i' :: 't' :: 'y' :: rest =>
      .done (.float (.infinite true)) rest
  | text => readNumber limit text

mutual

/-- Reads a value that starts at once; `fuel` bounds the number of steps. -/
def readValue (limit : Option Nat) : (fuel : Nat) → List Char → Reading Json
  | 0, text => .fault text
  | _ + 1, '"' :: rest => (readString rest).map .string
  | fuel + 1, '[' :: rest =>
      match skipSpace rest with
      | ']' :: rest => .done (.array []) rest
      | text => (readItems limit fuel text).map .array
  | fuel + 1, '{' :: rest =>
      match skipSpace rest with
      | '}' :: rest => .done (.object []) rest
      | text => (readFields limit fuel text).map fun entries => .object (Dict.ofEntries entries)
  | _ + 1, text => readScalar limit text

/-- Reads the items from one on, up to the closing bracket. -/
def readItems (limit : Option Nat) : (fuel : Nat) → List Char → Reading (List Json)
  | 0, text => .fault text
  | fuel + 1, text =>
      (readValue limit fuel text).andThen fun item rest =>
        match skipSpace rest with
        | ']' :: rest => .done [item] rest
        | ',' :: rest => (readItems limit fuel (skipSpace rest)).map (item :: ·)
        | text => .fault text

/-- Reads the entries from one on, up to the closing brace. -/
def readFields (limit : Option Nat) : (fuel : Nat) → List Char →
    Reading (List (String × Json))
  | 0, text => .fault text
  | fuel + 1, '"' :: rest =>
      (readString rest).andThen fun key rest =>
        match skipSpace rest with
        | ':' :: rest =>
            (readValue limit fuel (skipSpace rest)).andThen fun value rest =>
              match skipSpace rest with
              | '}' :: rest => .done [(key, value)] rest
              | ',' :: rest => (readFields limit fuel (skipSpace rest)).map ((key, value) :: ·)
              | text => .fault text
        | text => .fault text
  | _ + 1, text => .fault text

end

/-- Reads a whole text. -/
def readAll (limit : Option Nat) (text : List Char) : Except Stop Json :=
  match readValue limit (text.length + 1) (skipSpace text) with
  | .ok (value, rest) =>
      match skipSpace rest with
      | [] => .ok value
      | rest => .error (.fault rest)
  | .error stop => .error stop

/-- Why a text is no value. -/
inductive Flaw where
  | fault (position : Nat)
  | longInteger
  deriving DecidableEq, Repr

def Stop.flaw (text : List Char) : Stop → Flaw
  | .fault rest => .fault (text.length - rest.length)
  | .longInteger => .longInteger

def ofCharsWithin (limit : Option Nat) (text : List Char) : Except Flaw Json :=
  (readAll limit text).mapError (Stop.flaw text)

def ofChars (text : List Char) : Except Flaw Json :=
  ofCharsWithin (some Decimal.maxDigits) text

/-- Reads a text whose integers keep to a limit, if there is one. -/
def readWithin (limit : Option Nat) (text : String) : Except Flaw Json :=
  ofCharsWithin limit text.toList

def read (text : String) : Except Flaw Json :=
  ofChars text.toList

end Sitewright.Json
