import Sitewright.Check.Checked
import Sitewright.Decimal.Binary64
import Sitewright.Text.Basic
import Sitewright.Time.Text

/-!
# Checks on numbers and times

`Checked.flag` and `Checked.integer` take besides the values they ask for a few that stand for them:
numbers without a fraction, as long as they fit into 64 bits, and texts. A row of more than
`Decimal.maxDigits` digits is too long for an integer. `Checked.timestamp` takes a text or a count
of seconds. Neither may lie in the year 0, which a time can be read with but not have.
-/

namespace Sitewright.Checked

/-! ## Flags and integers -/

/-- The bound of the integers that fit into 64 bits with a sign, two to the power of 63. -/
def wordBound : Int := 9223372036854775808

def isWord (n : Int) : Bool :=
  -wordBound ≤ n && n < wordBound

/-- Whether a number without a fraction lies within the bounds of a word, both excluded. -/
def isInnerWord (n : Int) : Bool :=
  -wordBound < n && n < wordBound

def flagWords : List (String × Bool) :=
  [("0", false), ("off", false), ("f", false), ("false", false), ("n", false), ("no", false),
   ("1", true), ("on", true), ("t", true), ("true", true), ("y", true), ("yes", true)]

def flagOfInt (n : Int) : Checked Bool :=
  if n = 0 then valid false else if n = 1 then valid true else fail .unclearFlag

/-- Takes besides the two truth values the numbers 0 and 1 and a few words in any letter case. -/
def flag : Json → Checked Bool
  | .bool b => valid b
  | .int n => if isWord n then flagOfInt n else fail .notFlag
  | .float x =>
      match x.toInt? with
      | some n => if isInnerWord n then flagOfInt n else fail .notFlag
      | none => fail .notFlag
  | .string text =>
      match flagWords.lookup (text.map Char.toLower) with
      | some b => valid b
      | none => fail .unclearFlag
  | _ => fail .notFlag

/-- Digits, single underscores between them allowed. -/
def groupedDigits? : List Char → Option (List Char)
  | [] => none
  | [c] => if Decimal.isDigit c then some [c] else none
  | c :: '_' :: rest => if Decimal.isDigit c then (groupedDigits? rest).map (c :: ·) else none
  | c :: rest => if Decimal.isDigit c then (groupedDigits? rest).map (c :: ·) else none

/-- Drops the zeros in front of a row and the underscores among them; of a row of zeros the last
one stays. -/
def dropLeadingZeros (row : List Char) : List Char :=
  if row.head? = some '0' then
    match row.dropWhile fun c => c == '0' || c == '_' with
    | [] => row.drop (row.length - 1)
    | rest => rest
  else row

/-- A text without the point at its end and the zeros after it, of which there must be one. -/
def dropPointZeros? (text : List Char) : Option (List Char) :=
  match text.dropWhile (· != '.') with
  | [] => some text
  | _ :: fraction =>
      if !fraction.isEmpty && fraction.all (· == '0') then some (text.takeWhile (· != '.'))
      else none

/-- The digits after a minus sign that follows zeros: an underscore may come first, and no further
zero may lead them. -/
def digitsAfterMinus? (row : List Char) : Option (List Char) :=
  let row := if row.head? = some '_' then row.drop 1 else row
  (groupedDigits? row).filter fun digits => digits.length == 1 || digits.head? != some '0'

/-- The digits of a row and whether a minus sign stands in front of them. In a row it may do so only
after zeros. -/
def signedDigits? (row : List Char) : Option (Bool × List Char) :=
  match row, dropLeadingZeros row with
  | '0' :: _, '-' :: rest => (digitsAfterMinus? rest).map (true, ·)
  | _, rest => (groupedDigits? rest).map (false, ·)

/-- The integer that a text denotes: digits with white space around them, a sign in front, and
nothing but zeros after a point. A minus sign may also follow zeros, but there is only one. -/
def intOfChars? (text : List Char) : Option Int := do
  let (minusFirst, text) := Decimal.splitSign (Text.trimSpace text)
  let whole ← dropPointZeros? text
  let (minusInside, digits) ← signedDigits? whole
  let negative := minusFirst || minusInside
  let n : Int := Decimal.ofDigits digits
  if minusFirst && minusInside || Decimal.maxDigits < digits.length + (if negative then 1 else 0) then none
  else return if negative then -n else n

/-- Whether a text starts with a number that is too long; its minus sign counts as a digit. -/
def isTooLong (text : List Char) : Bool :=
  let digits :=
    match text with
    | '-' :: rest => rest
    | text => text
  digits.head? != some '0' &&
    Decimal.maxDigits < (digits.takeWhile Decimal.isDigit).length + (text.length - digits.length)

/-- Takes besides integers the truth values, numbers without a fraction that fit into a word, and
decimal texts. -/
def integer : Json → Checked Int
  | .int n => valid n
  | .bool b => valid (if b then 1 else 0)
  | .float x =>
      if x.isInfinite then fail .infiniteInteger
      else
        match x.toInt? with
        | some n => if isInnerWord n then valid n else fail .oversizedInteger
        | none => fail .fractionalInteger
  | .string text =>
      if isTooLong text.toList then fail .oversizedInteger
      else
        match intOfChars? text.toList with
        | some n => valid n
        | none => fail .unreadableInteger
  | _ => fail .notInteger

/-! ## Times -/

/-- Takes a time that has been read, or answers the fault of its text or count. -/
def timestampOf (fault : TimeFault → Fault) : Except TimeFault Timestamp → Checked Timestamp
  | .ok time =>
      if time.date.year = 0 then fail (.impossibleTimestamp .yearZero) else valid time
  | .error cause => fail (fault cause)

/-- Whether an integer is too large for a binary number. -/
def isBoundless (n : Int) : Bool :=
  (Binary64.ofRatio n.natAbs 1).isNone

def timestamp : Json → Checked Timestamp
  | .int n =>
      if isBoundless n then fail .notTimestamp
      else timestampOf .impossibleTimestamp (Timestamp.ofUnix n)
  | .float x => timestampOf .impossibleTimestamp (Timestamp.ofUnixDecimal x)
  | .string text => timestampOf .unreadableTimestamp (Timestamp.ofText text)
  | _ => fail .notTimestamp

end Sitewright.Checked
