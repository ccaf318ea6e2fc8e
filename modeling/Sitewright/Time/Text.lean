import Sitewright.Time.Unix

/-!
# Times as texts

`Timestamp.ofText` reads a text as a time in the ISO form or one of its usual variants, as a count
of seconds, or as a date. Date and time of day stand apart by a letter T, a blank or an underscore;
the seconds and the offset from universal time may be missing, and the digits of a fraction after
the sixth are dropped.
-/

namespace Sitewright

namespace Text

/-- A number of exactly `width` digits, and the text after it. -/
def digits? (width : Nat) (text : List Char) : Option (Int × List Char) :=
  let digits := text.take width
  if digits.length = width && digits.all Decimal.isDigit then
    some (Decimal.ofDigits digits, text.drop width)
  else none

/-- The text after a mark that stands at its start. -/
def mark? (marks : List Char) : List Char → Option (List Char)
  | [] => none
  | c :: rest => if marks.contains c then some rest else none

/-- The number of bytes of a text. -/
def byteCount (text : List Char) : Nat :=
  text.foldl (fun count c => count + c.utf8Size) 0

end Text

namespace Date

def demand {α : Type} (fault : TimeFault) : Option α → Except TimeFault α
  | some value => .ok value
  | none => .error fault

/-- Reads the date at the start of a text. -/
def read (text : List Char) : Except TimeFault (Date × List Char) := do
  if Text.byteCount text < 10 then throw .tooShort
  let (year, text) ← demand .yearDigit (Text.digits? 4 text)
  let text ← demand .dateSeparator (Text.mark? ['-'] text)
  let (month, text) ← demand .monthDigit (Text.digits? 2 text)
  let text ← demand .dateSeparator (Text.mark? ['-'] text)
  let (day, text) ← demand .dayDigit (Text.digits? 2 text)
  if month < 1 || 12 < month then throw .month
  if day < 1 || monthLength year month < day then throw .day
  return (⟨year, month, day⟩, text)

end Date

namespace Timestamp

/-- A number of two digits that is at most `high`, and the text after it. -/
def twoDigits? (high : Int) (text : List Char) : Option (Int × List Char) :=
  (Text.digits? 2 text).filter fun (n, _) => n ≤ high

/-- Reads seconds and a fraction as microseconds. -/
def readSeconds? (text : List Char) : Option (Int × List Char) :=
  match Text.mark? [':'] text with
  | none => some (0, text)
  | some text => do
      let (second, text) ← twoDigits? 59 text
      match Text.mark? ['.', ','] text with
      | none => return (second * 1000000, text)
      | some text =>
          let digits := text.takeWhile Decimal.isDigit
          if digits.isEmpty then none
          else
            let micros := Decimal.ofDigits ((digits ++ List.replicate 6 '0').take 6)
            return (second * 1000000 + micros, text.dropWhile Decimal.isDigit)

/-- Reads the offset at the end of a time in seconds; it has hours and minutes. -/
def readOffset? (text : List Char) : Option (Option Int) :=
  match text with
  | [] => some none
  | ['Z'] => some (some 0)
  | ['z'] => some (some 0)
  | sign :: text => do
      let (hour, text) ← twoDigits? 23 text
      let (minute, text) ← twoDigits? 59 ((Text.mark? [':'] text).getD text)
      let seconds := hour * 3600 + minute * 60
      if !text.isEmpty then none
      else if sign = '+' then return some seconds
      else if sign = '-' || sign = '−' then return some (-seconds)
      else none

/-- The midnight at which a date starts. -/
def ofDate (date : Date) : Timestamp :=
  ⟨date.toDays * microsPerDay, none⟩

def ofIso? (text : List Char) : Option Timestamp := do
  let (date, text) ← (Date.read text).toOption
  let text ← Text.mark? ['T', 't', ' ', '_'] text
  let (hour, text) ← twoDigits? 23 text
  let text ← Text.mark? [':'] text
  let (minute, text) ← twoDigits? 59 text
  let (micros, text) ← readSeconds? text
  let offset ← readOffset? text
  return ⟨(ofDate date).micros + (hour * 3600 + minute * 60) * 1000000 + micros, offset⟩

/-- The bound of a whole count in a text, two to the power of 63. -/
def countBound : Nat := 9223372036854775808

/-- The whole count that a text denotes. -/
def wholeCount? (text : List Char) : Option Int :=
  let (negative, digits) := Decimal.splitSign text
  let n := Decimal.ofDigits digits
  if digits.isEmpty || !digits.all Decimal.isDigit || countBound ≤ n then none
  else some (if negative then -n else n)

/-- The count with a point that a text denotes. -/
def pointedCount? (text : List Char) : Option Decimal :=
  let (negative, text) := Decimal.splitSign text
  let whole := text.takeWhile (· != '.')
  let fraction := (text.dropWhile (· != '.')).drop 1
  let digits := whole ++ fraction
  if digits.length + 1 = text.length && !digits.isEmpty && digits.all Decimal.isDigit then
    some (Decimal.rounded ⟨negative, Decimal.ofDigits digits, -fraction.length⟩)
  else none

/-- Reads a text that is a date and nothing else. -/
def ofDateText (text : List Char) : Except TimeFault Timestamp := do
  let (date, rest) ← Date.read text
  if rest.isEmpty then return ofDate date else throw .extraText

/-- Reads a text that is no time in the ISO form. -/
def ofPlainText (text : List Char) : Except TimeFault Timestamp :=
  match wholeCount? text with
  | some count => ofUnix count
  | none =>
      match pointedCount? text with
      | none => ofDateText text
      | some count =>
          match ofUnixDecimal count with
          | .ok time => .ok time
          | .error _ => ofDateText text

/-- Reads a time, a count or a date. A text that is none of them has the fault of a date, and a
whole count out of range that of a count. -/
def ofText (text : String) : Except TimeFault Timestamp :=
  match ofIso? text.toList with
  | some time => .ok time
  | none => ofPlainText text.toList

end Timestamp

end Sitewright
