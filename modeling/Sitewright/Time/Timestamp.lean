import Sitewright.Decimal.Basic
import Sitewright.Time.Calendar

/-!
# Timestamps

A timestamp is a clock reading to the microsecond, with or without the offset of its time zone.
`iso` writes it in the ISO form; the fraction of a second is left out when it is zero.
-/

namespace Sitewright

structure Timestamp where
  /-- Microseconds on the local clock from 1970-01-01T00:00:00 on. -/
  micros : Int
  /-- Seconds by which the local clock is ahead of universal time. -/
  offset : Option Int := none
  deriving DecidableEq, Repr, Inhabited

namespace Timestamp

/-- The decimal digits of `n`, filled up with zeros to `width`. -/
def padded (width : Nat) (n : Int) : List Char :=
  let digits := Decimal.natDigits n.toNat
  List.replicate (width - digits.length) '0' ++ digits

def microsPerDay : Int := 86400000000

def date (t : Timestamp) : Date :=
  Date.ofDays (t.micros / microsPerDay)

/-- Hour, minute and second of a count of seconds within a day. -/
def clock (seconds : Int) : Int × Int × Int :=
  (seconds / 3600, seconds / 60 % 60, seconds % 60)

def daySeconds (t : Timestamp) : Int :=
  t.micros % microsPerDay / 1000000

def isoFraction (micros : Int) : List Char :=
  if micros = 0 then [] else '.' :: padded 6 micros

def isoOffset : Option Int → List Char
  | none => []
  | some offset =>
      let (hour, minute, second) := clock offset.natAbs
      (if offset < 0 then '-' else '+') :: padded 2 hour ++ ':' :: padded 2 minute ++
        (if second = 0 then [] else ':' :: padded 2 second)

def isoChars (t : Timestamp) : List Char :=
  let date := t.date
  let (hour, minute, second) := clock t.daySeconds
  padded 4 date.year ++ '-' :: padded 2 date.month ++ '-' :: padded 2 date.day ++
    'T' :: padded 2 hour ++ ':' :: padded 2 minute ++ ':' :: padded 2 second ++
    isoFraction (t.micros % 1000000) ++ isoOffset t.offset

def iso (t : Timestamp) : String :=
  String.ofList t.isoChars

/-- Date and time of day as digits, two for each part but the year, which has as many as it
needs. -/
def compact (t : Timestamp) : String :=
  let date := t.date
  let (hour, minute, second) := clock t.daySeconds
  String.ofList (Decimal.intDigits date.year ++ padded 2 date.month ++ padded 2 date.day ++
    padded 2 hour ++ padded 2 minute ++ padded 2 second)

/-- The instant that a timestamp denotes, one without an offset being taken as universal time. -/
def instant (t : Timestamp) : Int :=
  t.micros - t.offset.getD 0 * 1000000

end Timestamp

end Sitewright
