import Sitewright.Decimal.Binary64
import Sitewright.Time.Calendar
import Sitewright.Time.Timestamp

/-!
# Counts of seconds

A time may be given as a count of seconds from 1970 on, in universal time. A count of more than
twenty thousand million is one of milliseconds. Only the years 0 to 9999 can be counted. A count
with a fraction is a binary number, so its microseconds are found by binary arithmetic: the whole
units, seconds or milliseconds, are taken off, and the rest is multiplied and then rounded, a half
upwards.
-/

namespace Sitewright.Timestamp

/-- Counts above this one are milliseconds. -/
def greatestSeconds : Nat := 20000000000

/-- The first second of the year 0. -/
def firstSecond : Int := -62167219200

/-- The last second of the year 9999. -/
def lastSecond : Int := 253402300799

def ofUnixMicros (micros : Int) : Except TimeFault Timestamp :=
  let second := micros / 1000000
  if second < firstSecond then .error .tooEarly
  else if lastSecond < second then .error .tooLate
  else .ok ⟨micros, some 0⟩

/-- The microseconds in a unit of a count. -/
def unitMicros (isLarge : Bool) : Nat :=
  if isLarge then 1000 else 1000000

/-- A fraction of a unit of so many microseconds, in microseconds. -/
def roundedMicros (unit num den : Nat) : Nat :=
  let (num, den) := Binary64.nearest num den
  let (num, den) := Binary64.nearest (unit * num) den
  (2 * num + den) / (2 * den)

def ofUnix (count : Int) : Except TimeFault Timestamp :=
  ofUnixMicros (count * unitMicros (greatestSeconds < count.natAbs))

def ofUnixDecimal (count : Decimal) : Except TimeFault Timestamp :=
  if count = .nan then .error .noNumber
  else if count.isInfinite then .error (if count.negative then .tooEarly else .tooLate)
  else
    let (num, den) := count.fraction
    let unit := unitMicros (greatestSeconds * den < num.natAbs)
    ofUnixMicros (num / den * unit + roundedMicros unit (num % den).toNat den)

end Sitewright.Timestamp
