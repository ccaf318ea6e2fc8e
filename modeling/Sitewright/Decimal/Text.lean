import Sitewright.Decimal.Basic

/-!
# The text of a decimal numeral

A numeral whose first digit stands for a power of ten from -4 to 15 is written positionally, with
at least one digit after the point. Any other is written with one digit before the point and an
exponent of at least two digits.
-/

namespace Sitewright.Decimal

/-- The digits of the coefficient around the point that stands after `whole` of them. -/
def positional (digits : List Char) (whole : Int) : List Char :=
  if whole ≤ 0 then '0' :: '.' :: List.replicate (-whole).toNat '0' ++ digits
  else
    let n := whole.toNat
    let padded := digits ++ List.replicate (n - digits.length) '0'
    padded.take n ++ '.' :: (if digits.length ≤ n then ['0'] else digits.drop n)

def scientific (digits : List Char) (power : Int) : List Char :=
  let fraction := digits.drop 1
  let exponent := natDigits power.natAbs
  digits.take 1 ++ (if fraction.isEmpty then [] else '.' :: fraction) ++
    'e' :: (if power < 0 then '-' else '+') ::
    (if exponent.length < 2 then '0' :: exponent else exponent)

def infinityText (negative : Bool) : List Char :=
  if negative then ['-', 'i', 'n', 'f'] else ['i', 'n', 'f']

def finiteText (x : Decimal) : List Char :=
  let digits := natDigits x.coefficient
  let power := if x.coefficient = 0 then 0 else x.exponent + digits.length - 1
  let body :=
    if -4 ≤ power && power < 16 then positional digits (power + 1) else scientific digits power
  if x.negative then '-' :: body else body

def text (x : Decimal) : List Char :=
  if x = nan then ['n', 'a', 'n']
  else if x.isInfinite then infinityText x.negative
  else x.finiteText

end Sitewright.Decimal
