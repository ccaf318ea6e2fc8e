/-!
# Decimal numerals

A decimal numeral is a sign, a coefficient and a power of ten. `Decimal.normal` moves the trailing
zeros of the coefficient into the exponent, so that one number has one normal numeral (zero has
two, one for each sign). Numerals of more than 309 digits before the point stand for infinity, but
for one, which stands for what is no number.
-/

namespace Sitewright

/-- The number `± coefficient * 10 ^ exponent`. -/
structure Decimal where
  negative : Bool
  coefficient : Nat
  exponent : Int
  deriving DecidableEq, Repr, Inhabited

namespace Decimal

/-- The digits of `n`, the last one first. -/
def digitsUp (n : Nat) : List Nat :=
  if h : n < 10 then [n] else n % 10 :: digitsUp (n / 10)
termination_by n
decreasing_by omega

def digitChar (d : Nat) : Char :=
  Char.ofNat (48 + d)

/-- The decimal digits of `n`. -/
def natDigits (n : Nat) : List Char :=
  ((digitsUp n).map digitChar).reverse

def intDigits : Int → List Char
  | .ofNat n => natDigits n
  | .negSucc n => '-' :: natDigits (n + 1)

def isDigit (c : Char) : Bool :=
  '0' ≤ c && c ≤ '9'

/-- A sign in front of a text, and the text after it. -/
def splitSign : List Char → Bool × List Char
  | '-' :: rest => (true, rest)
  | '+' :: rest => (false, rest)
  | text => (false, text)

/-- The most digits that an integer may have when it is read. -/
def maxDigits : Nat := 4300

/-- The number that a row of digits stands for. -/
def ofDigits (digits : List Char) : Nat :=
  digits.foldl (fun n c => 10 * n + (c.toNat - 48)) 0

/-- Takes at most `fuel` zeros off the end of `n`. -/
def dropZeros : (fuel n : Nat) → Nat × Nat
  | 0, n => (n, 0)
  | fuel + 1, n =>
      if n % 10 = 0 then
        let (m, zeros) := dropZeros fuel (n / 10)
        (m, zeros + 1)
      else (n, 0)

def normal (x : Decimal) : Decimal :=
  if x.coefficient = 0 then ⟨x.negative, 0, 0⟩
  else
    let (m, zeros) := dropZeros (natDigits x.coefficient).length x.coefficient
    ⟨x.negative, m, x.exponent + zeros⟩

/-- A numeral above every binary number; it stands for infinity. -/
def infinite (negative : Bool) : Decimal :=
  ⟨negative, 1, 309⟩

/-- The numeral that stands for what is no number. -/
def nan : Decimal :=
  ⟨false, 0, 309⟩

/-- Whether a numeral has more than 309 digits before its point, which no finite binary number
has. -/
def isInfinite (x : Decimal) : Bool :=
  309 < x.exponent + (natDigits x.coefficient).length

end Decimal

end Sitewright
