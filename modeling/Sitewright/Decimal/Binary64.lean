import Sitewright.Decimal.Basic

/-!
# Binary floating point

`Binary64` holds the magnitudes of the finite numbers of the 64-bit binary format. `ofRatio` rounds
a fraction to the nearest of them, a tie to the even mantissa. `shortest` goes back to decimal: of
the numerals with the fewest digits that round to the given number, the one nearest to it.
`Decimal.rounded` joins the two, so a number read from a text is known by its shortest numeral, and
`Decimal.fraction` is the exact value of the binary number that a numeral stands for.
-/

namespace Sitewright

/-- The number `mantissa * 2 ^ exponent`, with `mantissa < 2 ^ 53` and `-1074 ≤ exponent ≤ 971`. -/
structure Binary64 where
  mantissa : Nat
  exponent : Int
  deriving DecidableEq, Repr

namespace Binary64

/-- The quotient rounded to the nearest natural number, a tie to the even one. -/
def roundDiv (num den : Nat) : Nat :=
  let q := num / den
  let twice := 2 * (num % den)
  if twice < den then q
  else if den < twice then q + 1
  else if q % 2 = 0 then q else q + 1

/-- `num / (den * base ^ e)` as a fraction. -/
def scaled (base num den : Nat) (e : Int) : Nat × Nat :=
  (num * Nat.pow base (-e).toNat, den * Nat.pow base e.toNat)

/-- The exponent of two at which the mantissa of `num / den` has 53 binary digits, but not below
the least exponent. -/
def exponentFor (num den : Nat) : Int :=
  let e : Int := (num.log2 : Int) - (den.log2 : Int) - 53
  let (n, d) := scaled 2 num den e
  max (if Nat.pow 2 53 ≤ n / d then e + 1 else e) (-1074)

def ofRatio (num den : Nat) : Option Binary64 :=
  let e := exponentFor num den
  let (n, d) := scaled 2 num den e
  let m := roundDiv n d
  let x : Binary64 := if m = Nat.pow 2 53 then ⟨Nat.pow 2 52, e + 1⟩ else ⟨m, e⟩
  if x.exponent ≤ 971 then some x else none

/-- The number as a fraction. -/
def ratio (x : Binary64) : Nat × Nat :=
  (x.mantissa * Nat.pow 2 x.exponent.toNat, Nat.pow 2 (-x.exponent).toNat)

/-- The binary number nearest to a fraction, as a fraction; zero if it is too large. -/
def nearest (num den : Nat) : Nat × Nat :=
  ((ofRatio num den).map ratio).getD (0, 1)

/-- The bounds of the numbers that round to `x`, in quarters of its last place. -/
def quarterBounds (x : Binary64) : Nat × Nat :=
  let below := if x.mantissa = Nat.pow 2 52 && -1074 < x.exponent then 1 else 2
  (4 * x.mantissa - below, 4 * x.mantissa + 2)

/-- Whether `n * 10 ^ e` rounds to `x`. -/
def roundsFrom (x : Binary64) (n : Nat) (e : Int) : Bool :=
  let (low, high) := x.quarterBounds
  let left := n * Nat.pow 10 e.toNat * Nat.pow 2 (2 - x.exponent).toNat
  let unit := Nat.pow 10 (-e).toNat * Nat.pow 2 (x.exponent - 2).toNat
  if x.mantissa % 2 = 0 then low * unit ≤ left && left ≤ high * unit
  else low * unit < left && left < high * unit

/-- The exponent of ten of the first digit of a number other than zero. -/
def leadingExponent (x : Binary64) : Int :=
  let (num, den) := x.ratio
  let guess := (((num.log2 : Int) - (den.log2 : Int)) * 30103).fdiv 100000 + 1
  let reaches (p : Int) : Bool :=
    let (n, d) := scaled 10 num den p
    d ≤ n
  if reaches guess then guess
  else if reaches (guess - 1) then guess - 1
  else guess - 2

/-- The best numeral with `digits` digits that rounds to `x`. -/
def numeral? (x : Binary64) (digits : Nat) : Option (Nat × Int) :=
  let e := x.leadingExponent - digits + 1
  let (num, den) := x.ratio
  let (n, d) := scaled 10 num den e
  let low := n / d
  let nearest := roundDiv n d
  let other := if nearest = low then low + 1 else low
  if x.roundsFrom nearest e then some (nearest, e)
  else if x.roundsFrom other e then some (other, e)
  else none

/-- All digits of the number, as a power of two below one is a power of five over one of ten. -/
def exact (x : Binary64) : Nat × Int :=
  (x.mantissa * Nat.pow 2 x.exponent.toNat * Nat.pow 5 (-x.exponent).toNat, min x.exponent 0)

/-- The best numeral with the fewest digits that rounds to `x`; seventeen digits are enough. -/
def shortest (x : Binary64) : Nat × Int :=
  if x.mantissa = 0 then (0, 0)
  else ((List.range 17).findSome? fun k => x.numeral? (k + 1)).getD x.exact

end Binary64

namespace Decimal

/-- The magnitude of a numeral as a fraction. -/
def ratio (x : Decimal) : Nat × Nat :=
  (x.coefficient * Nat.pow 10 x.exponent.toNat, Nat.pow 10 (-x.exponent).toNat)

/-- The shortest numeral of the binary number nearest to a fraction, infinity if it is too large. -/
def ofFraction (negative : Bool) (num den : Nat) : Decimal :=
  match Binary64.ofRatio num den with
  | some x =>
      let (n, e) := x.shortest
      normal ⟨negative, n, e⟩
  | none => infinite negative

/-- The shortest numeral of the binary number nearest to a numeral. -/
def rounded (x : Decimal) : Decimal :=
  let leading := x.exponent + (natDigits x.coefficient).length
  if x.coefficient = 0 || leading < -400 then ⟨x.negative, 0, 0⟩
  else if 400 < leading then infinite x.negative
  else
    let (num, den) := x.ratio
    ofFraction x.negative num den

/-- The magnitude of the nearest binary number as a fraction, zero for infinity. -/
def binaryRatio (x : Decimal) : Nat × Nat :=
  let (num, den) := x.ratio
  Binary64.nearest num den

/-- The nearest binary number as a fraction, zero for infinity. -/
def fraction (x : Decimal) : Int × Nat :=
  let (num, den) := x.binaryRatio
  (if x.negative then -num else num, den)

/-- The integer that the nearest binary number is, if it is one. -/
def toInt? (x : Decimal) : Option Int :=
  let (num, den) := x.fraction
  if x.isInfinite || num % den != 0 then none else some (num / den)

/-- The numeral of the number that is greater by one. -/
def succ (x : Decimal) : Decimal :=
  if x.isInfinite then x
  else
    let (num, den) := x.fraction
    let sum := num + den
    ofFraction (sum < 0) sum.natAbs den

end Decimal

end Sitewright
