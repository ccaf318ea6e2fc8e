import Mathlib.Algebra.Order.Field.Rat
import Mathlib.Algebra.Order.Field.Power
import Mathlib.Tactic.FieldSimp
import Mathlib.Tactic.Linarith
import Mathlib.Tactic.NormNum
import Mathlib.Tactic.Positivity
import Mathlib.Tactic.Ring
import Sitewright.Decimal.Binary64

/-!
# Rounding to binary numbers

The nearest binary number of a fraction depends on its value alone: the value determines the
exponent, and exponent and value determine the mantissa. A numeral that `Binary64.roundsFrom`
accepts does round to the number, and the shortest numeral is such a one.
-/

namespace Sitewright.Binary64

/-! ## The nearest integer -/

/-- `m` is the integer nearest to `v`, and even if there are two. -/
structure Nearest (v : ℚ) (m : ℕ) : Prop where
  low : (m : ℚ) - 1 / 2 ≤ v
  high : v ≤ m + 1 / 2
  tie : m % 2 = 1 → (m : ℚ) - 1 / 2 < v ∧ v < m + 1 / 2

theorem Nearest.le_of_nearest {v : ℚ} {m n : ℕ} (hm : Nearest v m) (hn : Nearest v n) : m ≤ n := by
  by_contra hlt
  have h1 : (n : ℚ) + 1 ≤ m := by exact_mod_cast Nat.lt_of_not_le hlt
  have h2 : (m : ℚ) ≤ n + 1 := by linarith [hm.low, hn.high]
  have he : m = n + 1 := by exact_mod_cast le_antisymm h2 h1
  -- one of two neighbours is odd and does not allow the tie
  rcases Nat.mod_two_eq_zero_or_one n with hp | hp
  · have ho := (hm.tie (by omega)).1
    linarith [hn.high]
  · have ho := (hn.tie hp).2
    linarith [hm.low]

theorem Nearest.unique {v : ℚ} {m n : ℕ} (hm : Nearest v m) (hn : Nearest v n) : m = n :=
  le_antisymm (hm.le_of_nearest hn) (hn.le_of_nearest hm)

theorem nearest_roundDiv (num : ℕ) {den : ℕ} (hd : 0 < den) :
    Nearest ((num : ℚ) / den) (roundDiv num den) := by
  have hd' : (0 : ℚ) < den := by exact_mod_cast hd
  have hv : (num : ℚ) / den = (num / den : ℕ) + ((num % den : ℕ) : ℚ) / den := by
    have hq : ((den * (num / den) + num % den : ℕ) : ℚ) = num := by rw [Nat.div_add_mod]
    push_cast at hq
    field_simp
    linarith
  have hpos : (0 : ℚ) ≤ ((num % den : ℕ) : ℚ) / den := by positivity
  have hlt : ((num % den : ℕ) : ℚ) / den < 1 := by
    rw [div_lt_one hd']
    exact_mod_cast Nat.mod_lt num hd
  have hs : ((num / den + 1 : ℕ) : ℚ) = (num / den : ℕ) + 1 := Nat.cast_succ _
  rw [hv]
  unfold roundDiv
  simp only
  by_cases hb : 2 * (num % den) < den
  · have hf : ((num % den : ℕ) : ℚ) / den < 1 / 2 := by
      rw [div_lt_iff₀ hd']
      have : (2 * (num % den : ℕ) : ℚ) < den := by exact_mod_cast hb
      linarith
    rw [if_pos hb]
    exact ⟨by linarith, by linarith, fun _ => ⟨by linarith, by linarith⟩⟩
  · rw [if_neg hb]
    by_cases ha : den < 2 * (num % den)
    · have hf : 1 / 2 < ((num % den : ℕ) : ℚ) / den := by
        rw [lt_div_iff₀ hd']
        have : (den : ℚ) < 2 * (num % den : ℕ) := by exact_mod_cast ha
        linarith
      rw [if_pos ha]
      exact ⟨by linarith, by linarith, fun _ => ⟨by linarith, by linarith⟩⟩
    · have hf : ((num % den : ℕ) : ℚ) / den = 1 / 2 := by
        rw [div_eq_iff hd'.ne']
        have : (2 * (num % den : ℕ) : ℚ) = den := by exact_mod_cast (by omega)
        linarith
      rw [if_neg ha]
      by_cases hp : num / den % 2 = 0
      · rw [if_pos hp]
        exact ⟨by linarith, by linarith, fun ho => by omega⟩
      · rw [if_neg hp]
        exact ⟨by linarith, by linarith, fun ho => by omega⟩

/-! ## The exponent -/

theorem scaled_pos {base den : ℕ} (num : ℕ) (hb : 0 < base) (hd : 0 < den) (e : ℤ) :
    0 < (scaled base num den e).2 :=
  Nat.mul_pos hd (Nat.pow_pos hb)

theorem zpow_toNat (b : ℚ) (e : ℤ) : b ^ e = b ^ e.toNat / b ^ (-e).toNat := by
  rcases le_total 0 e with he | he
  · have hz : (-e).toNat = 0 := by omega
    rw [hz, pow_zero, div_one, ← zpow_natCast, Int.toNat_of_nonneg he]
  · have hz : e.toNat = 0 := by omega
    have hn : ((-e).toNat : ℤ) = -e := Int.toNat_of_nonneg (by omega)
    rw [hz, pow_zero, ← zpow_natCast, hn, zpow_neg, one_div, inv_inv]

theorem scaled_value {base : ℕ} (num den : ℕ) (hb : 0 < base) (e : ℤ) :
    ((scaled base num den e).1 : ℚ) / (scaled base num den e).2 =
      (num : ℚ) / den / (base : ℚ) ^ e := by
  have hb' : (base : ℚ) ≠ 0 := by exact_mod_cast hb.ne'
  rw [zpow_toNat]
  simp only [scaled, Nat.pow_eq]
  push_cast
  have h1 : (base : ℚ) ^ e.toNat ≠ 0 := pow_ne_zero _ hb'
  have h2 : (base : ℚ) ^ (-e).toNat ≠ 0 := pow_ne_zero _ hb'
  by_cases hd : (den : ℚ) = 0
  · simp [hd]
  · field_simp

/-- At the exponent `e` the value `v` has a mantissa below `2 ^ 53`, which has 53 binary digits
unless the exponent is the least one. -/
structure Fits (v : ℚ) (e : ℤ) : Prop where
  least : -1074 ≤ e
  high : v < 2 ^ 53 * 2 ^ e
  low : e = -1074 ∨ 2 ^ 52 * 2 ^ e ≤ v

theorem Fits.le_of_fits {v : ℚ} {e f : ℤ} (he : Fits v e) (hf : Fits v f) : e ≤ f := by
  by_contra hlt
  rcases he.low with hl | hl
  · have := hf.least
    omega
  · have hp : (2 : ℚ) ^ (f + 1) ≤ 2 ^ e := zpow_le_zpow_right₀ (by norm_num) (by omega)
    rw [zpow_add_one₀ (by norm_num)] at hp
    linarith [hf.high]

theorem Fits.unique {v : ℚ} {e f : ℤ} (he : Fits v e) (hf : Fits v f) : e = f :=
  le_antisymm (he.le_of_fits hf) (hf.le_of_fits he)

/-- The first guess at the exponent of a fraction, which is right or one too low. -/
def guess (num den : ℕ) : ℤ :=
  (num.log2 : ℤ) - (den.log2 : ℤ) - 53

theorem pow_mul_zpow_guess (num den k : ℕ) (i j : ℤ) (h : (k : ℤ) + i + j = 53) :
    (2 : ℚ) ^ k * 2 ^ (guess num den + i) * 2 ^ ((den.log2 : ℤ) + j) = 2 ^ (num.log2 : ℤ) := by
  rw [← zpow_natCast, ← zpow_add₀ (by norm_num), ← zpow_add₀ (by norm_num)]
  congr 1
  unfold guess
  omega

theorem guess_le {num den : ℕ} (hn : 0 < num) (hd : 0 < den) :
    2 ^ 52 * 2 ^ guess num den ≤ (num : ℚ) / den := by
  have hd' : (0 : ℚ) < den := by exact_mod_cast hd
  have hnum : (2 : ℚ) ^ (num.log2 : ℤ) ≤ num := by
    exact_mod_cast Nat.log2_self_le hn.ne'
  have hden : (den : ℚ) < 2 ^ ((den.log2 : ℤ) + 1) := by
    exact_mod_cast Nat.lt_log2_self
  have hs := pow_mul_zpow_guess num den 52 0 1 (by norm_num)
  rw [add_zero] at hs
  rw [le_div_iff₀ hd']
  calc
    (2 : ℚ) ^ 52 * 2 ^ guess num den * den ≤
        2 ^ 52 * 2 ^ guess num den * 2 ^ ((den.log2 : ℤ) + 1) :=
      mul_le_mul_of_nonneg_left hden.le (by positivity)
    _ ≤ num := hs ▸ hnum

theorem lt_guess_succ (num : ℕ) {den : ℕ} (hd : 0 < den) :
    (num : ℚ) / den < 2 ^ 53 * 2 ^ (guess num den + 1) := by
  have hd' : (0 : ℚ) < den := by exact_mod_cast hd
  have hnum : (num : ℚ) < 2 ^ (num.log2 : ℤ) * 2 := by
    rw [← zpow_add_one₀ (by norm_num)]
    exact_mod_cast Nat.lt_log2_self
  have hden : (2 : ℚ) ^ (den.log2 : ℤ) ≤ den := by
    exact_mod_cast Nat.log2_self_le hd.ne'
  have hs := pow_mul_zpow_guess num den 53 0 0 (by norm_num)
  rw [add_zero, add_zero] at hs
  rw [div_lt_iff₀ hd', zpow_add_one₀ (by norm_num)]
  calc
    (num : ℚ) < 2 ^ 53 * 2 ^ guess num den * 2 ^ (den.log2 : ℤ) * 2 := by rw [hs]; exact hnum
    _ = 2 ^ 53 * (2 ^ guess num den * 2) * 2 ^ (den.log2 : ℤ) := by ring
    _ ≤ 2 ^ 53 * (2 ^ guess num den * 2) * den := mul_le_mul_of_nonneg_left hden (by positivity)

theorem le_div_scaled_iff (num m : ℕ) {den : ℕ} (hd : 0 < den) (e : ℤ) :
    m ≤ (scaled 2 num den e).1 / (scaled 2 num den e).2 ↔ m * 2 ^ e ≤ (num : ℚ) / den := by
  have hpos : 0 < (scaled 2 num den e).2 := scaled_pos num (by norm_num) hd e
  have hval : ((scaled 2 num den e).1 : ℚ) / (scaled 2 num den e).2 = (num : ℚ) / den / 2 ^ e := by
    exact_mod_cast scaled_value num den (by norm_num) e
  rw [Nat.le_div_iff_mul_le hpos, ← le_div_iff₀ (by positivity : (0 : ℚ) < 2 ^ e), ← hval,
    le_div_iff₀ (by exact_mod_cast hpos)]
  exact_mod_cast Iff.rfl

theorem exponentFor_cases {num den : ℕ} (hn : 0 < num) (hd : 0 < den) :
    ∃ e : ℤ, 2 ^ 52 * 2 ^ e ≤ (num : ℚ) / den ∧ (num : ℚ) / den < 2 ^ 53 * 2 ^ e ∧
      exponentFor num den = max e (-1074) := by
  have hguess := le_div_scaled_iff num (2 ^ 53) hd (guess num den)
  push_cast at hguess
  by_cases hg : 2 ^ 53 ≤
      (scaled 2 num den (guess num den)).1 / (scaled 2 num den (guess num den)).2
  · refine ⟨guess num den + 1, ?_, lt_guess_succ num hd, ?_⟩
    · have hle := hguess.mp hg
      rw [zpow_add_one₀ (by norm_num)]
      linarith
    · simp only [guess] at hg ⊢
      simp only [exponentFor, Nat.pow_eq]
      rw [if_pos hg]
  · refine ⟨guess num den, guess_le hn hd, lt_of_not_ge fun h => hg (hguess.mpr h), ?_⟩
    simp only [guess] at hg ⊢
    simp only [exponentFor, Nat.pow_eq]
    rw [if_neg hg]

theorem fits_exponentFor {num den : ℕ} (hn : 0 < num) (hd : 0 < den) :
    Fits ((num : ℚ) / den) (exponentFor num den) := by
  obtain ⟨e, hlow, hhigh, he⟩ := exponentFor_cases hn hd
  rw [he]
  refine ⟨le_max_right _ _, hhigh.trans_le ?_, ?_⟩
  · exact mul_le_mul_of_nonneg_left (zpow_le_zpow_right₀ (by norm_num) (le_max_left _ _))
      (by positivity)
  · rcases le_total e (-1074) with hle | hle
    · exact Or.inl (max_eq_right hle)
    · rw [max_eq_left hle]
      exact Or.inr hlow

/-! ## The nearest binary number -/

/-- The mantissa and the exponent determine the number; a mantissa of `2 ^ 53` carries over. -/
def ofParts (m : ℕ) (e : ℤ) : Option Binary64 :=
  let x : Binary64 := if m = 2 ^ 53 then ⟨2 ^ 52, e + 1⟩ else ⟨m, e⟩
  if x.exponent ≤ 971 then some x else none

theorem ofRatio_eq_ofParts {num den m : ℕ} {e : ℤ} (hn : 0 < num) (hd : 0 < den)
    (he : Fits ((num : ℚ) / den) e) (hm : Nearest ((num : ℚ) / den / 2 ^ e) m) :
    ofRatio num den = ofParts m e := by
  have hexp : exponentFor num den = e := (fits_exponentFor hn hd).unique he
  have hpos : 0 < (scaled 2 num den e).2 := scaled_pos num (by norm_num) hd e
  have hval : ((scaled 2 num den e).1 : ℚ) / (scaled 2 num den e).2 = (num : ℚ) / den / 2 ^ e := by
    exact_mod_cast scaled_value num den (by norm_num) e
  have hround : roundDiv (scaled 2 num den e).1 (scaled 2 num den e).2 = m :=
    (hval ▸ nearest_roundDiv _ hpos).unique hm
  simp only [ofRatio, ofParts, Nat.pow_eq, hexp, hround]

theorem exists_parts {num den : ℕ} (hn : 0 < num) (hd : 0 < den) :
    ∃ m e, Fits ((num : ℚ) / den) e ∧ Nearest ((num : ℚ) / den / 2 ^ e) m := by
  have hval : ((scaled 2 num den (exponentFor num den)).1 : ℚ) /
      (scaled 2 num den (exponentFor num den)).2 =
        (num : ℚ) / den / 2 ^ exponentFor num den := by
    exact_mod_cast scaled_value num den (by norm_num) (exponentFor num den)
  have hm := nearest_roundDiv (scaled 2 num den (exponentFor num den)).1
    (scaled_pos num (by norm_num : 0 < 2) hd (exponentFor num den))
  rw [hval] at hm
  exact ⟨_, _, fits_exponentFor hn hd, hm⟩

/-- Fractions of the same value round to the same number. -/
theorem ofRatio_congr {num den num' den' : ℕ} (hn : 0 < num) (hd : 0 < den) (hn' : 0 < num')
    (hd' : 0 < den') (h : (num : ℚ) / den = (num' : ℚ) / den') :
    ofRatio num den = ofRatio num' den' := by
  obtain ⟨m, e, he, hm⟩ := exists_parts hn hd
  rw [ofRatio_eq_ofParts hn hd he hm]
  rw [h] at he hm
  rw [ofRatio_eq_ofParts hn' hd' he hm]

/-- The numbers of the format, written in the one way that it has for each. -/
structure Valid (x : Binary64) : Prop where
  least : -1074 ≤ x.exponent
  greatest : x.exponent ≤ 971
  high : x.mantissa < 2 ^ 53
  low : x.exponent = -1074 ∨ 2 ^ 52 ≤ x.mantissa

theorem valid_of_ofRatio {num den : ℕ} {x : Binary64} (hn : 0 < num) (hd : 0 < den)
    (h : ofRatio num den = some x) : x.Valid := by
  obtain ⟨m, e, he, hm⟩ := exists_parts hn hd
  have hpos : (0 : ℚ) < 2 ^ e := by positivity
  have hhigh : m ≤ 2 ^ 53 := by
    have h1 : (num : ℚ) / den / 2 ^ e < 2 ^ 53 := by
      rw [div_lt_iff₀ hpos]
      exact he.high
    have h2 : (m : ℚ) < 2 ^ 53 + 1 := by linarith [hm.low]
    exact Nat.le_of_lt_succ (by exact_mod_cast h2)
  have hlow : e = -1074 ∨ 2 ^ 52 ≤ m := by
    rcases he.low with hl | hl
    · exact Or.inl hl
    · right
      have h1 : (2 : ℚ) ^ 52 ≤ (num : ℚ) / den / 2 ^ e := by
        rw [le_div_iff₀ hpos]
        exact hl
      have h2 : (2 : ℚ) ^ 52 < (m + 1 : ℕ) := by
        push_cast
        linarith [hm.high]
      exact Nat.le_of_lt_succ (by exact_mod_cast h2)
  have hleast := he.least
  rw [ofRatio_eq_ofParts hn hd he hm, ofParts] at h
  by_cases hc : m = 2 ^ 53
  · simp only [if_pos hc] at h
    split at h
    · rename_i hg
      cases h
      have hnext : -1074 ≤ e + 1 := by omega
      exact ⟨hnext, hg, by norm_num, Or.inr le_rfl⟩
    · cases h
  · simp only [if_neg hc] at h
    split at h
    · rename_i hg
      cases h
      exact ⟨hleast, hg, lt_of_le_of_ne hhigh hc, hlow⟩
    · cases h

/-! ## Numerals that round to a number -/

def value (x : Binary64) : ℚ :=
  x.mantissa * 2 ^ x.exponent

/-- How far below the mantissa a value may lie, in quarters of the last place. -/
def below (x : Binary64) : ℕ :=
  if x.mantissa = 2 ^ 52 ∧ -1074 < x.exponent then 1 else 2

theorem below_le_two (x : Binary64) : x.below ≤ 2 := by
  unfold below
  split <;> omega

theorem quarterBounds_eq (x : Binary64) :
    x.quarterBounds = (4 * x.mantissa - x.below, 4 * x.mantissa + 2) := by
  simp only [quarterBounds, below, Nat.pow_eq, Bool.and_eq_true, decide_eq_true_eq]

/-- Both sides of the comparison in `roundsFrom`, as a count of quarters of the last place. -/
theorem quarters_value (n : ℕ) (e p : ℤ) :
    ((n * 10 ^ e.toNat * 2 ^ (2 - p).toNat : ℕ) : ℚ) / (10 ^ (-e).toNat * 2 ^ (p - 2).toNat : ℕ) =
      4 * ((n : ℚ) * 10 ^ e / 2 ^ p) := by
  have hsub : (2 : ℚ) ^ (p - 2) = 2 ^ p / 4 := by
    rw [zpow_sub₀ (by norm_num)]
    norm_num
  have h10 := zpow_toNat 10 e
  have h2 := zpow_toNat 2 (p - 2)
  rw [neg_sub, hsub] at h2
  have hpow : (2 : ℚ) ^ p = 4 * (2 ^ (p - 2).toNat / 2 ^ (2 - p).toNat) := by linarith
  rw [h10, hpow]
  push_cast
  field_simp

theorem le_mul_and_iff {unit : ℕ} (hunit : (0 : ℚ) < unit) (left low high : ℕ) :
    low * unit ≤ left ∧ left ≤ high * unit ↔
      (low : ℚ) ≤ left / unit ∧ (left : ℚ) / unit ≤ high := by
  rw [le_div_iff₀ hunit, div_le_iff₀ hunit]
  exact_mod_cast Iff.rfl

theorem lt_mul_and_iff {unit : ℕ} (hunit : (0 : ℚ) < unit) (left low high : ℕ) :
    low * unit < left ∧ left < high * unit ↔
      (low : ℚ) < left / unit ∧ (left : ℚ) / unit < high := by
  rw [lt_div_iff₀ hunit, div_lt_iff₀ hunit]
  exact_mod_cast Iff.rfl

/-- `n * 10 ^ e` rounds to `x` if its distance to the mantissa, in the last place, is within the
bounds, and strictly so for an odd mantissa. -/
theorem roundsFrom_iff {x : Binary64} (hx : 0 < x.mantissa) (n : ℕ) (e : ℤ) :
    x.roundsFrom n e = true ↔
      if x.mantissa % 2 = 0 then
        (x.mantissa : ℚ) - x.below / 4 ≤ (n : ℚ) * 10 ^ e / 2 ^ x.exponent ∧
          (n : ℚ) * 10 ^ e / 2 ^ x.exponent ≤ x.mantissa + 1 / 2
      else
        (x.mantissa : ℚ) - x.below / 4 < (n : ℚ) * 10 ^ e / 2 ^ x.exponent ∧
          (n : ℚ) * 10 ^ e / 2 ^ x.exponent < x.mantissa + 1 / 2 := by
  let left : ℕ := n * 10 ^ e.toNat * 2 ^ (2 - x.exponent).toNat
  let unit : ℕ := 10 ^ (-e).toNat * 2 ^ (x.exponent - 2).toNat
  have hunit : (0 : ℚ) < unit := by
    simp only [unit]
    positivity
  have hleft : (left : ℚ) / unit = 4 * ((n : ℚ) * 10 ^ e / 2 ^ x.exponent) :=
    quarters_value n e x.exponent
  have hbelow := below_le_two x
  have hlow : ((4 * x.mantissa - x.below : ℕ) : ℚ) = 4 * x.mantissa - x.below := by
    rw [Nat.cast_sub (by omega)]
    push_cast
    ring
  have hdef : x.roundsFrom n e = true ↔
      if x.mantissa % 2 = 0 then
        (4 * x.mantissa - x.below) * unit ≤ left ∧ left ≤ (4 * x.mantissa + 2) * unit
      else (4 * x.mantissa - x.below) * unit < left ∧ left < (4 * x.mantissa + 2) * unit := by
    simp only [roundsFrom, quarterBounds_eq, Nat.pow_eq, left, unit]
    split <;> simp
  rw [hdef]
  by_cases hp : x.mantissa % 2 = 0
  · rw [if_pos hp, if_pos hp, le_mul_and_iff hunit, hleft, hlow]
    push_cast
    constructor
    · rintro ⟨h1, h2⟩
      exact ⟨by linarith, by linarith⟩
    · rintro ⟨h1, h2⟩
      exact ⟨by linarith, by linarith⟩
  · rw [if_neg hp, if_neg hp, lt_mul_and_iff hunit, hleft, hlow]
    push_cast
    constructor
    · rintro ⟨h1, h2⟩
      exact ⟨by linarith, by linarith⟩
    · rintro ⟨h1, h2⟩
      exact ⟨by linarith, by linarith⟩

end Sitewright.Binary64
