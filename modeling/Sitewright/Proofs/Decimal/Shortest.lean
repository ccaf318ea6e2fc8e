import Sitewright.Proofs.Decimal.Digits
import Sitewright.Proofs.Decimal.Rounding

/-!
# Shortest numerals

The shortest numeral of a binary number rounds to that number. So a numeral that has been rounded
once stays what it is, and numerals of the same sign and magnitude round to the same one.
-/

namespace Sitewright

namespace Binary64

variable {x : Binary64}

theorem ofParts_eq_some (hx : x.Valid) : ofParts x.mantissa x.exponent = some x := by
  have hm : ¬ x.mantissa = 2 ^ 53 := hx.high.ne
  have hg : (⟨x.mantissa, x.exponent⟩ : Binary64).exponent ≤ 971 := hx.greatest
  simp only [ofParts, if_neg hm]
  rw [if_pos hg]

/-- A numeral just below the least mantissa of an exponent is rounded up to it. -/
theorem ofParts_carry (hx : x.Valid) (hm : x.mantissa = 2 ^ 52) :
    ofParts (2 ^ 53) (x.exponent - 1) = some x := by
  obtain ⟨m, e⟩ := x
  simp only at hm
  subst hm
  have hg : (⟨2 ^ 52, e⟩ : Binary64).exponent ≤ 971 := hx.greatest
  simp only [ofParts, if_true, sub_add_cancel]
  rw [if_pos hg]

/-- A value in the range of the exponent rounds to the nearest mantissa. -/
theorem ofRatio_of_nearest (hx : x.Valid) {num den : ℕ} (hn : 0 < num) (hd : 0 < den) {w : ℚ}
    (hw : (num : ℚ) / den = w * 2 ^ x.exponent) (hfit : x.exponent = -1074 ∨ 2 ^ 52 ≤ w)
    (hnear : Nearest w x.mantissa) : ofRatio num den = some x := by
  have hp : (0 : ℚ) < 2 ^ x.exponent := by positivity
  have hmant : (x.mantissa : ℚ) + 1 ≤ 2 ^ 53 := by exact_mod_cast hx.high
  have hf : Fits ((num : ℚ) / den) x.exponent := by
    refine ⟨hx.least, ?_, ?_⟩
    · rw [hw, mul_lt_mul_iff_left₀ hp]
      linarith [hnear.high]
    · rw [hw, mul_le_mul_iff_left₀ hp]
      exact hfit
  have hnear' : Nearest ((num : ℚ) / den / 2 ^ x.exponent) x.mantissa := by
    rw [hw, mul_div_cancel_right₀ _ hp.ne']
    exact hnear
  rw [ofRatio_eq_ofParts hn hd hf hnear', ofParts_eq_some hx]

/-- In the gap below the least mantissa the last place is half as large, and a value that is near
enough is rounded up. -/
theorem ofRatio_of_gap (hx : x.Valid) {num den : ℕ} (hn : 0 < num) (hd : 0 < den) {w : ℚ}
    (hw : (num : ℚ) / den = w * 2 ^ x.exponent) (hexp : -1074 < x.exponent)
    (hm : x.mantissa = 2 ^ 52) (hlow : 2 ^ 52 - 1 / 4 ≤ w) (hhigh : w < 2 ^ 52) :
    ofRatio num den = some x := by
  have hhalf : (2 : ℚ) ^ (x.exponent - 1) = 2 ^ x.exponent / 2 := by
    rw [zpow_sub_one₀ (by norm_num), div_eq_mul_inv]
  have hp : (0 : ℚ) < 2 ^ (x.exponent - 1) := by positivity
  have hw' : (num : ℚ) / den = 2 * w * 2 ^ (x.exponent - 1) := by
    rw [hw, hhalf]
    ring
  have hf : Fits ((num : ℚ) / den) (x.exponent - 1) := by
    refine ⟨by omega, ?_, Or.inr ?_⟩
    · rw [hw', mul_lt_mul_iff_left₀ hp]
      linarith
    · rw [hw', mul_le_mul_iff_left₀ hp]
      linarith
  have hnear : Nearest ((num : ℚ) / den / 2 ^ (x.exponent - 1)) (2 ^ 53) := by
    rw [hw', mul_div_cancel_right₀ _ hp.ne']
    exact ⟨by push_cast; linarith, by push_cast; linarith, by omega⟩
  rw [ofRatio_eq_ofParts hn hd hf hnear, ofParts_carry hx hm]

theorem ofRatio_of_roundsFrom (hx : x.Valid) (hpos : 0 < x.mantissa) {n : ℕ} {e : ℤ}
    (h : x.roundsFrom n e = true) {num den : ℕ} (hn : 0 < num) (hd : 0 < den)
    (hv : (num : ℚ) / den = n * 10 ^ e) : ofRatio num den = some x := by
  have hp : (0 : ℚ) < 2 ^ x.exponent := by positivity
  have hbounds := (roundsFrom_iff hpos n e).mp h
  rw [← hv] at hbounds
  have hbelow : (x.below : ℚ) ≤ 2 := by exact_mod_cast x.below_le_two
  let w : ℚ := (num : ℚ) / den / 2 ^ x.exponent
  have hw : (num : ℚ) / den = w * 2 ^ x.exponent := (div_mul_cancel₀ _ hp.ne').symm
  have hlow : (x.mantissa : ℚ) - x.below / 4 ≤ w := by
    split at hbounds
    · exact hbounds.1
    · exact hbounds.1.le
  have hhigh : w ≤ x.mantissa + 1 / 2 := by
    split at hbounds
    · exact hbounds.2
    · exact hbounds.2.le
  by_cases hfit : x.exponent = -1074 ∨ 2 ^ 52 ≤ w
  · have hnear : Nearest w x.mantissa := by
      refine ⟨by linarith, hhigh, ?_⟩
      intro ho
      rw [if_neg (by omega)] at hbounds
      exact ⟨by linarith [hbounds.1], hbounds.2⟩
    exact ofRatio_of_nearest hx hn hd hw hfit hnear
  · obtain ⟨hleast, hgap⟩ := not_or.mp hfit
    have hexp : -1074 < x.exponent := lt_of_le_of_ne hx.least (Ne.symm hleast)
    have hgap' : w < 2 ^ 52 := lt_of_not_ge hgap
    have hm : x.mantissa = 2 ^ 52 := by
      have h1 : (x.mantissa : ℚ) < 2 ^ 52 + 1 := by linarith
      have h2 : x.mantissa < 2 ^ 52 + 1 := by exact_mod_cast h1
      have h3 := hx.low.resolve_left hleast
      omega
    have hm' : (x.mantissa : ℚ) = 2 ^ 52 := by exact_mod_cast hm
    rw [below, if_pos ⟨hm, hexp⟩, hm'] at hlow
    push_cast at hlow
    exact ofRatio_of_gap hx hn hd hw hexp hm hlow hgap'

theorem exact_value (x : Binary64) : (x.exact.1 : ℚ) * 10 ^ x.exact.2 = x.value := by
  simp only [exact, value, Nat.pow_eq]
  push_cast
  rw [zpow_toNat 2 x.exponent, zpow_toNat 10 (min x.exponent 0)]
  have h1 : (min x.exponent 0).toNat = 0 := by omega
  have h2 : (-(min x.exponent 0)).toNat = (-x.exponent).toNat := by omega
  have h10 : (10 : ℚ) = 2 * 5 := by norm_num
  rw [h1, h2, h10, mul_pow]
  field_simp
  rw [mul_pow]
  ring

theorem roundsFrom_exact (hx : 0 < x.mantissa) :
    x.roundsFrom x.exact.1 x.exact.2 = true := by
  have hp : (2 : ℚ) ^ x.exponent ≠ 0 := by positivity
  have hb : (0 : ℚ) < x.below := by
    have : 0 < x.below := by
      unfold below
      split <;> omega
    exact_mod_cast this
  rw [roundsFrom_iff hx, exact_value, value, mul_div_cancel_right₀ _ hp]
  split
  · exact ⟨by linarith, by linarith⟩
  · exact ⟨by linarith, by linarith⟩

theorem roundsFrom_of_numeral? {digits n : ℕ} {e : ℤ} (h : x.numeral? digits = some (n, e)) :
    x.roundsFrom n e = true := by
  have key (a b : ℕ) (f : ℤ)
      (h : (if x.roundsFrom a f then some (a, f)
        else if x.roundsFrom b f then some (b, f) else none) = some (n, e)) :
      x.roundsFrom n e = true := by
    by_cases ha : x.roundsFrom a f = true
    · rw [if_pos ha] at h
      cases h
      exact ha
    · rw [if_neg ha] at h
      by_cases hb : x.roundsFrom b f = true
      · rw [if_pos hb] at h
        cases h
        exact hb
      · rw [if_neg hb] at h
        cases h
  exact key _ _ _ h

theorem roundsFrom_shortest (hx : 0 < x.mantissa) :
    x.roundsFrom x.shortest.1 x.shortest.2 = true := by
  rw [shortest, if_neg hx.ne']
  cases hf : (List.range 17).findSome? fun k => x.numeral? (k + 1) with
  | none => exact roundsFrom_exact hx
  | some numeral =>
      obtain ⟨k, -, hk⟩ := List.exists_of_findSome?_eq_some hf
      exact roundsFrom_of_numeral? hk

/-- What rounds to a number lies between the greatest number and half of the least one. -/
theorem bounds_of_roundsFrom (hx : x.Valid) (hpos : 0 < x.mantissa) {n : ℕ} {e : ℤ}
    (h : x.roundsFrom n e = true) :
    (10 : ℚ) ^ (-400 : ℤ) ≤ n * 10 ^ e ∧ (n : ℚ) * 10 ^ e < 10 ^ (309 : ℤ) := by
  have hp : (0 : ℚ) < 2 ^ x.exponent := by positivity
  have hbounds := (roundsFrom_iff hpos n e).mp h
  have hbelow : (x.below : ℚ) ≤ 2 := by exact_mod_cast x.below_le_two
  have hone : (1 : ℚ) ≤ x.mantissa := by exact_mod_cast hpos
  have hmant : (x.mantissa : ℚ) + 1 ≤ 2 ^ 53 := by exact_mod_cast hx.high
  have hlow : 1 / 2 ≤ (n : ℚ) * 10 ^ e / 2 ^ x.exponent := by
    split at hbounds <;> linarith [hbounds.1]
  have hhigh : (n : ℚ) * 10 ^ e / 2 ^ x.exponent ≤ 2 ^ 53 := by
    split at hbounds <;> linarith [hbounds.2]
  rw [le_div_iff₀ hp] at hlow
  rw [div_le_iff₀ hp] at hhigh
  have hleast : (2 : ℚ) ^ (-1074 : ℤ) ≤ 2 ^ x.exponent :=
    zpow_le_zpow_right₀ (by norm_num) hx.least
  have hgreatest : (2 : ℚ) ^ x.exponent ≤ 2 ^ (971 : ℤ) :=
    zpow_le_zpow_right₀ (by norm_num) hx.greatest
  have hsmall : (2 : ℚ) ^ 1075 ≤ 10 ^ 400 := by
    exact_mod_cast (by decide +kernel : 2 ^ 1075 ≤ 10 ^ 400)
  have hlarge : (2 : ℚ) ^ 1024 < 10 ^ 309 := by
    exact_mod_cast (by decide +kernel : 2 ^ 1024 < 10 ^ 309)
  constructor
  · calc
      (10 : ℚ) ^ (-400 : ℤ) = (10 ^ 400)⁻¹ := by
        rw [← zpow_natCast, ← zpow_neg]
        rfl
      _ ≤ (2 ^ 1075)⁻¹ := inv_anti₀ (by positivity) hsmall
      _ = 1 / 2 * 2 ^ (-1074 : ℤ) := by
        rw [← zpow_natCast, ← zpow_neg, one_div, ← zpow_neg_one, ← zpow_add₀ (by norm_num)]
        rfl
      _ ≤ 1 / 2 * 2 ^ x.exponent := mul_le_mul_of_nonneg_left hleast (by norm_num)
      _ ≤ n * 10 ^ e := hlow
  · calc
      (n : ℚ) * 10 ^ e ≤ 2 ^ 53 * 2 ^ x.exponent := hhigh
      _ ≤ 2 ^ 53 * 2 ^ (971 : ℤ) := mul_le_mul_of_nonneg_left hgreatest (by norm_num)
      _ = 2 ^ 1024 := by
        rw [← zpow_natCast, ← zpow_add₀ (by norm_num), ← zpow_natCast]
        rfl
      _ < 10 ^ 309 := hlarge
      _ = 10 ^ (309 : ℤ) := (zpow_natCast 10 309).symm

end Binary64

namespace Decimal

variable {x y : Decimal}

/-! ## Magnitudes -/

def magnitude (x : Decimal) : ℚ :=
  x.coefficient * 10 ^ x.exponent

def leading (x : Decimal) : ℤ :=
  x.exponent + (natDigits x.coefficient).length

theorem ratio_value (x : Decimal) : (x.ratio.1 : ℚ) / x.ratio.2 = x.magnitude := by
  rw [magnitude, Binary64.zpow_toNat]
  simp only [ratio, Nat.pow_eq]
  push_cast
  exact (mul_div_assoc _ _ _)

theorem ratio_fst_pos (h : 0 < x.coefficient) : 0 < x.ratio.1 :=
  Nat.mul_pos h (Nat.pow_pos (by norm_num))

theorem ratio_snd_pos (x : Decimal) : 0 < x.ratio.2 :=
  Nat.pow_pos (by norm_num)

theorem magnitude_pos_iff : 0 < x.magnitude ↔ 0 < x.coefficient := by
  have hp : (0 : ℚ) < 10 ^ x.exponent := by positivity
  rw [magnitude, mul_pos_iff_of_pos_right hp, Nat.cast_pos]

theorem magnitude_lt (x : Decimal) : x.magnitude < 10 ^ x.leading := by
  have hc : (x.coefficient : ℚ) < 10 ^ (natDigits x.coefficient).length := by
    exact_mod_cast lt_pow_length_natDigits x.coefficient
  rw [magnitude, leading, zpow_add₀ (by norm_num), zpow_natCast, mul_comm (10 ^ x.exponent : ℚ)]
  exact mul_lt_mul_of_pos_right hc (by positivity)

theorem le_magnitude (h : 0 < x.coefficient) : 10 ^ (x.leading - 1) ≤ x.magnitude := by
  have hc : (10 : ℚ) ^ ((natDigits x.coefficient).length - 1) ≤ x.coefficient := by
    exact_mod_cast pow_length_natDigits_le h
  have hl := length_natDigits_pos x.coefficient
  have he : x.leading - 1 = (((natDigits x.coefficient).length - 1 : ℕ) : ℤ) + x.exponent := by
    rw [leading]
    omega
  rw [magnitude, he, zpow_add₀ (by norm_num), zpow_natCast]
  exact mul_le_mul_of_nonneg_right hc (by positivity)

theorem leading_le_of_magnitude_eq (h : 0 < x.coefficient) (he : x.magnitude = y.magnitude) :
    x.leading ≤ y.leading := by
  have hlt := (le_magnitude h).trans_lt (he ▸ magnitude_lt y)
  have := (zpow_lt_zpow_iff_right₀ (by norm_num)).mp hlt
  omega

/-- Numerals of the same sign and magnitude round to the same numeral. -/
theorem rounded_congr (hs : x.negative = y.negative) (hm : x.magnitude = y.magnitude) :
    x.rounded = y.rounded := by
  have hpos : 0 < x.coefficient ↔ 0 < y.coefficient := by
    rw [← magnitude_pos_iff, hm, magnitude_pos_iff]
  by_cases hx : 0 < x.coefficient
  · have hy := hpos.mp hx
    have hl : x.leading = y.leading :=
      le_antisymm (leading_le_of_magnitude_eq hx hm) (leading_le_of_magnitude_eq hy hm.symm)
    have hratio : Binary64.ofRatio x.ratio.1 x.ratio.2 = Binary64.ofRatio y.ratio.1 y.ratio.2 := by
      apply Binary64.ofRatio_congr (ratio_fst_pos hx) x.ratio_snd_pos (ratio_fst_pos hy)
        y.ratio_snd_pos
      rw [ratio_value, ratio_value, hm]
    rw [leading, leading] at hl
    simp only [rounded, ofFraction, hl, hs, hratio, hx.ne', hy.ne']
  · have hx' : x.coefficient = 0 := by omega
    have hy' : y.coefficient = 0 := by omega
    simp [rounded, hx', hy', hs]

/-! ## Normal numerals -/

theorem dropZeros_eq (fuel n : ℕ) : n = (dropZeros fuel n).1 * 10 ^ (dropZeros fuel n).2 := by
  induction fuel generalizing n with
  | zero => simp [dropZeros]
  | succ fuel ih =>
      rw [dropZeros]
      by_cases h : n % 10 = 0
      · rw [if_pos h]
        have hq := ih (n / 10)
        have hn : n = 10 * (n / 10) := by omega
        calc
          n = 10 * (n / 10) := hn
          _ = 10 * ((dropZeros fuel (n / 10)).1 * 10 ^ (dropZeros fuel (n / 10)).2) := by rw [← hq]
          _ = (dropZeros fuel (n / 10)).1 * 10 ^ ((dropZeros fuel (n / 10)).2 + 1) := by ring
      · rw [if_neg h]
        simp

@[simp] theorem negative_normal (x : Decimal) : x.normal.negative = x.negative := by
  unfold normal
  split <;> rfl

theorem magnitude_normal (x : Decimal) : x.normal.magnitude = x.magnitude := by
  unfold normal
  by_cases h : x.coefficient = 0
  · rw [if_pos h]
    simp [magnitude, h]
  · rw [if_neg h]
    have hz := dropZeros_eq (natDigits x.coefficient).length x.coefficient
    have hc : (x.coefficient : ℚ) =
        (dropZeros (natDigits x.coefficient).length x.coefficient).1 *
          10 ^ (dropZeros (natDigits x.coefficient).length x.coefficient).2 := by
      exact_mod_cast hz
    simp only [magnitude]
    rw [zpow_add₀ (by norm_num), zpow_natCast, hc]
    ring

/-! ## Rounded numerals -/

def ofBinary (negative : Bool) (x : Binary64) : Decimal :=
  normal ⟨negative, x.shortest.1, x.shortest.2⟩

@[simp] theorem negative_ofBinary (negative : Bool) (b : Binary64) :
    (ofBinary negative b).negative = negative :=
  negative_normal _

theorem magnitude_ofBinary (negative : Bool) (b : Binary64) :
    (ofBinary negative b).magnitude = b.shortest.1 * 10 ^ b.shortest.2 :=
  magnitude_normal _

/-- The numeral of a number other than zero stands for that number. -/
theorem ofRatio_ofBinary (negative : Bool) {b : Binary64} (hb : b.Valid) (hpos : 0 < b.mantissa) :
    Binary64.ofRatio (ofBinary negative b).ratio.1 (ofBinary negative b).ratio.2 = some b := by
  have hr := Binary64.roundsFrom_shortest hpos
  have hlow := (Binary64.bounds_of_roundsFrom hb hpos hr).1
  rw [← magnitude_ofBinary negative] at hlow
  have hten : (0 : ℚ) < 10 ^ (-400 : ℤ) := by positivity
  have hc : 0 < (ofBinary negative b).coefficient := magnitude_pos_iff.mp (hten.trans_le hlow)
  apply Binary64.ofRatio_of_roundsFrom hb hpos hr (ratio_fst_pos hc) (ratio_snd_pos _)
  rw [ratio_value, magnitude_ofBinary]

/-- The numeral of a number other than zero rounds to itself and is finite. -/
theorem rounded_ofBinary (negative : Bool) {b : Binary64} (hb : b.Valid) (hpos : 0 < b.mantissa) :
    (ofBinary negative b).rounded = ofBinary negative b ∧
      (ofBinary negative b).isInfinite = false := by
  have hr := Binary64.roundsFrom_shortest hpos
  obtain ⟨hlow, hhigh⟩ := Binary64.bounds_of_roundsFrom hb hpos hr
  rw [← magnitude_ofBinary negative] at hlow hhigh
  have hten : (0 : ℚ) < 10 ^ (-400 : ℤ) := by positivity
  have hc : 0 < (ofBinary negative b).coefficient := magnitude_pos_iff.mp (hten.trans_le hlow)
  have hleast : -400 < (ofBinary negative b).leading :=
    (zpow_lt_zpow_iff_right₀ (by norm_num)).mp (hlow.trans_lt (magnitude_lt _))
  have hgreatest : (ofBinary negative b).leading ≤ 309 := by
    have := (zpow_lt_zpow_iff_right₀ (by norm_num)).mp ((le_magnitude hc).trans_lt hhigh)
    omega
  have hratio := ofRatio_ofBinary negative hb hpos
  rw [leading] at hleast hgreatest
  constructor
  · have hzero : ¬ ((ofBinary negative b).coefficient = 0 ∨ (ofBinary negative b).exponent +
        (natDigits (ofBinary negative b).coefficient).length < -400) := by omega
    have hinfinite : ¬ 400 < (ofBinary negative b).exponent +
        (natDigits (ofBinary negative b).coefficient).length := by omega
    simp only [rounded, Bool.or_eq_true, decide_eq_true_eq, if_neg hzero, if_neg hinfinite,
      ofFraction, hratio, negative_ofBinary]
    rfl
  · simp only [isInfinite, decide_eq_false_iff_not]
    omega

theorem rounded_zero (negative : Bool) :
    (⟨negative, 0, 0⟩ : Decimal).rounded = ⟨negative, 0, 0⟩ := by
  simp [rounded]

theorem rounded_infinite (negative : Bool) : (infinite negative).rounded = infinite negative := by
  have hr : Binary64.ofRatio (infinite negative).ratio.1 (infinite negative).ratio.2 = none := by
    cases negative <;> decide +kernel
  have hd : (natDigits 1).length = 1 := by
    rw [natDigits_of_lt (by omega)]
    rfl
  have hc : (infinite negative).coefficient = 1 := rfl
  have he : (infinite negative).exponent = 309 := rfl
  simp only [rounded, hd, hc, he, ofFraction, hr]
  rfl

theorem isInfinite_infinite (negative : Bool) : (infinite negative).isInfinite = true := by
  simp [isInfinite, infinite, natDigits_of_lt]

theorem isInfinite_nan : nan.isInfinite = true := by
  have hd : (natDigits 0).length = 1 := by
    rw [natDigits_of_lt (by omega)]
    rfl
  simp [isInfinite, nan, hd]

/-- What a rounded numeral is. -/
theorem rounded_cases (x : Decimal) :
    x.rounded = ⟨x.negative, 0, 0⟩ ∨ x.rounded = infinite x.negative ∨
      ∃ b : Binary64, b.Valid ∧ 0 < b.mantissa ∧ x.rounded = ofBinary x.negative b := by
  unfold rounded
  simp only
  split
  · exact Or.inl rfl
  · rename_i hz
    have hc : 0 < x.coefficient := by
      simp only [Bool.or_eq_true, decide_eq_true_eq, not_or] at hz
      exact Nat.pos_of_ne_zero hz.1
    split
    · exact Or.inr (Or.inl rfl)
    · unfold ofFraction
      cases hr : Binary64.ofRatio x.ratio.1 x.ratio.2 with
      | none => exact Or.inr (Or.inl rfl)
      | some b =>
          have hb := Binary64.valid_of_ofRatio (ratio_fst_pos hc) x.ratio_snd_pos hr
          rcases Nat.eq_zero_or_pos b.mantissa with hm | hm
          · have hs : b.shortest = (0, 0) := by rw [Binary64.shortest, if_pos hm]
            simp only [hs]
            exact Or.inl (by simp [normal])
          · exact Or.inr (Or.inr ⟨b, hb, hm, rfl⟩)

/-- Rounding once is enough. -/
theorem rounded_rounded (x : Decimal) : x.rounded.rounded = x.rounded := by
  rcases rounded_cases x with h | h | ⟨b, hb, hm, h⟩
  · rw [h, rounded_zero]
  · rw [h, rounded_infinite]
  · rw [h, (rounded_ofBinary _ hb hm).1]

/-- There is one rounded infinity of each sign. -/
theorem eq_infinite_of_rounded_eq (h : x.rounded = x) (hi : x.isInfinite = true) :
    x = infinite x.negative := by
  rcases rounded_cases x with hc | hc | ⟨b, hb, hm, hc⟩
  · rw [h] at hc
    rw [hc] at hi
    simp [isInfinite, natDigits_of_lt] at hi
  · rwa [h] at hc
  · rw [h] at hc
    rw [hc, (rounded_ofBinary _ hb hm).2] at hi
    cases hi

end Decimal

end Sitewright
