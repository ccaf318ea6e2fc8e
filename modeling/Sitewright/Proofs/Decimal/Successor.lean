import Sitewright.Check.Scalar
import Sitewright.Proofs.Checked
import Sitewright.Proofs.Decimal.Shortest

/-!
# Counting in binary numbers

The integers up to two to the power of 53 are numbers of the format, and those beyond it that are
such numbers are even. So adding one to a number that is an integer gives the next integer within
this range and never beyond it.
-/

namespace Sitewright

namespace Binary64

variable {x : Binary64}

theorem ratio_value (x : Binary64) : (x.ratio.1 : ℚ) / x.ratio.2 = x.value := by
  rw [value, zpow_toNat]
  simp only [ratio, Nat.pow_eq]
  push_cast
  exact mul_div_assoc _ _ _

theorem ratio_snd_pos (x : Binary64) : 0 < x.ratio.2 :=
  Nat.pow_pos (by norm_num)

/-- A number is the nearest one to its own value. -/
theorem ofRatio_of_value (hx : x.Valid) {num den : ℕ} (hn : 0 < num) (hd : 0 < den)
    (hv : (num : ℚ) / den = x.value) : ofRatio num den = some x := by
  refine ofRatio_of_nearest hx hn hd hv ?_ ⟨by linarith, by linarith, fun _ => ?_⟩
  · exact hx.low.imp_right fun h => by exact_mod_cast h
  · exact ⟨by linarith, by linarith⟩

/-- The first number with 54 binary digits still is one of the format, as it is even. -/
theorem exists_value_eq {p : ℕ} (hp : 0 < p) (hle : p ≤ 2 ^ 53) :
    ∃ x : Binary64, x.Valid ∧ 0 < x.mantissa ∧ x.value = p := by
  rcases hle.lt_or_eq with hlt | rfl
  · have hlog : p.log2 ≤ 52 := Nat.le_of_lt_succ ((Nat.log2_lt hp.ne').mpr hlt)
    obtain ⟨k, hk⟩ := Nat.exists_eq_add_of_le hlog
    have hlow : 2 ^ 52 ≤ p * 2 ^ k := by
      rw [hk, pow_add]
      exact Nat.mul_le_mul_right _ (Nat.log2_self_le hp.ne')
    have hhigh : p * 2 ^ k < 2 ^ 53 := by
      have h53 : (2 : ℕ) ^ 53 = 2 ^ (p.log2 + 1) * 2 ^ k := by
        rw [← pow_add]
        congr 1
        omega
      rw [h53]
      exact Nat.mul_lt_mul_of_pos_right Nat.lt_log2_self (Nat.two_pow_pos k)
    refine ⟨⟨p * 2 ^ k, -k⟩, ⟨by simp only; omega, by simp only; omega, hhigh, .inr hlow⟩,
      Nat.mul_pos hp (Nat.two_pow_pos k), ?_⟩
    have hpow : (2 : ℚ) ^ k ≠ 0 := by positivity
    simp only [value]
    push_cast
    rw [zpow_neg, zpow_natCast, mul_assoc, mul_inv_cancel₀ hpow, mul_one]
  · refine ⟨⟨2 ^ 52, 1⟩, ⟨by norm_num, by norm_num, by norm_num, .inr le_rfl⟩, by norm_num, ?_⟩
    norm_num [value]

/-- A number of 54 or more binary digits ends in a zero. -/
theorem even_of_value_eq (hx : x.Valid) {p : ℕ} (hv : x.value = p) (hle : 2 ^ 53 ≤ p) : 2 ∣ p := by
  have hmant : (x.mantissa : ℚ) < 2 ^ 53 := by exact_mod_cast hx.high
  have hp : (2 : ℚ) ^ 53 ≤ p := by exact_mod_cast hle
  rw [value] at hv
  have hexp : 0 < x.exponent := by
    by_contra hneg
    have hone : (2 : ℚ) ^ x.exponent ≤ 1 := zpow_le_one_of_nonpos₀ (by norm_num) (by omega)
    have hpos : (0 : ℚ) ≤ x.mantissa := by positivity
    have hbound := mul_le_mul_of_nonneg_left hone hpos
    linarith
  obtain ⟨k, hk⟩ := Int.eq_succ_of_zero_lt hexp
  refine ⟨x.mantissa * 2 ^ k, ?_⟩
  rw [hk, zpow_add_one₀ (by norm_num), zpow_natCast] at hv
  have heq : ((2 * (x.mantissa * 2 ^ k) : ℕ) : ℚ) = p := by
    rw [← hv]
    push_cast
    ring
  exact_mod_cast heq.symm

/-- Zero is rounded to zero. -/
theorem ofRatio_zero (den : ℕ) : ∃ e, ofRatio 0 den = some ⟨0, e⟩ := by
  have hround (d : ℕ) : roundDiv 0 d = 0 := by simp [roundDiv]
  have hexp : exponentFor 0 den ≤ 971 := by
    have hlog : ((0 : ℕ).log2 : ℤ) = 0 := rfl
    simp only [exponentFor, hlog]
    split <;> omega
  refine ⟨exponentFor 0 den, ?_⟩
  have hm : ¬ (0 : ℕ) = Nat.pow 2 53 := by decide
  simp only [ofRatio, scaled, Nat.zero_mul, hround, if_neg hm]
  exact if_pos hexp

end Binary64

namespace Decimal

variable {x : Decimal} {n : ℤ}

theorem binaryRatio_of_zero (hc : x.coefficient = 0) :
    x.binaryRatio.1 = 0 ∧ 0 < x.binaryRatio.2 := by
  obtain ⟨e, he⟩ := Binary64.ofRatio_zero x.ratio.2
  have hzero : x.ratio.1 = 0 := by simp only [ratio, hc, Nat.zero_mul]
  have hb : x.binaryRatio = (⟨0, e⟩ : Binary64).ratio := by
    simp only [binaryRatio, Binary64.nearest, hzero, he]
    rfl
  rw [hb]
  exact ⟨Nat.zero_mul _, Binary64.ratio_snd_pos _⟩

/-- What a numeral is worth as a binary number, infinity nothing. -/
theorem binaryRatio_cases (x : Decimal) :
    x.binaryRatio.1 = 0 ∧ 0 < x.binaryRatio.2 ∨
      ∃ b : Binary64, b.Valid ∧ x.binaryRatio = b.ratio := by
  rcases Nat.eq_zero_or_pos x.coefficient with hc | hc
  · exact .inl (binaryRatio_of_zero hc)
  · cases hr : Binary64.ofRatio x.ratio.1 x.ratio.2 with
    | none =>
        have hb : x.binaryRatio = (0, 1) := by
          simp only [binaryRatio, Binary64.nearest, hr]
          rfl
        rw [hb]
        exact .inl ⟨rfl, Nat.one_pos⟩
    | some b =>
        refine .inr ⟨b, Binary64.valid_of_ofRatio (ratio_fst_pos hc) x.ratio_snd_pos hr, ?_⟩
        simp only [binaryRatio, Binary64.nearest, hr]
        rfl

theorem binaryRatio_snd_pos (x : Decimal) : 0 < x.binaryRatio.2 := by
  rcases binaryRatio_cases x with ⟨-, h⟩ | ⟨b, -, hb⟩
  · exact h
  · rw [hb]
    exact b.ratio_snd_pos

theorem toInt?_eq_some_iff :
    x.toInt? = some n ↔ x.isInfinite = false ∧ x.fraction.1 = n * x.fraction.2 := by
  have hpos : (x.fraction.2 : ℤ) ≠ 0 := by exact_mod_cast (binaryRatio_snd_pos x).ne'
  cases hi : x.isInfinite with
  | true => simp [toInt?, hi]
  | false =>
      by_cases hd : x.fraction.1 % x.fraction.2 = 0
      · simp only [toInt?, hi, hd, bne_self_eq_false, Bool.or_false, Bool.false_eq_true, if_false,
          Option.some.injEq, true_and]
        rw [Int.ediv_eq_iff_eq_mul_left hpos (Int.dvd_of_emod_eq_zero hd)]
      · have hne : x.fraction.1 ≠ n * x.fraction.2 := fun h =>
          hd (Int.emod_eq_zero_of_dvd ⟨n, h.trans (Int.mul_comm _ _)⟩)
        simp [toInt?, hi, hd, hne]

/-- The integers beyond the range of those that need no more than 53 binary digits are even. -/
theorem even_of_toInt? (h : x.toInt? = some n) (hle : 2 ^ 53 ≤ n.natAbs) : 2 ∣ n := by
  have hn : x.binaryRatio.1 = n.natAbs * x.binaryRatio.2 := by
    have hfraction := congrArg Int.natAbs (toInt?_eq_some_iff.mp h).2
    rw [Int.natAbs_mul] at hfraction
    simp only [fraction, Int.natAbs_natCast] at hfraction
    split at hfraction
    · simpa using hfraction
    · simpa using hfraction
  rcases binaryRatio_cases x with ⟨hzero, hpos⟩ | ⟨b, hb, hratio⟩
  · rw [hzero] at hn
    rcases Nat.mul_eq_zero.mp hn.symm with habs | hden
    · omega
    · omega
  · have hden : (b.ratio.2 : ℚ) ≠ 0 := by exact_mod_cast b.ratio_snd_pos.ne'
    have hvalue : b.value = n.natAbs := by
      rw [hratio] at hn
      rw [← Binary64.ratio_value, hn]
      push_cast
      exact mul_div_cancel_right₀ _ hden
    exact Int.natCast_dvd.mpr (Binary64.even_of_value_eq hb hvalue hle)

theorem toInt?_ofBinary (negative : Bool) {b : Binary64} (hb : b.Valid) (hpos : 0 < b.mantissa)
    {p : ℕ} (hv : b.value = p) :
    (ofBinary negative b).toInt? = some (if negative then -(p : ℤ) else p) := by
  have hratio : (ofBinary negative b).binaryRatio = b.ratio := by
    simp only [binaryRatio, Binary64.nearest, ofRatio_ofBinary negative hb hpos]
    rfl
  have hp : b.ratio.1 = p * b.ratio.2 := by
    have hden : (b.ratio.2 : ℚ) ≠ 0 := by exact_mod_cast b.ratio_snd_pos.ne'
    have hvalue := b.ratio_value
    rw [hv, div_eq_iff hden] at hvalue
    exact_mod_cast hvalue
  refine toInt?_eq_some_iff.mpr ⟨(rounded_ofBinary negative hb hpos).2, ?_⟩
  simp only [fraction, hratio, hp, negative_ofBinary]
  cases negative with
  | true => simp
  | false => simp

theorem toInt?_zero (negative : Bool) : (⟨negative, 0, 0⟩ : Decimal).toInt? = some 0 := by
  have hzero : (⟨negative, 0, 0⟩ : Decimal).binaryRatio.1 = 0 := (binaryRatio_of_zero rfl).1
  refine toInt?_eq_some_iff.mpr ⟨by simp [isInfinite, natDigits_of_lt], ?_⟩
  simp [fraction, hzero]

/-- An integer that needs no more than 53 binary digits is rounded to itself. -/
theorem toInt?_ofFraction (negative : Bool) {p den : ℕ} (hle : p ≤ 2 ^ 53) (hd : 0 < den) :
    (ofFraction negative (p * den) den).toInt? = some (if negative then -(p : ℤ) else p) := by
  rcases Nat.eq_zero_or_pos p with rfl | hp
  · obtain ⟨e, he⟩ := Binary64.ofRatio_zero den
    have hzero : ofFraction negative (0 * den) den = ⟨negative, 0, 0⟩ := by
      rw [ofFraction, Nat.zero_mul, he]
      rfl
    rw [hzero, toInt?_zero]
    cases negative <;> rfl
  · obtain ⟨b, hb, hpos, hv⟩ := Binary64.exists_value_eq hp hle
    have hden : (den : ℚ) ≠ 0 := by exact_mod_cast hd.ne'
    have hratio : Binary64.ofRatio (p * den) den = some b := by
      refine Binary64.ofRatio_of_value hb (Nat.mul_pos hp hd) hd ?_
      rw [hv]
      push_cast
      exact mul_div_cancel_right₀ _ hden
    have hbinary : ofFraction negative (p * den) den = ofBinary negative b := by
      rw [ofFraction, hratio]
      rfl
    rw [hbinary]
    exact toInt?_ofBinary negative hb hpos hv

/-- A number that is an integer is counted up to the next one within the range of the integers
that need no more than 53 binary digits, and only there. -/
theorem toInt?_succ_iff (h : x.toInt? = some n) :
    x.succ.toInt? = some (n + 1) ↔ -2 ^ 53 ≤ n ∧ n < 2 ^ 53 := by
  constructor
  · intro hnext
    -- Of two integers in a row only one is even.
    have heven := even_of_toInt? h
    have hnext := even_of_toInt? hnext
    omega
  · rintro ⟨hlow, hhigh⟩
    obtain ⟨hi, hn⟩ := toInt?_eq_some_iff.mp h
    have hpos : 0 < x.fraction.2 := binaryRatio_snd_pos x
    have hsum : x.fraction.1 + x.fraction.2 = (n + 1) * x.fraction.2 := by
      rw [hn]
      ring
    have hnegative : decide (x.fraction.1 + x.fraction.2 < 0) = decide (n + 1 < 0) := by
      have hpos' : (0 : ℤ) < x.fraction.2 := by exact_mod_cast hpos
      have hsign : (n + 1) * x.fraction.2 < 0 ↔ n + 1 < 0 := by
        rw [← not_le, mul_nonneg_iff_of_pos_right hpos', not_le]
      rw [hsum, decide_eq_decide.mpr hsign]
    have habs : (x.fraction.1 + x.fraction.2).natAbs = (n + 1).natAbs * x.fraction.2 := by
      rw [hsum, Int.natAbs_mul, Int.natAbs_natCast]
    have hsucc : x.succ =
        ofFraction (decide (n + 1 < 0)) ((n + 1).natAbs * x.fraction.2) x.fraction.2 := by
      simp only [succ, hi, Bool.false_eq_true, if_false, hnegative, habs]
    rw [hsucc, toInt?_ofFraction _ (by omega) hpos]
    by_cases hneg : n + 1 < 0
    · rw [if_pos (decide_eq_true hneg)]
      congr 1
      omega
    · rw [if_neg (by simpa using hneg)]
      congr 1
      omega

end Decimal

namespace Checked

variable {x : Decimal} {n : ℤ}

theorem integer_float_eq_ok_iff :
    integer (.float x) = .ok n ↔ x.toInt? = some n ∧ isInnerWord n = true := by
  rw [integer]
  cases hi : x.isInfinite with
  | true =>
      have hnone : x.toInt? = none := by simp [Decimal.toInt?, hi]
      simp [hnone, fail, invalid]
  | false =>
      rw [if_neg Bool.false_ne_true]
      cases x.toInt? with
      | none => simp [fail, invalid]
      | some m =>
          simp only
          by_cases hm : isInnerWord m = true
          · rw [if_pos hm, valid, ok_eq_ok_iff, Option.some.injEq]
            exact ⟨fun h => ⟨h, h ▸ hm⟩, And.left⟩
          · rw [if_neg hm, fail, invalid, error_ne_ok, false_iff, Option.some.injEq]
            rintro ⟨rfl, h⟩
            exact hm h

end Checked

end Sitewright
