import Mathlib.Algebra.Order.Ring.Nat
import Mathlib.Data.List.Induction
import Mathlib.Tactic.IntervalCases
import Mathlib.Tactic.Ring
import Sitewright.Decimal.Basic

/-!
# Rows of digits

The digits of a number read as the number again, and so they do behind zeros. Their count tells
between which powers of ten the number lies.
-/

namespace Sitewright.Decimal

theorem digitsUp_of_lt {n : Nat} (h : n < 10) : digitsUp n = [n] := by
  rw [digitsUp, dif_pos h]

theorem digitsUp_of_le {n : Nat} (h : 10 ≤ n) : digitsUp n = n % 10 :: digitsUp (n / 10) := by
  rw [digitsUp, dif_neg (by omega)]

theorem toNat_digitChar {d : Nat} (h : d < 10) : (digitChar d).toNat = 48 + d := by
  interval_cases d <;> rfl

theorem isDigit_digitChar {d : Nat} (h : d < 10) : isDigit (digitChar d) = true := by
  interval_cases d <;> rfl

theorem isDigit_iff {c : Char} : isDigit c = true ↔ 48 ≤ c.toNat ∧ c.toNat ≤ 57 := by
  simp only [isDigit, Bool.and_eq_true, decide_eq_true_eq]
  exact Iff.rfl

theorem natDigits_of_lt {n : Nat} (h : n < 10) : natDigits n = [digitChar n] := by
  simp [natDigits, digitsUp_of_lt h]

theorem natDigits_of_le {n : Nat} (h : 10 ≤ n) :
    natDigits n = natDigits (n / 10) ++ [digitChar (n % 10)] := by
  simp [natDigits, digitsUp_of_le h]

/-! ## Reading digits -/

@[simp] theorem ofDigits_nil : ofDigits [] = 0 := rfl

theorem foldl_digits (n : Nat) (digits : List Char) :
    digits.foldl (fun n c => 10 * n + (c.toNat - 48)) n =
      n * 10 ^ digits.length + ofDigits digits := by
  induction digits generalizing n with
  | nil => simp
  | cons c digits ih =>
      rw [ofDigits, List.foldl_cons, List.foldl_cons, ih, ih (10 * 0 + (c.toNat - 48)),
        List.length_cons]
      ring

theorem ofDigits_append (front back : List Char) :
    ofDigits (front ++ back) = ofDigits front * 10 ^ back.length + ofDigits back := by
  rw [ofDigits, List.foldl_append, foldl_digits]
  rfl

theorem ofDigits_singleton (c : Char) : ofDigits [c] = c.toNat - 48 := by
  simp [ofDigits]

theorem ofDigits_replicate_zero (k : Nat) : ofDigits (List.replicate k '0') = 0 := by
  induction k with
  | zero => rfl
  | succ k ih =>
      rw [List.replicate_succ', ofDigits_append, ih, ofDigits_singleton]
      rfl

theorem ofDigits_natDigits (n : Nat) : ofDigits (natDigits n) = n := by
  induction n using Nat.strongRecOn with
  | ind n ih =>
      by_cases h : n < 10
      · rw [natDigits_of_lt h, ofDigits_singleton, toNat_digitChar h]
        omega
      · rw [natDigits_of_le (by omega), ofDigits_append, ih (n / 10) (by omega), ofDigits_singleton,
          toNat_digitChar (by omega), List.length_singleton]
        omega

theorem isDigit_of_mem_natDigits {n : Nat} {c : Char} (h : c ∈ natDigits n) : isDigit c = true := by
  induction n using Nat.strongRecOn with
  | ind n ih =>
      by_cases hn : n < 10
      · rw [natDigits_of_lt hn, List.mem_singleton] at h
        exact h ▸ isDigit_digitChar hn
      · rw [natDigits_of_le (by omega), List.mem_append, List.mem_singleton] at h
        rcases h with h | h
        · exact ih (n / 10) (by omega) h
        · exact h ▸ isDigit_digitChar (by omega)

theorem ofDigits_lt {digits : List Char} (h : ∀ c ∈ digits, isDigit c = true) :
    ofDigits digits < 10 ^ digits.length := by
  induction digits using List.reverseRecOn with
  | nil => simp
  | append_singleton digits c ih =>
      have hd := ih fun c hc => h c (List.mem_append_left _ hc)
      have hc := isDigit_iff.mp (h c (by simp))
      rw [ofDigits_append, ofDigits_singleton, List.length_append, List.length_singleton, pow_succ]
      omega

/-! ## The number of digits -/

theorem length_natDigits_pos (n : Nat) : 0 < (natDigits n).length := by
  by_cases h : n < 10
  · simp [natDigits_of_lt h]
  · simp [natDigits_of_le (Nat.le_of_not_lt h)]

theorem lt_pow_length_natDigits (n : Nat) : n < 10 ^ (natDigits n).length := by
  have h := ofDigits_lt fun c hc => isDigit_of_mem_natDigits (n := n) hc
  rwa [ofDigits_natDigits] at h

theorem pow_length_natDigits_le {n : Nat} (h : 0 < n) : 10 ^ ((natDigits n).length - 1) ≤ n := by
  induction n using Nat.strongRecOn with
  | ind n ih =>
      by_cases hn : n < 10
      · rw [natDigits_of_lt hn]
        exact h
      · have hq := ih (n / 10) (by omega) (by omega)
        have hl := length_natDigits_pos (n / 10)
        rw [natDigits_of_le (by omega), List.length_append, List.length_singleton,
          Nat.add_sub_cancel]
        calc
          10 ^ (natDigits (n / 10)).length = 10 * 10 ^ ((natDigits (n / 10)).length - 1) := by
            rw [← pow_succ', Nat.sub_add_cancel hl]
          _ ≤ 10 * (n / 10) := Nat.mul_le_mul_left 10 hq
          _ ≤ n := Nat.mul_div_le n 10

theorem length_natDigits_le {n k : Nat} (hk : 0 < k) (h : n < 10 ^ k) :
    (natDigits n).length ≤ k := by
  by_cases hn : n = 0
  · rw [hn, natDigits_of_lt (by omega)]
    exact hk
  · have hp := pow_length_natDigits_le (Nat.pos_of_ne_zero hn)
    have hlt := (Nat.pow_lt_pow_iff_right (by omega)).mp (hp.trans_lt h)
    omega

/-- A number other than zero starts with another digit than zero. -/
theorem exists_cons_natDigits {n : Nat} (h : 0 < n) :
    ∃ c rest, natDigits n = c :: rest ∧ isDigit c = true ∧ c ≠ '0' := by
  induction n using Nat.strongRecOn with
  | ind n ih =>
      by_cases hn : n < 10
      · refine ⟨digitChar n, [], natDigits_of_lt hn, isDigit_digitChar hn, ?_⟩
        intro hc
        have hz := congrArg Char.toNat hc
        rw [toNat_digitChar hn] at hz
        have hzero : ('0' : Char).toNat = 48 := rfl
        omega
      · obtain ⟨c, rest, hd, hc, hz⟩ := ih (n / 10) (by omega) (by omega)
        refine ⟨c, rest ++ [digitChar (n % 10)], ?_, hc, hz⟩
        rw [natDigits_of_le (by omega), hd, List.cons_append]

end Sitewright.Decimal
