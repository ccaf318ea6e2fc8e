import Sitewright.Decimal.Text
import Sitewright.Json.Reader
import Sitewright.Proofs.Decimal.Shortest

/-!
# Reading numbers back

The text of an integer reads as the integer, and that of a numeral as the numeral of the same
magnitude, rounded. What comes after a number must not be able to belong to it.
-/

namespace Sitewright.Json

open Decimal (isDigit ofDigits natDigits)

def EndsNumber (rest : List Char) : Prop :=
  ∀ c ∈ rest.head?, isDigit c = false ∧ c ≠ '.' ∧ c ≠ 'e' ∧ c ≠ 'E'

def EndsDigits (rest : List Char) : Prop :=
  ∀ c ∈ rest.head?, isDigit c = false

theorem EndsNumber.endsDigits {rest : List Char} (h : EndsNumber rest) : EndsDigits rest :=
  fun c hc => (h c hc).1

theorem endsDigits_cons {c : Char} {rest : List Char} (h : isDigit c = false) :
    EndsDigits (c :: rest) := by
  intro other ho
  cases ho
  exact h

/-! ## The parts of a number -/

theorem takeWhile_digits {digits rest : List Char} (hd : ∀ c ∈ digits, isDigit c = true)
    (hr : EndsDigits rest) : (digits ++ rest).takeWhile isDigit = digits := by
  rw [List.takeWhile_append_of_pos hd]
  cases rest with
  | nil => simp
  | cons c rest => simp [hr c rfl]

theorem dropWhile_digits {digits rest : List Char} (hd : ∀ c ∈ digits, isDigit c = true)
    (hr : EndsDigits rest) : (digits ++ rest).dropWhile isDigit = rest := by
  rw [List.dropWhile_append_of_pos hd]
  cases rest with
  | nil => rfl
  | cons c rest => simp [hr c rfl]

/-- The integer part of a number: a zero alone, or digits that do not start with one. -/
inductive IsWhole : List Char → Prop
  | zero : IsWhole ['0']
  | digits {c : Char} {rest : List Char} (hz : c ≠ '0')
      (hd : ∀ d ∈ c :: rest, isDigit d = true) : IsWhole (c :: rest)

theorem splitWhole_append {whole rest : List Char} (hw : IsWhole whole) (hr : EndsDigits rest) :
    splitWhole (whole ++ rest) = (whole, rest) := by
  cases hw with
  | zero => rfl
  | @digits c tail hz hd =>
      have hs : splitWhole (c :: tail ++ rest) =
          ((c :: tail ++ rest).takeWhile isDigit, (c :: tail ++ rest).dropWhile isDigit) := by
        rw [List.cons_append]
        unfold splitWhole
        split
        · rename_i heq
          cases heq
          exact absurd rfl hz
        · rfl
      rw [hs, takeWhile_digits hd hr, dropWhile_digits hd hr]

theorem IsWhole.head_isDigit {whole : List Char} (hw : IsWhole whole) :
    ∃ c rest, whole = c :: rest ∧ isDigit c = true := by
  cases hw with
  | zero => exact ⟨'0', [], rfl, rfl⟩
  | @digits c tail hz hd => exact ⟨c, tail, rfl, hd c List.mem_cons_self⟩

theorem isWhole_natDigits (n : Nat) : IsWhole (natDigits n) := by
  rcases Nat.eq_zero_or_pos n with hn | hn
  · rw [hn, Decimal.natDigits_of_lt (by omega)]
    exact IsWhole.zero
  · obtain ⟨c, rest, hd, -, hz⟩ := Decimal.exists_cons_natDigits hn
    rw [hd]
    refine IsWhole.digits hz fun d hm => Decimal.isDigit_of_mem_natDigits (n := n) ?_
    rw [hd]
    exact hm

theorem splitFraction_point {digits rest : List Char} (hne : digits ≠ [])
    (hd : ∀ c ∈ digits, isDigit c = true) (hr : EndsDigits rest) :
    splitFraction ('.' :: (digits ++ rest)) = (digits, rest) := by
  simp only [splitFraction, takeWhile_digits hd hr, dropWhile_digits hd hr, List.isEmpty_iff,
    if_neg hne]

theorem splitFraction_of_ne {rest : List Char} (h : ∀ c ∈ rest.head?, c ≠ '.') :
    splitFraction rest = ([], rest) := by
  unfold splitFraction
  split
  · exact absurd rfl (h '.' rfl)
  · rfl

theorem splitExponent_of_ne {rest : List Char} (h : ∀ c ∈ rest.head?, c ≠ 'e' ∧ c ≠ 'E') :
    splitExponent rest = (none, rest) := by
  cases rest with
  | nil => rfl
  | cons c rest =>
      have hc := h c rfl
      simp [splitExponent, hc.1, hc.2]

theorem splitExponent_sign (negative : Bool) {digits rest : List Char} (hne : digits ≠ [])
    (hd : ∀ c ∈ digits, isDigit c = true) (hr : EndsDigits rest) :
    splitExponent ('e' :: (if negative then '-' else '+') :: (digits ++ rest)) =
      (some (if negative then -(ofDigits digits : Int) else ofDigits digits), rest) := by
  cases negative <;>
    simp [splitExponent, Decimal.splitSign, takeWhile_digits hd hr, dropWhile_digits hd hr, hne]

def signed (negative : Bool) (text : List Char) : List Char :=
  if negative then '-' :: text else text

theorem splitMinus_signed {negative : Bool} {text : List Char} (h : text.head? ≠ some '-') :
    splitMinus (signed negative text) = (negative, text) := by
  cases negative with
  | true => rfl
  | false =>
      unfold splitMinus signed
      split
      · rename_i heq
        rw [if_neg (by simp)] at heq
        exact absurd (by rw [heq]; rfl) h
      · rfl

theorem readNumber_signed {limit : Option Nat} {negative : Bool}
    {whole fraction after rest after' : List Char} {exponent : Option Int} (hw : IsWhole whole)
    (ha : EndsDigits after) (hf : splitFraction after = (fraction, after'))
    (he : splitExponent after' = (exponent, rest)) :
    readNumber limit (signed negative (whole ++ after)) =
      if fraction.isEmpty && exponent.isNone then
        if admits limit whole.length then
          .done (.int (if negative then -(ofDigits whole : Int) else ofDigits whole)) rest
        else .longInteger
      else
        .done (.float (Decimal.rounded
          ⟨negative, ofDigits (whole ++ fraction), exponent.getD 0 - fraction.length⟩)) rest := by
  have hs := splitWhole_append hw ha
  obtain ⟨c, tail, hc, hd⟩ := hw.head_isDigit
  have hne : whole.isEmpty = false := by
    rw [hc]
    rfl
  have hminus : (whole ++ after).head? ≠ some '-' := by
    rw [hc, List.cons_append, List.head?_cons]
    rintro ⟨⟩
    cases hd
  simp only [readNumber, splitMinus_signed hminus, hs, hne, hf, he, Bool.false_eq_true, if_false]

/-! ## Integers -/

theorem intDigits_eq (n : Int) :
    Decimal.intDigits n = signed (decide (n < 0)) (natDigits n.natAbs) := by
  cases n with
  | ofNat n => simp [Decimal.intDigits, signed]
  | negSucc n => simp [Decimal.intDigits, signed]

theorem readNumber_intDigits {limit : Option Nat} {n : Int}
    (hn : admits limit (natDigits n.natAbs).length = true) {rest : List Char}
    (hr : EndsNumber rest) :
    readNumber limit (Decimal.intDigits n ++ rest) = .done (.int n) rest := by
  have hf : splitFraction rest = ([], rest) := splitFraction_of_ne fun c hc => (hr c hc).2.1
  have he : splitExponent rest = (none, rest) := splitExponent_of_ne fun c hc => (hr c hc).2.2
  have hs : Decimal.intDigits n ++ rest =
      signed (decide (n < 0)) (natDigits n.natAbs ++ rest) := by
    rw [intDigits_eq]
    unfold signed
    split <;> rfl
  rw [hs, readNumber_signed (isWhole_natDigits _) hr.endsDigits hf he]
  simp only [List.isEmpty_nil, Option.isNone_none, Bool.and_self, if_true,
    if_pos hn, Decimal.ofDigits_natDigits]
  congr 2
  by_cases hneg : n < 0
  · simp only [hneg, decide_true, if_true]
    omega
  · simp only [hneg, decide_false, Bool.false_eq_true, if_false]
    omega

/-! ## Numerals -/

theorem readNumber_point {limit : Option Nat} (negative : Bool)
    {whole fraction rest : List Char} (hw : IsWhole whole) (hne : fraction ≠ [])
    (hd : ∀ c ∈ fraction, isDigit c = true) (hr : EndsNumber rest) :
    readNumber limit (signed negative (whole ++ '.' :: fraction) ++ rest) =
      .done (.float (Decimal.rounded ⟨negative, ofDigits (whole ++ fraction), -fraction.length⟩))
        rest := by
  have hs : signed negative (whole ++ '.' :: fraction) ++ rest =
      signed negative (whole ++ '.' :: (fraction ++ rest)) := by
    cases negative <;> simp [signed]
  have he : splitExponent rest = (none, rest) := splitExponent_of_ne fun c hc => (hr c hc).2.2
  rw [hs, readNumber_signed hw (endsDigits_cons rfl) (splitFraction_point hne hd hr.endsDigits) he]
  simp [hne]

theorem readNumber_scientific {limit : Option Nat} (negative negativePower : Bool)
    {whole fraction power rest : List Char} (hw : IsWhole whole)
    (hd : ∀ c ∈ fraction, isDigit c = true) (hne : power ≠ []) (hp : ∀ c ∈ power, isDigit c = true) (hr : EndsNumber rest) :
    readNumber limit (signed negative (whole ++ (if fraction.isEmpty then [] else '.' :: fraction) ++
        'e' :: (if negativePower then '-' else '+') :: power) ++ rest) =
      .done (.float (Decimal.rounded
        ⟨negative, ofDigits (whole ++ fraction),
          (if negativePower then -(ofDigits power : Int) else ofDigits power) - fraction.length⟩))
        rest := by
  let after : List Char := 'e' :: (if negativePower then '-' else '+') :: (power ++ rest)
  have he := splitExponent_sign negativePower hne hp hr.endsDigits
  have hafter : EndsDigits after := endsDigits_cons rfl
  by_cases hf : fraction = []
  · have hs : signed negative (whole ++ (if fraction.isEmpty then [] else '.' :: fraction) ++
        'e' :: (if negativePower then '-' else '+') :: power) ++ rest =
          signed negative (whole ++ after) := by
      cases negative <;> simp [signed, hf, after]
    have hpoint : splitFraction after = ([], after) := by
      apply splitFraction_of_ne
      intro c hc
      cases hc
      decide
    rw [hs, readNumber_signed hw hafter hpoint he]
    simp [hf]
  · have hs : signed negative (whole ++ (if fraction.isEmpty then [] else '.' :: fraction) ++
        'e' :: (if negativePower then '-' else '+') :: power) ++ rest =
          signed negative (whole ++ '.' :: (fraction ++ after)) := by
      cases negative <;> simp [signed, hf, after]
    rw [hs, readNumber_signed hw (endsDigits_cons rfl) (splitFraction_point hf hd hafter) he]
    simp

variable {x : Decimal}

/-- What reading the text of a numeral with the digits of its coefficient gives. -/
theorem rounded_of_parts {negative : Bool} {coefficient k : Nat} {exponent : Int}
    (hs : negative = x.negative) (hc : coefficient = x.coefficient * 10 ^ k)
    (he : x.coefficient = 0 ∨ exponent + k = x.exponent) :
    (⟨negative, coefficient, exponent⟩ : Decimal).rounded = x.rounded := by
  apply Decimal.rounded_congr hs
  rcases he with he | he
  · simp [Decimal.magnitude, hc, he]
  · rw [Decimal.magnitude, Decimal.magnitude, ← he, hc, zpow_add₀ (by norm_num), zpow_natCast]
    push_cast
    ring

theorem IsWhole.isDigit {whole : List Char} (hw : IsWhole whole) :
    ∀ c ∈ whole, isDigit c = true := by
  cases hw with
  | zero =>
      intro c hc
      rw [List.mem_singleton.mp hc]
      rfl
  | digits hz hd => exact hd

theorem isDigit_of_mem_replicate {k : Nat} {c : Char} (h : c ∈ List.replicate k '0') :
    isDigit c = true := by
  rw [List.eq_of_mem_replicate h]
  rfl

/-- A front of a whole that is not empty is a whole. -/
theorem IsWhole.take {digits : List Char} (hw : IsWhole digits) {n : Nat} (hn : 0 < n) :
    IsWhole (digits.take n) := by
  obtain ⟨m, rfl⟩ := Nat.exists_eq_succ_of_ne_zero hn.ne'
  cases hw with
  | zero =>
      rw [Nat.succ_eq_add_one, List.take_succ_cons, List.take_nil]
      exact IsWhole.zero
  | @digits c rest hc hd =>
      rw [Nat.succ_eq_add_one, List.take_succ_cons]
      apply IsWhole.digits hc
      intro d hm
      rcases List.mem_cons.mp hm with rfl | hm
      · exact hd d List.mem_cons_self
      · exact hd d (List.mem_cons_of_mem _ (List.mem_of_mem_take hm))

theorem IsWhole.append_zeros {digits : List Char} (hw : IsWhole digits) {n : Nat}
    (hz : digits = ['0'] → n = 0) : IsWhole (digits ++ List.replicate n '0') := by
  cases hw with
  | zero =>
      rw [hz rfl]
      exact IsWhole.zero
  | @digits c rest hc hd =>
      apply IsWhole.digits hc
      intro d hm
      have hm' : d ∈ (c :: rest) ++ List.replicate n '0' := hm
      rcases List.mem_append.mp hm' with hm | hm
      · exact hd d hm
      · exact isDigit_of_mem_replicate hm

/-! ## Positional texts -/

/-- The positional text has these digits before and behind its point. They are the given ones with
`k` zeros behind them. -/
structure Places (digits : List Char) (whole : Int) (front fraction : List Char) (k : Nat) :
    Prop where
  text : Decimal.positional digits whole = front ++ '.' :: fraction
  isWhole : IsWhole front
  fraction_ne : fraction ≠ []
  fraction_isDigit : ∀ c ∈ fraction, isDigit c = true
  value : ofDigits (front ++ fraction) = ofDigits digits * 10 ^ k
  scale : (k : Int) - fraction.length = whole - digits.length

variable {digits : List Char} {whole : Int}

theorem places_of_nonpos (hw : IsWhole digits) (hle : whole ≤ 0) :
    Places digits whole ['0'] (List.replicate (-whole).toNat '0' ++ digits) 0 where
  text := by
    rw [Decimal.positional, if_pos hle]
    rfl
  isWhole := IsWhole.zero
  fraction_ne := by
    obtain ⟨c, rest, hd, -⟩ := hw.head_isDigit
    simp [hd]
  fraction_isDigit c hc := by
    rcases List.mem_append.mp hc with hc | hc
    · exact isDigit_of_mem_replicate hc
    · exact hw.isDigit c hc
  value := by
    rw [Decimal.ofDigits_append, Decimal.ofDigits_append, Decimal.ofDigits_replicate_zero,
      Decimal.ofDigits_singleton]
    simp
  scale := by
    rw [List.length_append, List.length_replicate]
    push_cast
    omega

theorem places_of_length_le (hw : IsWhole digits) (hz : digits = ['0'] → whole ≤ 1)
    (hpos : 0 < whole) (hlen : digits.length ≤ whole.toNat) :
    Places digits whole (digits ++ List.replicate (whole.toNat - digits.length) '0') ['0']
      (whole.toNat - digits.length + 1) where
  text := by
    have htake : (digits ++ List.replicate (whole.toNat - digits.length) '0').take whole.toNat =
        digits ++ List.replicate (whole.toNat - digits.length) '0' := by
      apply List.take_of_length_le
      rw [List.length_append, List.length_replicate]
      omega
    simp only [Decimal.positional, if_neg (Int.not_le.mpr hpos), if_pos hlen, htake]
  isWhole := by
    apply hw.append_zeros
    intro h
    have hone := hz h
    rw [h, List.length_singleton]
    omega
  fraction_ne := by simp
  fraction_isDigit c hc := by
    rw [List.mem_singleton.mp hc]
    rfl
  value := by
    have hzero : ('0' : Char).toNat - 48 = 0 := rfl
    rw [Decimal.ofDigits_append, Decimal.ofDigits_append, Decimal.ofDigits_replicate_zero,
      Decimal.ofDigits_singleton, List.length_replicate, List.length_singleton, hzero]
    ring
  scale := by
    simp only [List.length_singleton]
    omega

theorem places_of_lt (hw : IsWhole digits) (hpos : 0 < whole)
    (hlen : ¬ digits.length ≤ whole.toNat) :
    Places digits whole (digits.take whole.toNat) (digits.drop whole.toNat) 0 where
  text := by
    have hzeros : whole.toNat - digits.length = 0 := by omega
    simp only [Decimal.positional, if_neg (Int.not_le.mpr hpos), if_neg hlen, hzeros,
      List.replicate_zero, List.append_nil]
  isWhole := hw.take (by omega)
  fraction_ne := by
    simp only [ne_eq, List.drop_eq_nil_iff]
    omega
  fraction_isDigit c hc := hw.isDigit c (List.mem_of_mem_drop hc)
  value := by
    rw [List.take_append_drop]
    simp
  scale := by
    rw [List.length_drop]
    omega

theorem exists_places (hw : IsWhole digits) (hz : digits = ['0'] → whole ≤ 1) :
    ∃ front fraction k, Places digits whole front fraction k := by
  by_cases hle : whole ≤ 0
  · exact ⟨_, _, _, places_of_nonpos hw hle⟩
  · have hpos : 0 < whole := Int.not_le.mp hle
    by_cases hlen : digits.length ≤ whole.toNat
    · exact ⟨_, _, _, places_of_length_le hw hz hpos hlen⟩
    · exact ⟨_, _, _, places_of_lt hw hpos hlen⟩

def textPower (x : Decimal) : Int :=
  if x.coefficient = 0 then 0 else x.exponent + (natDigits x.coefficient).length - 1

theorem textPower_cases (x : Decimal) :
    x.coefficient = 0 ∨ textPower x = x.exponent + (natDigits x.coefficient).length - 1 := by
  by_cases h : x.coefficient = 0
  · exact Or.inl h
  · exact Or.inr (if_neg h)

theorem finiteText_eq (x : Decimal) :
    x.finiteText = signed x.negative
      (if -4 ≤ textPower x && textPower x < 16 then
        Decimal.positional (natDigits x.coefficient) (textPower x + 1)
      else Decimal.scientific (natDigits x.coefficient) (textPower x)) :=
  rfl

theorem readNumber_positional {limit : Option Nat} (x : Decimal) {rest : List Char}
    (hr : EndsNumber rest) :
    readNumber limit (signed x.negative
        (Decimal.positional (natDigits x.coefficient) (textPower x + 1)) ++ rest) =
      .done (.float x.rounded) rest := by
  have hz : natDigits x.coefficient = ['0'] → textPower x + 1 ≤ 1 := by
    intro h
    have hc := Decimal.ofDigits_natDigits x.coefficient
    rw [h, Decimal.ofDigits_singleton] at hc
    have hc' : x.coefficient = 0 := hc.symm
    simp [textPower, hc']
  obtain ⟨front, fraction, k, hp⟩ := exists_places (isWhole_natDigits x.coefficient) hz
  have hvalue := hp.value
  rw [Decimal.ofDigits_natDigits] at hvalue
  have hexp : x.coefficient = 0 ∨ -(fraction.length : Int) + k = x.exponent := by
    rcases textPower_cases x with hl | hl
    · exact Or.inl hl
    · have hs := hp.scale
      exact Or.inr (by omega)
  rw [hp.text, readNumber_point _ hp.isWhole hp.fraction_ne hp.fraction_isDigit hr]
  rw [rounded_of_parts rfl hvalue hexp]

/-! ## Scientific texts -/

def exponentDigits (n : Nat) : List Char :=
  if (natDigits n).length < 2 then '0' :: natDigits n else natDigits n

theorem exponentDigits_ne_nil (n : Nat) : exponentDigits n ≠ [] := by
  unfold exponentDigits
  split
  · simp
  · obtain ⟨d, rest, hd, -⟩ := (isWhole_natDigits n).head_isDigit
    simp [hd]

theorem isDigit_of_mem_exponentDigits {n : Nat} {c : Char} (h : c ∈ exponentDigits n) :
    isDigit c = true := by
  unfold exponentDigits at h
  split at h
  · rcases List.mem_cons.mp h with rfl | h
    · rfl
    · exact (isWhole_natDigits n).isDigit c h
  · exact (isWhole_natDigits n).isDigit c h

theorem ofDigits_exponentDigits (n : Nat) : ofDigits (exponentDigits n) = n := by
  unfold exponentDigits
  split
  · rw [← List.singleton_append, Decimal.ofDigits_append, Decimal.ofDigits_singleton,
      Decimal.ofDigits_natDigits]
    simp
  · exact Decimal.ofDigits_natDigits n

theorem scientific_eq (digits : List Char) (power : Int) :
    Decimal.scientific digits power =
      digits.take 1 ++ (if (digits.drop 1).isEmpty then [] else '.' :: digits.drop 1) ++
        'e' :: (if decide (power < 0) then '-' else '+') :: exponentDigits power.natAbs := by
  simp only [Decimal.scientific, exponentDigits, decide_eq_true_eq]

theorem signed_natAbs (power : Int) :
    (if decide (power < 0) then -(power.natAbs : Int) else power.natAbs) = power := by
  by_cases h : power < 0
  · simp only [h, decide_true, if_true]
    omega
  · simp only [h, decide_false, Bool.false_eq_true, if_false]
    omega

theorem readNumber_exponential {limit : Option Nat} (x : Decimal) (hx : x.coefficient ≠ 0)
    {rest : List Char} (hr : EndsNumber rest) :
    readNumber limit (signed x.negative
        (Decimal.scientific (natDigits x.coefficient) (textPower x)) ++ rest) =
      .done (.float x.rounded) rest := by
  have hw := isWhole_natDigits x.coefficient
  have hdrop : ∀ d ∈ (natDigits x.coefficient).drop 1, isDigit d = true :=
    fun d hm => hw.isDigit d (List.mem_of_mem_drop hm)
  have hpower : textPower x = x.exponent + (natDigits x.coefficient).length - 1 :=
    (textPower_cases x).resolve_left hx
  have hcoefficient : x.coefficient = x.coefficient * 10 ^ 0 := by simp
  have hexp : textPower x - ((natDigits x.coefficient).drop 1).length + (0 : ℕ) = x.exponent := by
    have hl := Decimal.length_natDigits_pos x.coefficient
    rw [List.length_drop]
    omega
  rw [scientific_eq, readNumber_scientific _ _ (hw.take Nat.one_pos) hdrop
    (exponentDigits_ne_nil _) (fun _ => isDigit_of_mem_exponentDigits) hr,
    List.take_append_drop, Decimal.ofDigits_natDigits, ofDigits_exponentDigits, signed_natAbs]
  rw [rounded_of_parts rfl hcoefficient (Or.inr hexp)]

theorem readNumber_finiteText (limit : Option Nat) (x : Decimal) {rest : List Char}
    (hr : EndsNumber rest) :
    readNumber limit (x.finiteText ++ rest) = .done (.float x.rounded) rest := by
  rw [finiteText_eq]
  split
  · exact readNumber_positional x hr
  · rename_i hrange
    have hx : x.coefficient ≠ 0 := by
      intro h
      have hp : textPower x = 0 := if_pos h
      simp [hp] at hrange
    exact readNumber_exponential x hx hr

end Sitewright.Json
