import Mathlib.Tactic.IntervalCases
import Sitewright.Json.Printer
import Sitewright.Json.Reader

/-!
# Reading texts back

A text written between quotes, in either alphabet, reads as itself. A character is read from its
escape as one code unit or, when it was written as a surrogate pair, as two, which are joined again.
-/

namespace Sitewright

namespace Json.Reading

variable {α β γ : Type}

@[simp] theorem map_done (f : α → β) (value : α) (rest : List Char) :
    (Reading.done value rest).map f = .done (f value) rest := rfl

@[simp] theorem andThen_done (value : α) (rest : List Char)
    (next : α → List Char → Reading β) : (Reading.done value rest).andThen next = next value rest :=
  rfl

theorem map_map (reading : Reading α) (f : α → β) (g : β → γ) :
    (reading.map f).map g = reading.map fun value => g (f value) := by
  cases reading with
  | ok result => rfl
  | error stop => rfl

end Json.Reading

namespace Text

theorem hex_four (n : Nat) :
    hex 4 n =
      [hexDigit (n / 16 / 16 / 16 % 16), hexDigit (n / 16 / 16 % 16), hexDigit (n / 16 % 16),
        hexDigit (n % 16)] :=
  rfl

theorem not_surrogate (c : Char) :
    isHighSurrogate c.toNat = false ∧ isLowSurrogate c.toNat = false := by
  have hv : c.toNat < 0xD800 ∨ 0xDFFF < c.toNat ∧ c.toNat < 0x110000 := c.valid
  simp only [isHighSurrogate, isLowSurrogate, Bool.and_eq_false_iff, decide_eq_false_iff_not]
  omega

theorem joinUnits_toNat (c : Char) (units : List Nat) :
    joinUnits (c.toNat :: units) = c :: joinUnits units := by
  obtain ⟨hh, hl⟩ := not_surrogate c
  have hc : charsOfCode c.toNat = [c] := by simp [charsOfCode, hh, hl]
  cases units with
  | nil => simp [joinUnits, hc]
  | cons unit units => simp [joinUnits, hh, hc]

theorem joinUnits_pair {c : Char} (h : 0x10000 ≤ c.toNat) (units : List Nat) :
    joinUnits ((0xD800 + (c.toNat - 0x10000) / 0x400) ::
        (0xDC00 + (c.toNat - 0x10000) % 0x400) :: units) = c :: joinUnits units := by
  have hv : c.toNat < 0xD800 ∨ 0xDFFF < c.toNat ∧ c.toNat < 0x110000 := c.valid
  have hhigh : isHighSurrogate (0xD800 + (c.toNat - 0x10000) / 0x400) = true := by
    simp only [isHighSurrogate, Bool.and_eq_true, decide_eq_true_eq]
    omega
  have hlow : isLowSurrogate (0xDC00 + (c.toNat - 0x10000) % 0x400) = true := by
    simp only [isLowSurrogate, Bool.and_eq_true, decide_eq_true_eq]
    omega
  have hcode : 0x10000 + 0x400 * (0xD800 + (c.toNat - 0x10000) / 0x400 - 0xD800) +
      (0xDC00 + (c.toNat - 0x10000) % 0x400 - 0xDC00) = c.toNat := by
    omega
  simp only [joinUnits, hhigh, hlow, hcode, Bool.and_self, if_true, Char.ofNat_toNat]

end Text

namespace Json

theorem hexValue?_hexDigit {d : Nat} (h : d < 16) : hexValue? (Text.hexDigit d) = some d := by
  interval_cases d <;> rfl

theorem readUnits_unicodeEscape (start : List Char) {code : Nat} (h : code < 0x10000)
    {rest : List Char} (hr : rest ≠ []) :
    readUnits start (unicodeEscape code ++ rest) = (readUnits start rest).map (code :: ·) := by
  obtain ⟨c, tail, rfl⟩ := List.exists_cons_of_ne_nil hr
  have hcode : hexCode? (Text.hexDigit (code / 16 / 16 / 16 % 16))
      (Text.hexDigit (code / 16 / 16 % 16)) (Text.hexDigit (code / 16 % 16))
      (Text.hexDigit (code % 16)) = some code := by
    simp only [hexCode?, hexValue?_hexDigit (Nat.mod_lt _ (by omega : 0 < 16)), Option.bind_eq_bind,
      Option.bind_some, pure, Option.some.injEq]
    omega
  rw [unicodeEscape, Text.hex_four]
  simp only [List.cons_append, List.nil_append]
  rw [readUnits]
  simp only [hcode]

/-- The piece of a printed text is read as one character. -/
def ReadsAs (start piece : List Char) (c : Char) : Prop :=
  ∀ rest : List Char, rest ≠ [] →
    ∃ units, readUnits start (piece ++ rest) = (readUnits start rest).map (units ++ ·) ∧
      ∀ more, Text.joinUnits (units ++ more) = c :: Text.joinUnits more

variable {start piece : List Char} {c : Char}

theorem readsAs_of_unit (h : ∀ rest : List Char, rest ≠ [] →
    readUnits start (piece ++ rest) = (readUnits start rest).map (c.toNat :: ·)) :
    ReadsAs start piece c :=
  fun rest hr => ⟨[c.toNat], h rest hr, Text.joinUnits_toNat c⟩

theorem readsAs_codeEscape (start : List Char) (c : Char) : ReadsAs start (codeEscape c) c := by
  by_cases hsmall : c.toNat < 0x10000
  · simp only [codeEscape, if_pos hsmall]
    exact readsAs_of_unit fun rest hr => readUnits_unicodeEscape start hsmall hr
  · simp only [codeEscape, if_neg hsmall]
    intro rest hr
    have hv : c.toNat < 0xD800 ∨ 0xDFFF < c.toNat ∧ c.toNat < 0x110000 := c.valid
    refine ⟨[0xD800 + (c.toNat - 0x10000) / 0x400, 0xDC00 + (c.toNat - 0x10000) % 0x400], ?_, ?_⟩
    · rw [List.append_assoc, readUnits_unicodeEscape start (by omega) (by simp [unicodeEscape]),
        readUnits_unicodeEscape start (by omega) hr, Reading.map_map]
      rfl
    · intro more
      exact Text.joinUnits_pair (by omega) more

theorem readsAs_self (hquote : c ≠ '"') (hslash : c ≠ '\\') (hcontrol : ¬ c.toNat < 0x20) :
    ReadsAs start [c] c := by
  apply readsAs_of_unit
  intro rest _
  rw [List.singleton_append, readUnits]
  · rw [if_neg hcontrol]
  all_goals simp [hquote, hslash]

theorem readsAs_escapeChar (start : List Char) (ascii : Bool) (c : Char) :
    ReadsAs start (escapeChar ascii c) c := by
  unfold escapeChar
  split_ifs with hq hn hr ht hf hb he
  · simp only [Bool.or_eq_true, decide_eq_true_eq] at hq
    rcases hq with rfl | rfl <;> exact readsAs_of_unit fun _ _ => rfl
  · subst hn
    exact readsAs_of_unit fun _ _ => rfl
  · subst hr
    exact readsAs_of_unit fun _ _ => rfl
  · subst ht
    exact readsAs_of_unit fun _ _ => rfl
  · apply readsAs_of_unit
    intro _ _
    rw [hf]
    rfl
  · apply readsAs_of_unit
    intro _ _
    rw [hb]
    rfl
  · exact readsAs_codeEscape start c
  · simp only [Bool.or_eq_true, decide_eq_true_eq, not_or] at hq he
    exact readsAs_self hq.1 hq.2 he.1

/-! ## Texts written character by character -/

section Escapes

variable {escape : Char → List Char}

theorem readUnits_escaped (h : ∀ start c, ReadsAs start (escape c) c)
    (start text rest : List Char) :
    ∃ units, readUnits start (text.flatMap escape ++ '"' :: rest) = .done units rest ∧
      Text.joinUnits units = text := by
  induction text with
  | nil => exact ⟨[], rfl, rfl⟩
  | cons c text ih =>
      obtain ⟨units, hu, hj⟩ := ih
      have hne : text.flatMap escape ++ '"' :: rest ≠ [] := by simp
      obtain ⟨first, hf, hjoin⟩ := h start c _ hne
      refine ⟨first ++ units, ?_, ?_⟩
      · rw [List.flatMap_cons, List.append_assoc, hf, hu, Reading.map_done]
      · rw [hjoin, hj]

/-- A text whose characters have been written so that each reads as itself is read up to its closing
quote. -/
theorem readString_escaped (h : ∀ start c, ReadsAs start (escape c) c) (text : String)
    (rest : List Char) :
    readString (text.toList.flatMap escape ++ '"' :: rest) = .done text rest := by
  obtain ⟨units, hu, hj⟩ := readUnits_escaped h
    ('"' :: (text.toList.flatMap escape ++ '"' :: rest)) text.toList rest
  rw [readString, hu, Reading.map_done, hj, String.ofList_toList]

end Escapes

theorem readString_printed (ascii : Bool) (text : String) (rest : List Char) :
    readString (text.toList.flatMap (escapeChar ascii) ++ '"' :: rest) = .done text rest :=
  readString_escaped (fun start c => readsAs_escapeChar start ascii c) text rest

end Json

end Sitewright
