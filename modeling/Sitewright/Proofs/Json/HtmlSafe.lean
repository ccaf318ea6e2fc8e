import Mathlib.Data.List.Basic
import Sitewright.Proofs.Json.Text
import Sitewright.Proofs.Text.Alphabet
import Sitewright.Template.Basic

/-!
# Literals in HTML

A text that a template shows as a literal is written in ASCII as for any other purpose, and then the
four characters that mean something in HTML are written by their codes as well. These stand only for
themselves in what has been written before, so the literal still reads as the text.
-/

namespace Sitewright.Json

def isMarkup (c : Char) : Bool :=
  c = '<' || c = '>' || c = '&' || c = '\''

theorem htmlSafeChar_eq (c : Char) :
    htmlSafeChar c = if isMarkup c then unicodeEscape c.toNat else [c] := by
  simp [htmlSafeChar, isMarkup]

theorem eq_of_isMarkup {c : Char} (h : isMarkup c = true) :
    c = '<' ∨ c = '>' ∨ c = '&' ∨ c = '\'' := by
  simpa [isMarkup, or_assoc] using h

theorem isMarkup_of_isSlugChar {c : Char} (h : Text.isSlugChar c = true) : isMarkup c = false := by
  rw [Bool.eq_false_iff]
  intro hc
  rcases eq_of_isMarkup hc with rfl | rfl | rfl | rfl <;> cases h

/-! ## What escapes are made of -/

theorem mem_unicodeEscape {code : Nat} {d : Char} (h : d ∈ unicodeEscape code) :
    d = '\\' ∨ Text.isSlugChar d = true := by
  rcases List.mem_cons.mp h with hd | hd
  · exact .inl hd
  · rcases List.mem_cons.mp hd with rfl | hd
    · exact .inr rfl
    · exact .inr (Text.isSlugChar_of_mem_hex hd)

theorem mem_codeEscape {c d : Char} (h : d ∈ codeEscape c) :
    d = '\\' ∨ Text.isSlugChar d = true := by
  simp only [codeEscape] at h
  split_ifs at h
  · exact mem_unicodeEscape h
  · exact (List.mem_append.mp h).elim mem_unicodeEscape mem_unicodeEscape

/-- In ASCII a character is written as itself, if it is visible, or by letters and digits behind a
backslash. -/
theorem mem_escapeChar {c d : Char} (h : d ∈ escapeChar true c) :
    d = '\\' ∨ Text.isSlugChar d = true ∨ d = c ∧ Text.isVisible c = true := by
  have hletter {e : Char} (he : Text.isSlugChar e = true) (hd : d ∈ ['\\', e]) :
      d = '\\' ∨ Text.isSlugChar d = true ∨ d = c ∧ Text.isVisible c = true :=
    (List.mem_pair.mp hd).imp_right fun hd : d = e => .inl (hd ▸ he)
  unfold escapeChar at h
  split_ifs at h with hq hn hr ht hf hb he
  · refine (List.mem_pair.mp h).imp_right fun hd => .inr ⟨hd, ?_⟩
    simp only [Bool.or_eq_true, decide_eq_true_eq] at hq
    rcases hq with rfl | rfl <;> rfl
  · exact hletter rfl h
  · exact hletter rfl h
  · exact hletter rfl h
  · exact hletter rfl h
  · exact hletter rfl h
  · exact (mem_codeEscape h).imp_right .inl
  · simp only [Bool.or_eq_true, Bool.true_and, decide_eq_true_eq, not_or, not_lt, not_le] at he
    refine .inr (.inr ⟨List.mem_singleton.mp h, ?_⟩)
    rw [Text.isVisible_iff]
    omega

/-! ## Texts as literals -/

def literalChar (c : Char) : List Char :=
  (escapeChar true c).flatMap htmlSafeChar

theorem flatMap_htmlSafeChar {text : List Char} (h : ∀ c ∈ text, isMarkup c = false) :
    text.flatMap htmlSafeChar = text := by
  induction text with
  | nil => rfl
  | cons c text ih =>
      obtain ⟨hc, htext⟩ := List.forall_mem_cons.mp h
      rw [List.flatMap_cons, ih htext, htmlSafeChar_eq, hc]
      rfl

theorem literalChar_eq (c : Char) :
    literalChar c = if isMarkup c then unicodeEscape c.toNat else escapeChar true c := by
  cases hc : isMarkup c with
  | true => rcases eq_of_isMarkup hc with rfl | rfl | rfl | rfl <;> rfl
  | false =>
      apply flatMap_htmlSafeChar
      intro d hd
      rcases mem_escapeChar hd with rfl | hd | ⟨rfl, -⟩
      · rfl
      · exact isMarkup_of_isSlugChar hd
      · exact hc

theorem readsAs_literalChar (start : List Char) (c : Char) : ReadsAs start (literalChar c) c := by
  rw [literalChar_eq]
  cases hc : isMarkup c with
  | true =>
      have hsmall : c.toNat < 0x10000 := by
        rcases eq_of_isMarkup hc with rfl | rfl | rfl | rfl <;> decide
      exact readsAs_of_unit fun rest hr => readUnits_unicodeEscape start hsmall hr
  | false => exact readsAs_escapeChar start true c

/-- A literal is made of visible characters of ASCII that mean nothing in HTML. -/
theorem mem_literalChar {c d : Char} (h : d ∈ literalChar c) :
    Text.isVisible d = true ∧ isMarkup d = false := by
  rw [literalChar_eq] at h
  have hslash : Text.isVisible '\\' = true ∧ isMarkup '\\' = false := by decide
  have hletter {e : Char} (he : Text.isSlugChar e = true) :
      Text.isVisible e = true ∧ isMarkup e = false :=
    ⟨Text.isVisible_of_isPackageChar (Text.isPackageChar_of_isSlugChar he),
      isMarkup_of_isSlugChar he⟩
  split_ifs at h with hc
  · rcases mem_unicodeEscape h with rfl | hd
    · exact hslash
    · exact hletter hd
  · rcases mem_escapeChar h with rfl | hd | ⟨rfl, hvisible⟩
    · exact hslash
    · exact hletter hd
    · exact ⟨hvisible, Bool.eq_false_iff.mpr hc⟩

def literalBody (text : String) : List Char :=
  text.toList.flatMap literalChar

theorem toList_htmlSafe (text : String) :
    (Json.string text).htmlSafe.toList = '"' :: (literalBody text ++ ['"']) := by
  have hchars : (Json.string text).sortKeys.chars .asciiLine 0 = printString true text := rfl
  have hquote : ['"'].flatMap htmlSafeChar = ['"'] := rfl
  rw [htmlSafe, String.toList_ofList, hchars, printString, ← List.singleton_append,
    List.flatMap_append, List.flatMap_append, hquote, List.flatMap_assoc]
  rfl

theorem isSafe_of_mem_htmlSafe {text : String} {c : Char}
    (h : c ∈ (Json.string text).htmlSafe.toList) :
    Text.isVisible c = true ∧ isMarkup c = false := by
  have hquote : Text.isVisible '"' = true ∧ isMarkup '"' = false := by decide
  rw [toList_htmlSafe, List.mem_cons, List.mem_append, List.mem_singleton] at h
  rcases h with rfl | hc | rfl
  · exact hquote
  · obtain ⟨d, -, hd⟩ := List.mem_flatMap.mp hc
    exact mem_literalChar hd
  · exact hquote

/-- Whatever follows a literal, it is read up to its last quote and no further. -/
theorem readString_literalBody (text : String) (rest : List Char) :
    readString (literalBody text ++ '"' :: rest) = .done text rest :=
  readString_escaped readsAs_literalChar text rest

theorem read_htmlSafe (text : String) : read (Json.string text).htmlSafe = .ok (.string text) := by
  have hread : readAll (some Decimal.maxDigits) ('"' :: (literalBody text ++ ['"'])) =
      .ok (.string text) := by
    have hstart : skipSpace ('"' :: (literalBody text ++ ['"'])) =
        '"' :: (literalBody text ++ ['"']) := rfl
    rw [readAll, hstart, readValue, readString_literalBody]
    rfl
  rw [read, toList_htmlSafe, ofChars, ofCharsWithin, hread]
  rfl

example : (Json.string "</title>\"\u00E9").htmlSafe = "\"\\u003c/title\\u003e\\\"\\u00e9\"" :=
  rfl

end Sitewright.Json
