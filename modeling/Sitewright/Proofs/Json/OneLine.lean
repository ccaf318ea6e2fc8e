import Sitewright.Json.Printer
import Sitewright.Proofs.Decimal.Digits
import Sitewright.Proofs.Text.Alphabet

/-!
# JSON on one line

Control characters inside texts are written by escapes, and outside of texts nothing but the layout
could bring in a line feed. So a value that is printed without indentation has no control character
in it and stands on one line, whatever its texts are.
-/

namespace Sitewright

def Text.Visible (text : List Char) : Prop :=
  ∀ c ∈ text, isVisible c = true

def Text.Uncontrolled (text : List Char) : Prop :=
  ∀ c ∈ text, 0x20 ≤ c.toNat

section

variable {text rest : List Char} {c : Char}

namespace Text.Visible

@[simp] theorem nil : Visible [] :=
  fun _ hc => nomatch hc

@[simp] theorem cons_iff :
    Visible (c :: text) ↔ (0x20 ≤ c.toNat ∧ c.toNat ≤ 0x7E) ∧ Visible text := by
  rw [← isVisible_iff]
  exact List.forall_mem_cons

@[simp] theorem append_iff : Visible (text ++ rest) ↔ Visible text ∧ Visible rest :=
  List.forall_mem_append

theorem of_subset (h : Visible text) (hs : rest ⊆ text) : Visible rest :=
  fun c hc => h c (hs hc)

theorem of_isDigit (h : ∀ c ∈ text, Decimal.isDigit c = true) : Visible text := by
  intro c hc
  have hdigit := Decimal.isDigit_iff.mp (h c hc)
  rw [isVisible_iff]
  omega

theorem uncontrolled (h : Visible text) : Uncontrolled text :=
  fun c hc => (isVisible_iff.mp (h c hc)).1

end Text.Visible

namespace Text.Uncontrolled

@[simp] theorem nil : Uncontrolled [] :=
  fun _ hc => nomatch hc

@[simp] theorem cons_iff : Uncontrolled (c :: text) ↔ 0x20 ≤ c.toNat ∧ Uncontrolled text :=
  List.forall_mem_cons

@[simp] theorem append_iff : Uncontrolled (text ++ rest) ↔ Uncontrolled text ∧ Uncontrolled rest :=
  List.forall_mem_append

theorem lineFeed_not_mem (h : Uncontrolled text) : '\n' ∉ text :=
  fun hm => absurd (h '\n' hm) (by decide)

end Text.Uncontrolled

end

open Text

/-! ## Numbers -/

namespace Decimal

theorem visible_natDigits (n : Nat) : Visible (natDigits n) :=
  .of_isDigit fun _ => isDigit_of_mem_natDigits

theorem visible_zeros (k : Nat) : Visible (List.replicate k '0') := by
  intro c hc
  rw [List.eq_of_mem_replicate hc]
  decide

theorem visible_intDigits (n : Int) : Visible (intDigits n) := by
  cases n with
  | ofNat n => exact visible_natDigits n
  | negSucc n => exact Visible.cons_iff.mpr ⟨by decide, visible_natDigits _⟩

variable {digits : List Char}

theorem visible_positional (h : Visible digits) (whole : Int) :
    Visible (positional digits whole) := by
  have hpadded (k : Nat) : Visible (digits ++ List.replicate k '0') :=
    Visible.append_iff.mpr ⟨h, visible_zeros k⟩
  unfold positional
  split
  · simp [h, visible_zeros]
  · have hwhole := (hpadded (whole.toNat - digits.length)).of_subset
      (List.take_subset whole.toNat _)
    simp only [Visible.append_iff, Visible.cons_iff]
    refine ⟨hwhole, by decide, ?_⟩
    split
    · simp
    · exact h.of_subset (List.drop_subset _ _)

theorem visible_scientific (h : Visible digits) (power : Int) :
    Visible (scientific digits power) := by
  have hfirst : Visible (digits.take 1) := h.of_subset (List.take_subset _ _)
  have hfraction : Visible digits.tail := fun c hc => h c (List.mem_of_mem_tail hc)
  have hexponent := visible_natDigits power.natAbs
  simp only [scientific, Visible.append_iff, Visible.cons_iff]
  refine ⟨⟨hfirst, ?_⟩, by decide, ?_, ?_⟩ <;> split <;> simp [hfraction, hexponent]

theorem visible_finiteText (x : Decimal) : Visible x.finiteText := by
  have hdigits := visible_natDigits x.coefficient
  have hbody (power : Int) : Visible (if -4 ≤ power && power < 16 then
      positional (natDigits x.coefficient) (power + 1)
      else scientific (natDigits x.coefficient) power) := by
    split
    · exact visible_positional hdigits _
    · exact visible_scientific hdigits _
  unfold finiteText
  dsimp only
  split
  · exact Visible.cons_iff.mpr ⟨by decide, hbody _⟩
  · exact hbody _

theorem visible_text (x : Decimal) : Visible x.text := by
  unfold text infinityText
  split_ifs
  · simp
  · simp
  · simp
  · exact x.visible_finiteText

end Decimal

/-! ## Values -/

namespace Json

variable {style : JsonStyle}

theorem uncontrolled_unicodeEscape (code : Nat) : Uncontrolled (unicodeEscape code) := by
  have hhex : Uncontrolled (Text.hex 4 code) := fun c hc => by
    have hcode := isSlugChar_iff.mp (isSlugChar_of_mem_hex hc)
    omega
  simp [unicodeEscape, hhex]

theorem uncontrolled_escapeChar (ascii : Bool) (c : Char) :
    Uncontrolled (escapeChar ascii c) := by
  unfold escapeChar
  split_ifs with hquote _ _ _ _ _ hcontrol
  · simp only [Bool.or_eq_true, decide_eq_true_eq] at hquote
    rcases hquote with rfl | rfl <;> simp
  · simp
  · simp
  · simp
  · simp
  · simp
  · unfold codeEscape
    dsimp only
    split
    · exact uncontrolled_unicodeEscape _
    · simp [uncontrolled_unicodeEscape]
  -- what is written as itself is no control character
  · simp only [Bool.or_eq_true, decide_eq_true_eq, not_or, Nat.not_lt] at hcontrol
    simp [hcontrol.1]

theorem uncontrolled_printString (ascii : Bool) (text : String) :
    Uncontrolled (printString ascii text) := by
  have hbody : Uncontrolled (text.toList.flatMap (escapeChar ascii)) := by
    intro c hc
    obtain ⟨d, -, hd⟩ := List.mem_flatMap.mp hc
    exact uncontrolled_escapeChar ascii d c hd
  simp [printString, hbody]

theorem visible_floatChars (style : JsonStyle) (x : Decimal) :
    Visible (floatChars style x) := by
  unfold floatChars numberWord
  split_ifs
  · simp
  · simp
  · simp
  · simp
  · exact x.visible_text

mutual

theorem uncontrolled_chars (hs : style.indented = false) (depth : Nat) :
    (value : Json) → Uncontrolled (chars style depth value)
  | .null => by simp [chars]
  | .bool true => by simp [chars]
  | .bool false => by simp [chars]
  | .int n => by
      rw [chars]
      exact (Decimal.visible_intDigits n).uncontrolled
  | .float x => by
      rw [chars]
      exact (visible_floatChars style x).uncontrolled
  | .string text => by
      rw [chars]
      exact uncontrolled_printString style.ascii text
  | .array [] => by simp [chars]
  | .array (item :: items) => by
      have hitem := uncontrolled_chars hs (depth + 1) item
      have hitems := uncontrolled_charsOfItems hs (depth + 1) items
      simp [chars, JsonStyle.lead, hs, hitem, hitems]
  | .object [] => by simp [chars]
  | .object ((key, value) :: fields) => by
      have hkey := uncontrolled_printString style.ascii key
      have hvalue := uncontrolled_chars hs (depth + 1) value
      have hfields := uncontrolled_charsOfFields hs (depth + 1) fields
      simp [chars, JsonStyle.lead, hs, hkey, hvalue, hfields]

theorem uncontrolled_charsOfItems (hs : style.indented = false) (depth : Nat) :
    (items : List Json) → Uncontrolled (charsOfItems style depth items)
  | [] => by simp [charsOfItems]
  | item :: items => by
      have hitem := uncontrolled_chars hs depth item
      have hitems := uncontrolled_charsOfItems hs depth items
      simp [charsOfItems, JsonStyle.separator, hs, hitem, hitems]

theorem uncontrolled_charsOfFields (hs : style.indented = false) (depth : Nat) :
    (fields : List (String × Json)) → Uncontrolled (charsOfFields style depth fields)
  | [] => by simp [charsOfFields]
  | (key, value) :: fields => by
      have hkey := uncontrolled_printString style.ascii key
      have hvalue := uncontrolled_chars hs depth value
      have hfields := uncontrolled_charsOfFields hs depth fields
      simp [charsOfFields, JsonStyle.separator, hs, hkey, hvalue, hfields]

end

/-- A value that is printed without indentation stands on one line. -/
theorem uncontrolled_print (hs : style.indented = false) (value : Json) :
    Uncontrolled (value.print style).toList := by
  rw [print, String.toList_ofList]
  exact uncontrolled_chars hs 0 value

end Json

end Sitewright
