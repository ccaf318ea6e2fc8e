import Sitewright.Text.Quoted
import Sitewright.Text.Slug

/-!
# Alphabets

Slugs are made of letters a to z and digits, and package names of these and dashes. The codes within
escapes are written in hexadecimal, hence with characters of slugs. All of these characters are
visible ASCII and none of them is blank.
-/

namespace Sitewright.Text

def isVisible (c : Char) : Bool :=
  0x20 ≤ c.toNat && c.toNat ≤ 0x7E

theorem isVisible_iff {c : Char} : isVisible c = true ↔ 0x20 ≤ c.toNat ∧ c.toNat ≤ 0x7E := by
  rw [isVisible, Bool.and_eq_true, decide_eq_true_eq, decide_eq_true_eq]

def isPackageChar (c : Char) : Bool :=
  isSlugChar c || c == '-'

theorem isSlugChar_iff {c : Char} :
    isSlugChar c = true ↔ 0x61 ≤ c.toNat ∧ c.toNat ≤ 0x7A ∨ 0x30 ≤ c.toNat ∧ c.toNat ≤ 0x39 := by
  simp only [isSlugChar, Bool.or_eq_true, Bool.and_eq_true, decide_eq_true_eq, Char.le_def,
    UInt32.le_iff_toNat_le]
  rfl

theorem isSlugChar_dash : isSlugChar '-' = false := by
  decide

theorem ne_dash_of_isSlugChar {c : Char} (h : isSlugChar c = true) : c ≠ '-' := by
  rintro rfl
  exact absurd h (by decide)

theorem isSlugChar_of_isBlank {c : Char} (h : isBlank c = true) : isSlugChar c = false := by
  simp only [isBlank, isSpace, isSeparator, Bool.or_eq_true, Bool.and_eq_true, decide_eq_true_eq,
    beq_iff_eq] at h
  rw [Bool.eq_false_iff, Ne, isSlugChar_iff]
  omega

theorem toNat_of_isPackageChar {c : Char} (h : isPackageChar c = true) :
    c.toNat = 0x2D ∨ 0x30 ≤ c.toNat ∧ c.toNat ≤ 0x39 ∨ 0x61 ≤ c.toNat ∧ c.toNat ≤ 0x7A := by
  rw [isPackageChar, Bool.or_eq_true, isSlugChar_iff, beq_iff_eq] at h
  rcases h with (h | h) | rfl
  · exact .inr (.inr h)
  · exact .inr (.inl h)
  · exact .inl rfl

theorem isPackageChar_of_isSlugChar {c : Char} (h : isSlugChar c = true) :
    isPackageChar c = true := by
  rw [isPackageChar, h, Bool.true_or]

theorem isVisible_of_isPackageChar {c : Char} (h : isPackageChar c = true) :
    isVisible c = true := by
  have hcode := toNat_of_isPackageChar h
  rw [isVisible_iff]
  omega

theorem isSlugChar_hexDigit : ∀ n < 16, isSlugChar (hexDigit n) = true := by
  decide

theorem isSlugChar_of_mem_hex {width n : Nat} {c : Char} (h : c ∈ hex width n) :
    isSlugChar c = true := by
  induction width generalizing n with
  | zero => cases h
  | succ width ih =>
      rcases List.mem_append.mp h with hc | hc
      · exact ih hc
      · rw [List.mem_singleton.mp hc]
        exact isSlugChar_hexDigit _ (Nat.mod_lt n (by decide))

end Sitewright.Text
