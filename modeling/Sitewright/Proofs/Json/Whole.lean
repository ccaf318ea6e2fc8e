import Sitewright.Proofs.Json.HtmlSafe
import Sitewright.Proofs.Json.OneLine

/-!
# What is printed is as whole as its texts

Printing escapes nothing outside of ASCII unless it is told to, and it keeps the texts of a value
apart by quotes. So half a surrogate pair stands alone in what is printed exactly if one does in some
text of the value. In ASCII the halves are escaped, too, and everything printed is whole.
-/

namespace Sitewright

/-! ## Texts -/

namespace Text

variable {text front back : List Char} {c d : Char}

theorem isHalf_of_lt (c : Char) (h : d.toNat < 0xE000) : isHalf c d = false := by
  rw [isHalf, decide_eq_false (by omega : ¬ 0xE000 ≤ d.toNat), Bool.and_false, Bool.false_and]

theorem isHalf_of_ne (h : c ≠ halfMark) (d : Char) : isHalf c d = false := by
  rw [isHalf, decide_eq_false h, Bool.false_and, Bool.false_and]

/-- The text does not start with what tells which half a mark stands for. -/
def StartsApart (text : List Char) : Prop :=
  ∀ c ∈ text.head?, c.toNat < 0xE000

namespace StartsApart

@[simp] theorem nil : StartsApart [] :=
  fun _ hc => nomatch hc

@[simp] theorem cons_iff : StartsApart (c :: text) ↔ c.toNat < 0xE000 := by
  simp [StartsApart]

theorem append (h : StartsApart front) (hb : StartsApart back) : StartsApart (front ++ back) := by
  cases front with
  | nil => exact hb
  | cons c rest => simpa using h

end StartsApart

theorem Visible.startsApart (h : Visible text) : StartsApart text := by
  intro c hc
  have hcode := isVisible_iff.mp (h c (List.mem_of_mem_head? hc))
  omega

theorem hasHalf_cons_of_ne (h : c ≠ halfMark) (text : List Char) :
    hasHalf (c :: text) = hasHalf text := by
  cases text with
  | nil => rfl
  | cons d rest => rw [hasHalf, isHalf_of_ne h, Bool.false_or]

theorem hasHalf_append_of_not_mem (h : halfMark ∉ front) (back : List Char) :
    hasHalf (front ++ back) = hasHalf back := by
  induction front with
  | nil => rfl
  | cons c rest ih =>
      have hc : c ≠ halfMark := fun he => h (he ▸ List.mem_cons_self)
      rw [List.cons_append, hasHalf_cons_of_ne hc, ih fun hm => h (List.mem_cons_of_mem c hm)]

theorem hasHalf_of_not_mem (h : halfMark ∉ text) : hasHalf text = false := by
  rw [← List.append_nil text, hasHalf_append_of_not_mem h]
  rfl

theorem Visible.halfMark_not_mem (h : Visible text) : halfMark ∉ text :=
  fun hm => absurd (h halfMark hm) (by decide)

theorem Visible.hasHalf_eq_false (h : Visible text) : hasHalf text = false :=
  hasHalf_of_not_mem h.halfMark_not_mem

theorem hasHalf_append (front : List Char) (h : StartsApart back) :
    hasHalf (front ++ back) = (hasHalf front || hasHalf back) := by
  induction front with
  | nil => rfl
  | cons c rest ih =>
      cases rest with
      | nil =>
          cases back with
          | nil => rfl
          | cons d back =>
              rw [List.singleton_append, hasHalf, isHalf_of_lt c (StartsApart.cons_iff.mp h)]
              rfl
      | cons d rest =>
          rw [List.cons_append] at ih
          rw [List.cons_append, List.cons_append, hasHalf, ih, hasHalf, Bool.or_assoc]

end Text

open Text

/-! ## Values -/

namespace Json

variable {style : JsonStyle}

theorem visible_escapeChar (c : Char) : Visible (escapeChar true c) := by
  intro d hd
  rcases mem_escapeChar hd with rfl | hslug | ⟨rfl, hvisible⟩
  · rfl
  · exact isVisible_of_isPackageChar (isPackageChar_of_isSlugChar hslug)
  · exact hvisible

theorem escapeChar_of_lt {c : Char} (h : c.toNat < 0x7F) (ascii : Bool) :
    escapeChar ascii c = escapeChar true c := by
  simp [escapeChar, Nat.not_le.mpr h]

theorem escapeChar_of_le {c : Char} (h : 0x7F ≤ c.toNat) : escapeChar false c = [c] := by
  have hne (d : Char) (hd : d.toNat < 0x7F) : c ≠ d := by
    rintro rfl
    omega
  have hcontrol : ¬ c.toNat < 0x20 := by omega
  have hfeed : c.toNat ≠ 0x0C := by omega
  have hback : c.toNat ≠ 0x08 := by omega
  simp [escapeChar, hne '"' (by decide), hne '\\' (by decide), hne '\n' (by decide),
    hne '\r' (by decide), hne '\t' (by decide), hcontrol, hfeed, hback]

theorem escapeChar_ne_nil (ascii : Bool) (c : Char) : escapeChar ascii c ≠ [] := by
  unfold escapeChar codeEscape unicodeEscape
  dsimp only
  split_ifs <;> simp

theorem startsApart_escaped {c : Char} (h : c.toNat < 0x7F) (text : List Char) :
    StartsApart ((c :: text).flatMap (escapeChar false)) := by
  rw [List.flatMap_cons, escapeChar_of_lt h]
  have hvisible := visible_escapeChar c
  cases he : escapeChar true c with
  | nil => exact absurd he (escapeChar_ne_nil true c)
  | cons d rest =>
      rw [he, Visible.cons_iff] at hvisible
      rw [List.cons_append, StartsApart.cons_iff]
      omega

/-- Escaping puts characters of ASCII in the place of others, so it neither makes nor breaks a
half. -/
theorem hasHalf_escaped (text : List Char) :
    hasHalf (text.flatMap (escapeChar false)) = hasHalf text := by
  induction text with
  | nil => rfl
  | cons c rest ih =>
      rcases Nat.lt_or_ge c.toNat 0x7F with hc | hc
      · have hmark : c ≠ halfMark := by
          rintro rfl
          exact absurd hc (by decide)
        rw [List.flatMap_cons, escapeChar_of_lt hc,
          hasHalf_append_of_not_mem (visible_escapeChar c).halfMark_not_mem, ih,
          hasHalf_cons_of_ne hmark]
      · rw [List.flatMap_cons, escapeChar_of_le hc, List.singleton_append]
        cases rest with
        | nil => rfl
        | cons d rest =>
            rcases Nat.lt_or_ge d.toNat 0x7F with hd | hd
            · rw [← List.singleton_append, hasHalf_append [c] (startsApart_escaped hd rest), ih,
                hasHalf, isHalf_of_lt c (by omega)]
              rfl
            · rw [List.flatMap_cons, escapeChar_of_le hd, List.singleton_append] at ih ⊢
              rw [hasHalf, ih, hasHalf]

theorem hasHalf_printString (ascii : Bool) (text : String) :
    hasHalf (printString ascii text) = (!ascii && hasHalf text.toList) := by
  have hopen : '"' ≠ halfMark := by decide
  have hclose : StartsApart ['"'] := by simp
  rw [printString, hasHalf_append _ hclose, hasHalf_cons_of_ne hopen]
  cases ascii with
  | true =>
      have hvisible : Visible (text.toList.flatMap (escapeChar true)) := by
        intro c hc
        obtain ⟨d, -, hd⟩ := List.mem_flatMap.mp hc
        exact visible_escapeChar d c hd
      rw [hvisible.hasHalf_eq_false]
      rfl
  | false =>
      rw [hasHalf_escaped, Bool.not_false, Bool.true_and]
      exact Bool.or_false _

theorem startsApart_printString (ascii : Bool) (text : String) :
    StartsApart (printString ascii text) := by
  simp [printString]

theorem startsApart_lead (style : JsonStyle) (depth : Nat) : StartsApart (style.lead depth) := by
  unfold JsonStyle.lead
  split <;> simp

theorem hasHalf_lead (style : JsonStyle) (depth : Nat) : hasHalf (style.lead depth) = false := by
  refine hasHalf_of_not_mem fun hm => ?_
  unfold JsonStyle.lead at hm
  split at hm
  · rcases List.mem_cons.mp hm with he | hm
    · exact absurd he (by decide)
    · exact absurd (List.eq_of_mem_replicate hm) (by decide)
  · cases hm

theorem startsApart_chars (style : JsonStyle) (depth : Nat) (value : Json) :
    StartsApart (chars style depth value) := by
  cases value with
  | null => simp [chars]
  | bool b => cases b <;> simp [chars]
  | int n => exact (Decimal.visible_intDigits n).startsApart
  | float x => exact (visible_floatChars style x).startsApart
  | string text => exact startsApart_printString style.ascii text
  | array items => cases items <;> simp [chars]
  | object fields => cases fields <;> simp [chars]

theorem startsApart_separator (style : JsonStyle) (depth : Nat) :
    StartsApart (style.separator depth) := by
  unfold JsonStyle.separator
  split <;> simp

theorem hasHalf_separator (style : JsonStyle) (depth : Nat) :
    hasHalf (style.separator depth) = false := by
  have hcomma : ',' ≠ halfMark := by decide
  unfold JsonStyle.separator
  split
  · rw [hasHalf_cons_of_ne hcomma, hasHalf_lead]
  · rfl

theorem startsApart_charsOfItems (style : JsonStyle) (depth : Nat) (items : List Json) :
    StartsApart (charsOfItems style depth items) := by
  cases items with
  | nil => simp [charsOfItems]
  | cons item items =>
      rw [charsOfItems]
      exact ((startsApart_separator style depth).append (startsApart_chars style depth item)).append
        (startsApart_charsOfItems style depth items)

theorem startsApart_charsOfFields (style : JsonStyle) (depth : Nat) (fields : Fields) :
    StartsApart (charsOfFields style depth fields) := by
  cases fields with
  | nil => simp [charsOfFields]
  | cons entry fields =>
      obtain ⟨key, value⟩ := entry
      rw [charsOfFields]
      refine StartsApart.append (StartsApart.append ?_ (by simp))
        (startsApart_charsOfFields style depth fields)
      exact (startsApart_separator style depth).append (startsApart_printString style.ascii key)

def anyHalf (texts : List String) : Bool :=
  texts.any fun text => hasHalf text.toList

theorem anyHalf_append (texts more : List String) :
    anyHalf (texts ++ more) = (anyHalf texts || anyHalf more) :=
  List.any_append

theorem anyHalf_cons (text : String) (texts : List String) :
    anyHalf (text :: texts) = (hasHalf text.toList || anyHalf texts) :=
  List.any_cons

@[simp] theorem anyHalf_nil : anyHalf [] = false := rfl

/-- A value behind its key. -/
theorem hasHalf_entry (style : JsonStyle) (depth : Nat) (value : Json) :
    hasHalf (':' :: ' ' :: chars style depth value) = hasHalf (chars style depth value) := by
  have hcolon : ':' ≠ halfMark := by decide
  have hblank : ' ' ≠ halfMark := by decide
  rw [hasHalf_cons_of_ne hcolon, hasHalf_cons_of_ne hblank]

theorem hasHalf_of_no_texts {depth : Nat} {value : Json} (h : Visible (chars style depth value))
    (ht : value.texts = []) :
    hasHalf (chars style depth value) = (!style.ascii && anyHalf value.texts) := by
  rw [ht, anyHalf_nil, Bool.and_false, h.hasHalf_eq_false]

mutual

theorem hasHalf_chars (style : JsonStyle) (depth : Nat) : (value : Json) →
    hasHalf (chars style depth value) = (!style.ascii && anyHalf value.texts)
  | .null => hasHalf_of_no_texts (by simp [chars]) rfl
  | .bool true | .bool false => hasHalf_of_no_texts (by simp [chars]) rfl
  | .int n => hasHalf_of_no_texts (Decimal.visible_intDigits n) rfl
  | .float x => hasHalf_of_no_texts (visible_floatChars style x) rfl
  | .string text => by
      rw [chars, hasHalf_printString, texts, anyHalf_cons, anyHalf_nil, Bool.or_false]
  | .array [] => hasHalf_of_no_texts (by simp [chars]) rfl
  | .array (item :: items) => by
      have hopen : '[' ≠ halfMark := by decide
      have hclose : StartsApart [']'] := by simp
      rw [chars, hasHalf_append _ hclose, hasHalf_append _ (startsApart_lead style depth),
        hasHalf_append _ (startsApart_charsOfItems style (depth + 1) items),
        hasHalf_append _ (startsApart_chars style (depth + 1) item), hasHalf_cons_of_ne hopen,
        hasHalf_lead, hasHalf_lead, hasHalf_chars style (depth + 1) item,
        hasHalf_charsOfItems style (depth + 1) items, texts, textsOfItems, anyHalf_append,
        Bool.and_or_distrib_left]
      simp [hasHalf]
  | .object [] => hasHalf_of_no_texts (by simp [chars]) rfl
  | .object ((key, value) :: fields) => by
      have hopen : '{' ≠ halfMark := by decide
      have hclose : StartsApart ['}'] := by simp
      have hcolon : StartsApart (':' :: ' ' :: chars style (depth + 1) value) := by simp
      rw [chars, hasHalf_append _ hclose, hasHalf_append _ (startsApart_lead style depth),
        hasHalf_append _ (startsApart_charsOfFields style (depth + 1) fields),
        hasHalf_append _ hcolon, hasHalf_append _ (startsApart_printString style.ascii key),
        hasHalf_cons_of_ne hopen, hasHalf_lead, hasHalf_lead, hasHalf_printString, hasHalf_entry,
        hasHalf_chars style (depth + 1) value, hasHalf_charsOfFields style (depth + 1) fields,
        texts, textsOfFields, List.cons_append, anyHalf_cons, anyHalf_append,
        Bool.and_or_distrib_left, Bool.and_or_distrib_left]
      simp [hasHalf, Bool.or_assoc]

theorem hasHalf_charsOfItems (style : JsonStyle) (depth : Nat) : (items : List Json) →
    hasHalf (charsOfItems style depth items) = (!style.ascii && anyHalf (textsOfItems items))
  | [] => by rw [textsOfItems, anyHalf_nil, Bool.and_false, charsOfItems, hasHalf]; nofun
  | item :: items => by
      rw [charsOfItems, hasHalf_append _ (startsApart_charsOfItems style depth items),
        hasHalf_append _ (startsApart_chars style depth item), hasHalf_separator,
        hasHalf_chars style depth item, hasHalf_charsOfItems style depth items, textsOfItems,
        anyHalf_append, Bool.and_or_distrib_left, Bool.false_or]

theorem hasHalf_charsOfFields (style : JsonStyle) (depth : Nat) : (fields : List (String × Json)) →
    hasHalf (charsOfFields style depth fields) = (!style.ascii && anyHalf (textsOfFields fields))
  | [] => by rw [textsOfFields, anyHalf_nil, Bool.and_false, charsOfFields, hasHalf]; nofun
  | (key, value) :: fields => by
      have hcolon : StartsApart (':' :: ' ' :: chars style depth value) := by simp
      rw [charsOfFields, hasHalf_append _ (startsApart_charsOfFields style depth fields),
        hasHalf_append _ hcolon, hasHalf_append _ (startsApart_printString style.ascii key),
        hasHalf_separator, hasHalf_printString, hasHalf_entry, hasHalf_chars style depth value,
        hasHalf_charsOfFields style depth fields, textsOfFields, List.cons_append, anyHalf_cons,
        anyHalf_append, Bool.and_or_distrib_left, Bool.and_or_distrib_left, Bool.false_or,
        Bool.or_assoc]

end

/-- What is printed in all of Unicode is whole exactly if the value is, and what is printed in ASCII
always is. -/
theorem hasHalf_print (style : JsonStyle) (value : Json) :
    hasHalf (value.print style).toList = (!style.ascii && !value.isWhole) := by
  rw [print, String.toList_ofList, hasHalf_chars, isWhole, anyHalf, List.not_all_eq_any_not]
  simp only [Bool.not_not]

end Json

end Sitewright
