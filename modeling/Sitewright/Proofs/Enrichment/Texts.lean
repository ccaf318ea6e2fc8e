import Mathlib.Data.List.DropRight
import Sitewright.Enrichment

/-!
# Enriched texts

A text that ends in a character that is not blank loses blanks only at its start, and text may as
well be put behind it before as after it is stripped. So a clause that ends so can be appended again
and again, and the outcome is the base with as many clauses behind it, stripped once. Default texts
that start with plain text are never filled in to nothing, and between texts without braces the name
of the website is put in as it is. The texts that can be filled in at all are those whose braces make
places for the name or are doubled.
-/

namespace Sitewright

namespace Text

def endsSolid (text : List Char) : Bool :=
  text.getLast?.any fun c => !isBlank c

theorem exists_concat_of_endsSolid {text : List Char} (h : endsSolid text = true) :
    ∃ front c, text = front ++ [c] ∧ isBlank c = false := by
  obtain ⟨c, hc, hb⟩ := Option.any_eq_true _ _ |>.mp h
  obtain ⟨front, rfl⟩ := List.getLast?_eq_some_iff.mp hc
  exact ⟨front, c, rfl, by simpa using hb⟩

theorem endsSolid_append {more : List Char} (h : endsSolid more = true) (text : List Char) :
    endsSolid (text ++ more) = true := by
  obtain ⟨front, c, rfl, hc⟩ := exists_concat_of_endsSolid h
  simp [endsSolid, hc]

theorem dropWhile_concat {c : Char} (h : isBlank c = false) (front : List Char) :
    (front ++ [c]).dropWhile isBlank = front.dropWhile isBlank ++ [c] := by
  rw [List.dropWhile_append]
  split
  · rename_i he
    rw [List.isEmpty_iff.mp he]
    simp [h]
  · rfl

theorem strip_of_endsSolid {text : List Char} (h : endsSolid text = true) :
    strip text = text.dropWhile isBlank := by
  obtain ⟨front, c, rfl, hc⟩ := exists_concat_of_endsSolid h
  rw [strip, trimWhile, dropWhile_concat hc]
  exact List.rdropWhile_concat_neg _ _ _ (by simp [hc])

theorem strip_ne_nil {text : List Char} (h : endsSolid text = true) : strip text ≠ [] := by
  rw [strip_of_endsSolid h]
  obtain ⟨front, c, rfl, hc⟩ := exists_concat_of_endsSolid h
  simp [dropWhile_concat hc]

theorem strip_strip_append {text : List Char} (h : endsSolid text = true) (more : List Char) :
    strip (strip text ++ more) = strip (text ++ more) := by
  have hne : (text.dropWhile isBlank).isEmpty = false := by
    rw [List.isEmpty_eq_false_iff, ← strip_of_endsSolid h]
    exact strip_ne_nil h
  have hstripped : (text.dropWhile isBlank ++ more).dropWhile isBlank =
      text.dropWhile isBlank ++ more := by
    rw [List.dropWhile_append, List.dropWhile_idempotent, hne]
    rfl
  have htext : (text ++ more).dropWhile isBlank = text.dropWhile isBlank ++ more := by
    rw [List.dropWhile_append, hne]
    rfl
  rw [strip_of_endsSolid h, strip, strip, trimWhile, trimWhile, hstripped, htext]

def startsSolid (text : List Char) : Bool :=
  text.head?.any fun c => !isBlank c

theorem startsSolid_append {text : List Char} (h : startsSolid text = true) (more : List Char) :
    startsSolid (text ++ more) = true := by
  obtain ⟨c, hc, hb⟩ := Option.any_eq_true _ _ |>.mp h
  obtain ⟨rest, rfl⟩ := List.head?_eq_some_iff.mp hc
  exact hb

theorem dropWhile_of_startsSolid {text : List Char} (h : startsSolid text = true) :
    text.dropWhile isBlank = text := by
  obtain ⟨c, hc, hb⟩ := Option.any_eq_true _ _ |>.mp h
  obtain ⟨rest, rfl⟩ := List.head?_eq_some_iff.mp hc
  exact List.dropWhile_cons_of_neg (by simpa using hb)

theorem strip_of_solid {text : List Char} (hs : startsSolid text = true)
    (he : endsSolid text = true) : strip text = text := by
  rw [strip_of_endsSolid he, dropWhile_of_startsSolid hs]

/-- Whatever stands before it, a text without blanks around it is left whole. -/
theorem suffix_strip_append {more : List Char} (hs : startsSolid more = true)
    (he : endsSolid more = true) (text : List Char) : more <:+ strip (text ++ more) := by
  rw [strip_of_endsSolid (endsSolid_append he text), List.dropWhile_append,
    dropWhile_of_startsSolid hs]
  split
  · exact List.suffix_refl more
  · exact List.suffix_append _ more

end Text

/-! ## Clauses -/

/-- A base with so many copies of a clause behind it, without blanks around the whole. -/
def grown (base clause : String) (passes : Nat) : String :=
  String.ofList (Text.strip
    (base.toList ++ (List.replicate passes (' ' :: clause.toList)).flatten))

theorem grown_one (base clause : String) : grown base clause 1 = appendClause base clause := by
  simp [grown, appendClause]

theorem endsSolid_clauses {clause : String} (h : Text.endsSolid clause.toList = true)
    (base : String) (passes : Nat) :
    Text.endsSolid (base.toList ++
      (List.replicate (passes + 1) (' ' :: clause.toList)).flatten) = true := by
  rw [List.replicate_succ', List.flatten_append, List.flatten_singleton, ← List.append_assoc]
  exact Text.endsSolid_append (Text.endsSolid_append h [' ']) _

theorem appendClause_grown {clause : String} (h : Text.endsSolid clause.toList = true)
    (base : String) (passes : Nat) :
    appendClause (grown base clause (passes + 1)) clause = grown base clause (passes + 2) := by
  have hsolid := endsSolid_clauses h base passes
  rw [appendClause, grown, String.toList_ofList, Text.strip_strip_append hsolid, grown,
    List.replicate_succ' (n := passes + 1), List.flatten_append, List.flatten_singleton,
    List.append_assoc]

theorem grown_ne_empty {clause : String} (h : Text.endsSolid clause.toList = true) (base : String)
    (passes : Nat) : grown base clause (passes + 1) ≠ "" := by
  have hne := Text.strip_ne_nil (endsSolid_clauses h base passes)
  simpa [grown] using hne

theorem suffix_appendClause {clause : String} (hs : Text.startsSolid clause.toList = true)
    (he : Text.endsSolid clause.toList = true) (base : String) :
    clause.toList <:+ (appendClause base clause).toList := by
  have hsuffix := Text.suffix_strip_append hs he (base.toList ++ [' '])
  rw [List.append_assoc, List.singleton_append] at hsuffix
  rwa [appendClause, String.toList_ofList]

/-! ## Defaults -/

namespace Format

theorem place_eq_cons : place = '\x7b' :: "website_name\x7d".toList := by
  decide

theorem length_place : place.length - 1 = "website_name\x7d".toList.length := by
  decide

theorem isPrefixOf_place (rest : List Char) :
    place.isPrefixOf ('\x7b' :: ("website_name\x7d".toList ++ rest)) = true := by
  rw [← List.cons_append, ← place_eq_cons]
  exact List.isPrefixOf_iff_prefix.mpr (List.prefix_append _ _)

theorem not_isPrefixOf_of_ne {c : Char} (h : c ≠ '\x7b') (rest : List Char) :
    place.isPrefixOf (c :: rest) = false := by
  rw [place_eq_cons, List.isPrefixOf_cons_cons, beq_eq_false_iff_ne.mpr h.symm, Bool.false_and]

theorem not_isPrefixOf_doubled (c : Char) (rest : List Char) :
    place.isPrefixOf (c :: c :: rest) = false := by
  have hplace : place = '\x7b' :: 'w' :: "ebsite_name\x7d".toList := by decide
  by_cases hc : c = '\x7b'
  · subst hc
    rw [hplace, List.isPrefixOf_cons_cons, List.isPrefixOf_cons_cons]
    rfl
  · exact not_isPrefixOf_of_ne hc _

end Format

def startsPlain (text : List Char) : Bool :=
  text.head?.any fun c => c != '\x7b' && c != '\x7d'

theorem fillDefaultFrom_of_startsPlain {c : Char} {rest : List Char}
    (h : startsPlain (c :: rest) = true) (name : List Char) :
    fillDefaultFrom name 0 (c :: rest) = c :: fillDefaultFrom name 0 rest := by
  have ⟨hopen, hclose⟩ : c ≠ '\x7b' ∧ c ≠ '\x7d' := by simpa [startsPlain] using h
  rw [fillDefaultFrom, Format.not_isPrefixOf_of_ne hopen]
  simp [hopen, hclose]

theorem fillDefault_ne_empty {text : String} (h : startsPlain text.toList = true) (name : String) :
    fillDefault name text ≠ "" := by
  obtain ⟨c, hc, -⟩ := Option.any_eq_true _ _ |>.mp h
  obtain ⟨rest, ht⟩ := List.head?_eq_some_iff.mp hc
  rw [ht] at h
  intro he
  rw [fillDefault, ht, fillDefaultFrom_of_startsPlain h, ← String.toList_inj,
    String.toList_ofList] at he
  cases he

def braceless (text : List Char) : Bool :=
  text.all fun c => c != '\x7b' && c != '\x7d'

theorem fillDefaultFrom_of_braceless {before : List Char} (h : braceless before = true)
    (name rest : List Char) :
    fillDefaultFrom name 0 (before ++ rest) = before ++ fillDefaultFrom name 0 rest := by
  induction before with
  | nil => rfl
  | cons c before ih =>
      obtain ⟨hc, hbefore⟩ := Bool.and_eq_true_iff.mp h
      have hplain : startsPlain (c :: (before ++ rest)) = true := hc
      rw [List.cons_append, fillDefaultFrom_of_startsPlain hplain, ih hbefore, List.cons_append]

theorem fillDefaultFrom_skip (name skipped rest : List Char) :
    fillDefaultFrom name skipped.length (skipped ++ rest) = fillDefaultFrom name 0 rest := by
  induction skipped with
  | nil => rfl
  | cons c skipped ih => exact ih

theorem fillDefaultFrom_place (name rest : List Char) :
    fillDefaultFrom name 0 (Format.place ++ rest) = name ++ fillDefaultFrom name 0 rest := by
  rw [Format.place_eq_cons, List.cons_append, fillDefaultFrom,
    if_pos (Format.isPrefixOf_place rest), Format.length_place, fillDefaultFrom_skip]

/-- The name stands in a default text as it is, whatever it looks like. -/
theorem fillDefault_eq {before after : String} (hb : braceless before.toList = true)
    (ha : braceless after.toList = true) (name : String) :
    fillDefault name (before ++ "{website_name}" ++ after) = before ++ name ++ after := by
  have hafter : fillDefaultFrom name.toList 0 after.toList = after.toList := by
    simpa [fillDefaultFrom] using fillDefaultFrom_of_braceless ha name.toList []
  have hplace : "{website_name}".toList = Format.place := rfl
  rw [fillDefault, ← String.toList_inj, String.toList_ofList]
  simp only [String.toList_append, List.append_assoc, hplace]
  rw [fillDefaultFrom_of_braceless hb, fillDefaultFrom_place, hafter]

/-! ## Texts that can be filled in -/

namespace Format

/-- How a text is filled in: a place with the name, doubled braces with single ones. -/
inductive Fills (name : List Char) : List Char → List Char → Prop
  | nil : Fills name [] []
  | plain {c : Char} {rest filled : List Char} (hopen : c ≠ '\x7b') (hclose : c ≠ '\x7d')
      (h : Fills name rest filled) : Fills name (c :: rest) (c :: filled)
  | doubled {c : Char} {rest filled : List Char} (hc : c = '\x7b' ∨ c = '\x7d')
      (h : Fills name rest filled) : Fills name (c :: c :: rest) (c :: filled)
  | named {rest filled : List Char} (h : Fills name rest filled) :
      Fills name (place ++ rest) (name ++ filled)

variable {name text filled : List Char}

theorem faultFrom?_skip (skipped rest : List Char) :
    faultFrom? skipped.length (skipped ++ rest) = faultFrom? 0 rest := by
  induction skipped with
  | nil => rfl
  | cons c skipped ih => exact ih

theorem faultFrom?_place (rest : List Char) : faultFrom? 0 (place ++ rest) = faultFrom? 0 rest := by
  rw [place_eq_cons, List.cons_append, faultFrom?, if_pos (isPrefixOf_place rest), length_place,
    faultFrom?_skip]

theorem faultFrom?_plain {c : Char} (hopen : c ≠ '\x7b') (hclose : c ≠ '\x7d') (rest : List Char) :
    faultFrom? 0 (c :: rest) = faultFrom? 0 rest := by
  simp [faultFrom?, not_isPrefixOf_of_ne hopen, hopen, hclose]

theorem faultFrom?_doubled {c : Char} (hc : c = '\x7b' ∨ c = '\x7d') (rest : List Char) :
    faultFrom? 0 (c :: c :: rest) = faultFrom? 0 rest := by
  simp [faultFrom?, not_isPrefixOf_doubled, hc]

theorem fillDefaultFrom_doubled {c : Char} (hc : c = '\x7b' ∨ c = '\x7d') (rest : List Char) :
    fillDefaultFrom name 0 (c :: c :: rest) = c :: fillDefaultFrom name 0 rest := by
  rw [fillDefaultFrom, not_isPrefixOf_doubled]
  simp [hc, fillDefaultFrom]

theorem of_fills (h : Fills name text filled) :
    faultFrom? 0 text = none ∧ fillDefaultFrom name 0 text = filled := by
  induction h with
  | nil => exact ⟨rfl, rfl⟩
  | @plain c rest filled hopen hclose h ih =>
      have hplain : startsPlain (c :: rest) = true := by simp [startsPlain, hopen, hclose]
      rw [faultFrom?_plain hopen hclose, fillDefaultFrom_of_startsPlain hplain, ih.2]
      exact ⟨ih.1, rfl⟩
  | doubled hc h ih =>
      rw [faultFrom?_doubled hc, fillDefaultFrom_doubled hc, ih.2]
      exact ⟨ih.1, rfl⟩
  | @named rest filled h ih =>
      rw [faultFrom?_place, ← ih.2]
      exact ⟨ih.1, fillDefaultFrom_place name rest⟩

theorem exists_fills (name : List Char) {text : List Char} (h : faultFrom? 0 text = none) :
    ∃ filled, Fills name text filled := by
  induction hn : text.length using Nat.strong_induction_on generalizing text with
  | _ n ih =>
      subst hn
      cases text with
      | nil => exact ⟨[], .nil⟩
      | cons c rest =>
          by_cases hp : place.isPrefixOf (c :: rest) = true
          · obtain ⟨behind, hb⟩ := List.isPrefixOf_iff_prefix.mp hp
            rw [← hb, faultFrom?_place] at h
            have hshort : behind.length < (c :: rest).length := by
              rw [← hb, List.length_append]
              exact Nat.lt_add_of_pos_left (by decide)
            obtain ⟨filled, hf⟩ := ih _ hshort h rfl
            exact ⟨name ++ filled, hb ▸ hf.named⟩
          · by_cases hc : c = '\x7b' ∨ c = '\x7d'
            · obtain ⟨behind, rfl⟩ : ∃ behind, rest = c :: behind := by
                rw [faultFrom?, if_neg hp, if_pos (by simpa using hc)] at h
                split at h
                · exact List.head?_eq_some_iff.mp (by assumption)
                · split at h <;> cases h
              rw [faultFrom?_doubled hc] at h
              have hshort : behind.length < (c :: c :: behind).length := by
                simp only [List.length_cons]
                omega
              obtain ⟨filled, hf⟩ := ih _ hshort h rfl
              exact ⟨c :: filled, hf.doubled hc⟩
            · obtain ⟨hopen, hclose⟩ := not_or.mp hc
              rw [faultFrom?_plain hopen hclose] at h
              obtain ⟨filled, hf⟩ := ih rest.length (Nat.lt_succ_self _) h rfl
              exact ⟨c :: filled, hf.plain hopen hclose⟩

/-- A text has no fault exactly if it is filled in as its braces say. -/
theorem faultFrom?_eq_none_iff (name text : List Char) :
    faultFrom? 0 text = none ↔ Fills name text (fillDefaultFrom name 0 text) := by
  constructor
  · intro h
    obtain ⟨filled, hf⟩ := exists_fills name h
    rwa [(of_fills hf).2]
  · exact fun h => (of_fills h).1

end Format

end Sitewright
