import Mathlib.Data.List.Basic
import Mathlib.Data.List.DropRight
import Sitewright.Text.Basic

/-!
# Lines of plain texts

A text is plain if the line feed is its only line boundary and its first line is not empty. Its
lines are what stands between the line feeds, and `indent` sets each of them further in but for the
empty ones. Without its last line feeds a plain text is still plain.
-/

namespace Sitewright.Text

def IsLine (text : List Char) : Prop :=
  ∀ c ∈ text, isLineEnd c = false

theorem IsLine.lineFeed_not_mem {text : List Char} (h : IsLine text) : '\n' ∉ text :=
  fun hm => absurd (h '\n' hm) (by decide)

structure Plain (text : List Char) : Prop where
  boundary : ∀ c ∈ text, isLineEnd c = true → c = '\n'
  first : ∃ c rest, text = c :: rest ∧ c ≠ '\n'

/-- The line `width` blanks further in, unless it is empty. -/
def setIn (width : Nat) (line : List Char) : List Char :=
  if line.isEmpty then line else List.replicate width ' ' ++ line

def unlines (texts : List (List Char)) : List Char :=
  texts.flatMap (· ++ ['\n'])

theorem split_eq_splitOn (mark : Char) (text : List Char) :
    split mark text = text.splitOn mark := by
  induction text with
  | nil => rfl
  | cons c rest ih =>
      rw [split, List.splitOn_cons_eq_if_modifyHead, ih]
      by_cases hc : c = mark
      · rw [if_pos hc, if_pos (beq_iff_eq.mpr hc)]
      · rw [if_neg hc, if_neg (by simpa using hc)]
        cases hs : rest.splitOn mark with
        | nil => exact absurd hs (List.splitOn_ne_nil mark rest)
        | cons piece pieces => rfl

theorem consFirst_splitOn {c : Char} (hc : c ≠ '\n') (text : List Char) :
    consFirst c (text.splitOn '\n') = (c :: text).splitOn '\n' := by
  rw [← split_eq_splitOn, ← split_eq_splitOn, split, if_neg hc]

theorem lineFeed_not_mem {text line : List Char} (h : line ∈ text.splitOn '\n') :
    '\n' ∉ line := by
  induction text generalizing line with
  | nil =>
      rw [List.splitOn_nil, List.mem_singleton] at h
      exact h ▸ List.not_mem_nil
  | cons c rest ih =>
      by_cases hc : c = '\n'
      · rw [List.splitOn_cons_eq_if_modifyHead, if_pos (beq_iff_eq.mpr hc)] at h
        rcases List.mem_cons.mp h with rfl | h
        · exact List.not_mem_nil
        · exact ih h
      · rw [← consFirst_splitOn hc] at h
        cases hs : rest.splitOn '\n' with
        | nil => exact absurd hs (List.splitOn_ne_nil '\n' rest)
        | cons piece pieces =>
            rw [hs] at h ih
            rcases List.mem_cons.mp h with rfl | h
            · exact fun hm => (List.mem_cons.mp hm).elim (Ne.symm hc) (ih List.mem_cons_self)
            · exact ih (List.mem_cons_of_mem _ h)

/-- The line feed at the end opens no line of its own. -/
theorem lines_append_lineFeed {text : List Char} (h : ∀ c ∈ text, isLineEnd c = true → c = '\n') :
    lines (text ++ ['\n']) = text.splitOn '\n' := by
  induction text with
  | nil => rfl
  | cons c rest ih =>
      have hrest := ih fun d hd => h d (List.mem_cons_of_mem c hd)
      have hreturn : c ≠ '\r' := by
        rintro rfl
        exact absurd (h '\r' List.mem_cons_self (by decide)) (by decide)
      rw [List.cons_append, lines.eq_3 _ _ (fun _ hc _ => hreturn hc), hrest]
      by_cases hc : c = '\n'
      · subst hc
        rfl
      · have hend : isLineEnd c = false := by
          by_contra hend
          exact hc (h c List.mem_cons_self (Bool.not_eq_false _ ▸ hend))
        rw [hend, if_neg Bool.false_ne_true, consFirst_splitOn hc]

theorem Plain.splitOn {text : List Char} (h : Plain text) :
    ∃ first rest, text.splitOn '\n' = first :: rest ∧ first.isEmpty = false := by
  obtain ⟨c, rest, rfl, hc⟩ := h.first
  rw [← consFirst_splitOn hc]
  cases hs : rest.splitOn '\n' with
  | nil => exact absurd hs (List.splitOn_ne_nil '\n' rest)
  | cons piece pieces => exact ⟨c :: piece, pieces, rfl, rfl⟩

theorem indent_of_plain {text : List Char} (h : Plain text) (width : Nat) :
    indent width text = joinLines ((text.splitOn '\n').map (setIn width)) := by
  obtain ⟨first, rest, hs, hfirst⟩ := h.splitOn
  have hset : setIn width first = List.replicate width ' ' ++ first := by
    rw [setIn, hfirst, if_neg Bool.false_ne_true]
  rw [indent, lines_append_lineFeed h.boundary, hs, List.map_cons, hset]
  rfl

theorem joinLines_splitOn (text : List Char) : joinLines (text.splitOn '\n') = text :=
  List.intercalate_splitOn '\n'

theorem splitOn_joinLines {texts : List (List Char)} (hne : texts ≠ [])
    (h : ∀ line ∈ texts, '\n' ∉ line) : (joinLines texts).splitOn '\n' = texts :=
  List.splitOn_intercalate '\n' h hne

theorem drop_setIn (width : Nat) (line : List Char) : (setIn width line).drop width = line := by
  cases line with
  | nil => exact List.drop_nil
  | cons c rest =>
      rw [setIn, if_neg (by simp)]
      exact List.drop_left' (List.length_replicate ..)

theorem lineFeed_not_mem_setIn {width : Nat} {line : List Char} (h : '\n' ∉ line) :
    '\n' ∉ setIn width line := by
  intro hm
  rw [setIn] at hm
  split at hm
  · exact h hm
  · rcases List.mem_append.mp hm with hm | hm
    · exact absurd (List.eq_of_mem_replicate hm) (by decide)
    · exact h hm

theorem unlines_append (texts others : List (List Char)) :
    unlines (texts ++ others) = unlines texts ++ unlines others :=
  List.flatMap_append

theorem unlines_singleton (line : List Char) : unlines [line] = line ++ ['\n'] :=
  List.flatMap_singleton ..

theorem unlines_eq_joinLines {texts : List (List Char)} (hne : texts ≠ []) :
    unlines texts = joinLines texts ++ ['\n'] := by
  induction texts with
  | nil => exact absurd rfl hne
  | cons line rest ih =>
      cases rest with
      | nil => simp [unlines, joinLines]
      | cons next rest =>
          have hrest := ih (List.cons_ne_nil next rest)
          rw [unlines, List.flatMap_cons]
          rw [unlines] at hrest
          rw [hrest, joinLines, joinLines, List.intercalate_cons_cons]
          simp

/-- Lines make a plain text if the first one is not empty. -/
theorem plain_unlines {first : List Char} {rest : List (List Char)} (hne : first ≠ [])
    (h : ∀ line ∈ first :: rest, IsLine line) : Plain (unlines (first :: rest)) := by
  constructor
  · intro c hc hend
    obtain ⟨line, hline, hc⟩ := List.mem_flatMap.mp hc
    rcases List.mem_append.mp hc with hc | hc
    · exact absurd hend (by rw [h line hline c hc]; exact Bool.false_ne_true)
    · exact List.mem_singleton.mp hc
  · obtain ⟨c, text, rfl⟩ := List.exists_cons_of_ne_nil hne
    refine ⟨c, text ++ ['\n'] ++ unlines rest, rfl, ?_⟩
    rintro rfl
    exact (h _ List.mem_cons_self).lineFeed_not_mem List.mem_cons_self

/-! ## Line feeds at the end -/

theorem Plain.dropEndWhile {text : List Char} (h : Plain text) :
    Plain (dropEndWhile (· == '\n') text) := by
  have hfront : Text.dropEndWhile (· == '\n') text <+: text := List.rdropWhile_prefix _ text
  refine ⟨fun c hc => h.boundary c (hfront.subset hc), ?_⟩
  obtain ⟨c, rest, rfl, hc⟩ := h.first
  cases ht : Text.dropEndWhile (· == '\n') (c :: rest) with
  | nil =>
      have hall := List.rdropWhile_eq_nil_iff.mp ht
      exact absurd (beq_iff_eq.mp (hall c List.mem_cons_self)) hc
  | cons d trimmed =>
      rw [ht, List.cons_prefix_cons] at hfront
      exact ⟨d, trimmed, rfl, hfront.1 ▸ hc⟩

theorem joinLines_append_singleton (texts : List (List Char)) (last : List Char) :
    joinLines (texts ++ [last]) = unlines texts ++ last := by
  have hne : texts ++ [last] ≠ [] := by simp
  have hlines : unlines (texts ++ [last]) = unlines texts ++ last ++ ['\n'] := by
    rw [unlines_append, unlines_singleton, List.append_assoc]
  exact List.append_cancel_right ((unlines_eq_joinLines hne).symm.trans hlines)

/-- The last line keeps its own end if it is not empty. -/
theorem dropEndWhile_unlines (texts : List (List Char)) {last : List Char} (hne : last ≠ [])
    (hlast : '\n' ∉ last) :
    dropEndWhile (· == '\n') (unlines (texts ++ [last])) = joinLines (texts ++ [last]) := by
  obtain ⟨front, c, rfl⟩ := (List.eq_nil_or_concat' last).resolve_left hne
  have hc : c ≠ '\n' := fun h => hlast (h ▸ List.mem_append_right front List.mem_cons_self)
  rw [unlines_eq_joinLines (by simp)]
  refine (List.rdropWhile_concat_pos (· == '\n') _ '\n' rfl).trans ?_
  rw [joinLines_append_singleton, ← List.append_assoc]
  exact List.rdropWhile_concat_neg (· == '\n') _ c (by simpa using hc)

theorem mem_splitOn_of_dropEndWhile {text line : List Char}
    (h : line ∈ (dropEndWhile (· == '\n') text).splitOn '\n') : line ∈ text.splitOn '\n' := by
  have htext : dropEndWhile (· == '\n') text ++ text.rtakeWhile (· == '\n') = text :=
    List.rdropWhile_append_rtakeWhile
  have hfeeds : ∀ c ∈ text.rtakeWhile (· == '\n'), c = '\n' := fun c hc =>
    beq_iff_eq.mp (List.mem_rtakeWhile_imp (p := (· == '\n')) hc)
  cases hr : text.rtakeWhile (· == '\n') with
  | nil => rwa [← htext, hr, List.append_nil]
  | cons c feeds =>
      have hc : c = '\n' := hfeeds c (hr ▸ List.mem_cons_self)
      rw [← htext, hr, hc, List.splitOn_append_cons_self]
      exact List.mem_append_left _ h

theorem splitOn_unlines {texts : List (List Char)} (h : ∀ line ∈ texts, '\n' ∉ line) :
    (unlines texts).splitOn '\n' = texts ++ [[]] := by
  induction texts with
  | nil => rfl
  | cons line rest ih =>
      obtain ⟨hline, hrest⟩ := List.forall_mem_cons.mp h
      have hsplit : unlines (line :: rest) = line ++ '\n' :: unlines rest := by
        rw [unlines, unlines, List.flatMap_cons, List.append_assoc]
        rfl
      rw [hsplit, List.splitOn_append_cons_self_of_not_mem hline, ih hrest]
      rfl

end Sitewright.Text
