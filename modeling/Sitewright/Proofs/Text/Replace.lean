import Mathlib.Data.List.Infix
import Sitewright.Text.Basic

/-!
# What is replaced

Replacing puts the replacement in the place of the first occurrence of the pattern and goes on
behind it, until the pattern occurs no more. All other text stays, and what is put in is not looked
at again.
-/

namespace Sitewright.Text

variable {pattern : List Char}

/-- The texts before and after all occurrences of a pattern have been replaced, in one pass from left
to right. -/
inductive Replaced (pattern replacement : List Char) : List Char → List Char → Prop
  | absent {text : List Char} (never : ¬ pattern <:+: text) :
      Replaced pattern replacement text text
  /-- The pattern does not occur earlier than behind `front`. -/
  | first {front text later : List Char} (before : ¬ pattern <:+: front ++ pattern.dropLast)
      (rest : Replaced pattern replacement text later) :
      Replaced pattern replacement (front ++ pattern ++ text) (front ++ replacement ++ later)

theorem replaceFrom_skip (pattern replacement skipped rest : List Char) :
    replaceFrom pattern replacement skipped.length (skipped ++ rest) =
      replaceAll pattern replacement rest := by
  induction skipped with
  | nil => rfl
  | cons c skipped ih => exact ih

theorem replaceAll_append (hp : pattern ≠ []) (replacement rest : List Char) :
    replaceAll pattern replacement (pattern ++ rest) =
      replacement ++ replaceAll pattern replacement rest := by
  cases pattern with
  | nil => exact absurd rfl hp
  | cons c tail =>
      have hpre : (c :: tail).isPrefixOf (c :: (tail ++ rest)) = true :=
        List.isPrefixOf_iff_prefix.mpr (List.prefix_append (c :: tail) rest)
      rw [replaceAll, List.cons_append, replaceFrom, if_pos hpre]
      exact congrArg _ (replaceFrom_skip (c :: tail) replacement tail rest)

theorem replaceAll_cons {c : Char} {rest : List Char} (h : ¬ pattern <+: c :: rest)
    (replacement : List Char) :
    replaceAll pattern replacement (c :: rest) = c :: replaceAll pattern replacement rest := by
  rw [replaceAll, replaceFrom, if_neg (by rwa [List.isPrefixOf_iff_prefix]), replaceAll]

theorem replaceAll_of_absent {text : List Char} (h : ¬ pattern <:+: text)
    (replacement : List Char) : replaceAll pattern replacement text = text := by
  induction text with
  | nil => rfl
  | cons c rest ih =>
      rw [replaceAll_cons fun hpre => h hpre.isInfix,
        ih fun hin => h (List.infix_cons hin)]

/-- What stands before the first occurrence of the pattern stays. -/
theorem replaceAll_front {front : List Char} (h : ¬ pattern <:+: front ++ pattern.dropLast)
    (replacement text : List Char) :
    replaceAll pattern replacement (front ++ (pattern ++ text)) =
      front ++ replaceAll pattern replacement (pattern ++ text) := by
  induction front with
  | nil => rfl
  | cons c front ih =>
      have hstart : ¬ pattern <+: c :: (front ++ (pattern ++ text)) := by
        intro hpre
        have hwithin : c :: (front ++ pattern.dropLast) <+: c :: (front ++ (pattern ++ text)) := by
          rw [List.prefix_cons_inj, List.prefix_append_right_inj]
          exact pattern.dropLast_prefix.trans (List.prefix_append _ _)
        have hle : pattern.length ≤ (c :: (front ++ pattern.dropLast)).length := by
          rw [List.length_cons, List.length_append, List.length_dropLast]
          omega
        exact h (List.prefix_of_prefix_length_le hpre hwithin hle).isInfix
      rw [List.cons_append, replaceAll_cons hstart, ih fun hin => h (List.infix_cons hin),
        List.cons_append]

theorem Replaced.cons {replacement text later : List Char} {c : Char}
    (hc : ¬ pattern <+: c :: text) (h : Replaced pattern replacement text later) :
    Replaced pattern replacement (c :: text) (c :: later) := by
  cases h with
  | absent never =>
      refine .absent fun hin => ?_
      rcases List.infix_cons_iff.mp hin with hpre | hin
      · exact hc hpre
      · exact never hin
  | @first front text later before rest =>
      have hbefore : ¬ pattern <:+: (c :: front) ++ pattern.dropLast := by
        intro hin
        rcases List.infix_cons_iff.mp hin with hpre | hin
        · -- an occurrence at the very start would be one in the whole text
          have hfront : front ++ pattern.dropLast <+: front ++ pattern ++ text := by
            rw [List.append_assoc, List.prefix_append_right_inj]
            exact pattern.dropLast_prefix.trans (List.prefix_append _ _)
          exact hc (hpre.trans (List.cons_prefix_cons.mpr ⟨rfl, hfront⟩))
        · exact before hin
      exact .first hbefore rest

theorem replaced_replaceAll (hp : pattern ≠ []) (replacement text : List Char) :
    Replaced pattern replacement text (replaceAll pattern replacement text) := by
  induction h : text.length using Nat.strongRecOn generalizing text with
  | ind n ih =>
      by_cases hpre : pattern <+: text
      · obtain ⟨rest, rfl⟩ := hpre
        have hpos : 0 < pattern.length := List.length_pos_iff.mpr hp
        have hshort : rest.length < n := by
          rw [← h, List.length_append]
          omega
        have hbefore : ¬ pattern <:+: [] ++ pattern.dropLast := by
          intro hin
          have hle := hin.length_le
          rw [List.nil_append, List.length_dropLast] at hle
          omega
        rw [replaceAll_append hp]
        exact .first hbefore (ih _ hshort rest rfl)
      · cases text with
        | nil => exact .absent fun hin => hp (List.eq_nil_of_infix_nil hin)
        | cons c rest =>
            have hshort : rest.length < n := by
              rw [← h, List.length_cons]
              omega
            rw [replaceAll_cons hpre]
            exact (ih _ hshort rest rfl).cons hpre

/-- The text after the replacement is determined by the text before it. -/
theorem replaced_iff (hp : pattern ≠ []) {replacement text later : List Char} :
    Replaced pattern replacement text later ↔ later = replaceAll pattern replacement text := by
  constructor
  · intro h
    induction h with
    | absent never => exact (replaceAll_of_absent never replacement).symm
    | first before rest ih =>
        rw [List.append_assoc, List.append_assoc, replaceAll_front before, replaceAll_append hp, ih]
  · rintro rfl
    exact replaced_replaceAll hp replacement text

end Sitewright.Text
