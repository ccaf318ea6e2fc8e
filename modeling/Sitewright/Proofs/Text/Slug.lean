import Mathlib.Computability.Language
import Sitewright.Proofs.Text.Alphabet
import Sitewright.Proofs.Text.Runs

/-!
# Slugs are runs joined by dashes

A slug joins the runs of letters a to z and digits in the lower-case text by single dashes. Texts of
such characters and dashes are in lower case, so a slug is its own slug, and it does not matter
whether a package name is made before the slug or after it: one kind of name keeps the runs of the
text, the other one keeps its length.
-/

open scoped Computability

namespace Sitewright

namespace Text

/-! ## Lower case -/

/-- No run of characters with a lower case of their own has a character of package names. -/
theorem lowerRuns_bounds : ∀ run ∈ lowerRuns,
    0x7A < run.first ∨ 0x39 < run.first ∧ run.last < 0x61 := by
  decide +kernel

theorem lowerChar_of_isPackageChar {c : Char} (h : isPackageChar c = true) : lowerChar c = c := by
  have hcode := toNat_of_isPackageChar h
  have hnone : lowerRuns.find? (·.contains c.toNat) = none := by
    rw [List.find?_eq_none]
    intro run hm hc
    have hrun := lowerRuns_bounds run hm
    simp only [CaseRun.contains, Bool.and_eq_true, decide_eq_true_eq] at hc
    omega
  rw [lowerChar, hnone]

theorem lowerFrom_of_isPackageChar {text : List Char} (h : ∀ c ∈ text, isPackageChar c = true)
    (before : List Char) : lowerFrom before text = text := by
  induction text generalizing before with
  | nil => rfl
  | cons c text ih =>
      obtain ⟨hc, htext⟩ := List.forall_mem_cons.mp h
      have hdotted : c ≠ 'İ' := by
        rintro rfl
        exact absurd hc (by decide)
      have hsigma : c ≠ 'Σ' := by
        rintro rfl
        exact absurd hc (by decide)
      rw [lowerFrom, lowerWithin, if_neg hdotted, if_neg hsigma, lowerChar_of_isPackageChar hc,
        ih htext, List.singleton_append]

theorem lower_of_isPackageChar {text : List Char} (h : ∀ c ∈ text, isPackageChar c = true) :
    lower text = text :=
  lowerFrom_of_isPackageChar h []

theorem lower_ne_nil {text : List Char} (h : text ≠ []) : lower text ≠ [] := by
  obtain ⟨c, rest, rfl⟩ := List.exists_cons_of_ne_nil h
  have hfirst : lowerWithin [] c rest ≠ [] := by
    unfold lowerWithin
    split_ifs <;> exact List.cons_ne_nil _ _
  rw [lower, lowerFrom]
  exact List.append_ne_nil_of_left_ne_nil hfirst _

/-! ## Gaps -/

theorem dashGaps_gap_append {gap : List Char} (h : ∀ c ∈ gap, isSlugChar c = false)
    (text : List Char) : dashGaps true (gap ++ text) = dashGaps true text := by
  induction gap with
  | nil => rfl
  | cons c gap ih =>
      obtain ⟨hc, hgap⟩ := List.forall_mem_cons.mp h
      rw [List.cons_append, dashGaps, if_neg (by simp [hc]), if_pos rfl, ih hgap]

theorem dashGaps_run_append {run : List Char} (hne : run ≠ [])
    (h : ∀ c ∈ run, isSlugChar c = true) (inGap : Bool) (text : List Char) :
    dashGaps inGap (run ++ text) = run ++ dashGaps false text := by
  induction run generalizing inGap with
  | nil => exact absurd rfl hne
  | cons c run ih =>
      obtain ⟨hc, hrun⟩ := List.forall_mem_cons.mp h
      rw [List.cons_append, dashGaps, if_pos hc]
      cases run with
      | nil => rfl
      | cons d run =>
          rw [ih (List.cons_ne_nil d run) hrun]
          rfl

/-- The dash of a gap at the start is written unless it is said to be there already. -/
theorem dashGaps_false {c : Char} (h : isSlugChar c = false) (text : List Char) :
    dashGaps false (c :: text) = '-' :: dashGaps true (c :: text) := by
  have hc : ¬ isSlugChar c = true := Bool.eq_false_iff.mp h
  rw [dashGaps, dashGaps, if_neg hc, if_neg hc, if_neg Bool.false_ne_true, if_pos rfl]

/-- Within a gap at the start, the runs follow with dashes between them and perhaps one behind
them. -/
theorem dashGaps_true {text : List Char} {found : List (List Char)}
    (h : HasRuns isSlugChar text found) :
    ∃ back, dashGaps true text = List.intercalate ['-'] found ++ back ∧
      (back = [] ∨ found ≠ [] ∧ back = ['-']) := by
  induction h with
  | @gap gap outside =>
      refine ⟨[], ?_, .inl rfl⟩
      have hgap := dashGaps_gap_append outside []
      rwa [List.append_nil] at hgap
  | @run gap run rest later outside nonempty within ends behind ih =>
      obtain ⟨back, hback, hcases⟩ := ih
      rw [dashGaps_gap_append outside, dashGaps_run_append nonempty within]
      cases rest with
      | nil =>
          have hlater : later = [] := hasRuns_iff.mp behind
          rw [hlater, List.intercalate_singleton]
          exact ⟨[], rfl, .inl rfl⟩
      | cons c rest =>
          rw [dashGaps_false (ends c rfl), hback]
          cases later with
          | nil =>
              have hnil : back = [] := hcases.resolve_right fun h => h.1 rfl
              rw [hnil, List.intercalate_singleton]
              exact ⟨['-'], rfl, .inr ⟨List.cons_ne_nil _ _, rfl⟩⟩
          | cons next later =>
              refine ⟨back, ?_, hcases.imp_right fun h => ⟨List.cons_ne_nil _ _, h.2⟩⟩
              rw [List.intercalate_cons_cons]
              simp

theorem exists_dashGaps_false (text : List Char) :
    ∃ front, dashGaps false text = front ++ dashGaps true text ∧ ∀ c ∈ front, c = '-' := by
  cases text with
  | nil => exact ⟨[], rfl, List.forall_mem_nil _⟩
  | cons c text =>
      cases hc : isSlugChar c with
      | true =>
          refine ⟨[], ?_, List.forall_mem_nil _⟩
          rw [dashGaps, dashGaps, if_pos hc, if_pos hc, List.nil_append]
      | false => exact ⟨['-'], dashGaps_false hc text, by simp⟩

/-! ## Package names -/

def packageChar (c : Char) : Char :=
  if isPackageChar c then c else '-'

theorem dashOthers_eq_map (text : List Char) : dashOthers text = text.map packageChar := rfl

theorem packageChar_of_isPackageChar {c : Char} (h : isPackageChar c = true) :
    packageChar c = c :=
  if_pos h

theorem isPackageChar_packageChar (c : Char) : isPackageChar (packageChar c) = true := by
  unfold packageChar
  split_ifs with hc
  · exact hc
  · rfl

theorem isSlugChar_packageChar (c : Char) : isSlugChar (packageChar c) = isSlugChar c := by
  unfold packageChar
  split_ifs with hc
  · rfl
  · rw [isSlugChar_dash, eq_comm, Bool.eq_false_iff]
    exact fun hslug => hc (isPackageChar_of_isSlugChar hslug)

end Text

/-! ## Slugs -/

def slugRuns (text : String) : List (List Char) :=
  Text.runs Text.isSlugChar (Text.lower text.toList)

def dashed (pieces : List (List Char)) : String :=
  String.ofList (List.intercalate ['-'] pieces)

theorem slugify_eq_dashed (text : String) : slugify text = dashed (slugRuns text) := by
  have hstrip : slugRuns text = Text.runs Text.isSlugChar (Text.strip (Text.lower text.toList)) :=
    (Text.runs_trimWhile (fun c hc => Text.isSlugChar_of_isBlank hc) _).symm
  have hruns := Text.hasRuns_runs Text.isSlugChar (Text.strip (Text.lower text.toList))
  rw [← hstrip] at hruns
  obtain ⟨front, hfront, hdashes⟩ :=
    Text.exists_dashGaps_false (Text.strip (Text.lower text.toList))
  obtain ⟨back, hback, hcases⟩ := Text.dashGaps_true hruns
  obtain ⟨hfirst, hlast⟩ := Text.within_of_intercalate hruns.mem ['-']
  rw [slugify, dashed, Text.slug, hfront, hback]
  apply congrArg String.ofList
  apply Text.trimWhile_append
  · exact fun c hc => beq_iff_eq.mpr (hdashes c hc)
  · rcases hcases with rfl | ⟨-, rfl⟩ <;> simp
  · exact fun c hc => beq_eq_false_iff_ne.mpr (Text.ne_dash_of_isSlugChar (hfirst c hc))
  · exact fun c hc => beq_eq_false_iff_ne.mpr (Text.ne_dash_of_isSlugChar (hlast c hc))

theorem mem_slugRuns {text : String} {run : List Char} (h : run ∈ slugRuns text) :
    run ≠ [] ∧ ∀ c ∈ run, Text.isSlugChar c = true :=
  Text.mem_runs h

theorem slugRuns_eq_nil_iff {text : String} :
    slugRuns text = [] ↔ ∀ c ∈ Text.lower text.toList, Text.isSlugChar c = false :=
  Text.runs_eq_nil_iff

theorem dashed_eq_empty_iff {pieces : List (List Char)} (h : ∀ piece ∈ pieces, piece ≠ []) :
    dashed pieces = "" ↔ pieces = [] := by
  constructor
  · intro he
    cases pieces with
    | nil => rfl
    | cons piece pieces =>
        have hnil := congrArg String.toList he
        rw [dashed, String.toList_ofList, Text.intercalate_cons] at hnil
        exact absurd (List.append_eq_nil_iff.mp hnil).1 (h piece List.mem_cons_self)
  · rintro rfl
    rfl

theorem slugify_eq_empty_iff {text : String} : slugify text = "" ↔ slugRuns text = [] := by
  rw [slugify_eq_dashed, dashed_eq_empty_iff fun run hm => (mem_slugRuns hm).1]

/-! ## Slugs and package names -/

theorem isPackageChar_of_mem_slugify {text : String} :
    ∀ c ∈ (slugify text).toList, Text.isPackageChar c = true := by
  intro c hc
  rw [slugify_eq_dashed, dashed, String.toList_ofList] at hc
  rw [Text.isPackageChar, Bool.or_eq_true, beq_iff_eq]
  rcases Text.mem_intercalate hc with hdash | ⟨run, hm, hc⟩
  · exact .inr (List.mem_singleton.mp hdash)
  · exact .inl ((mem_slugRuns hm).2 c hc)

theorem isPackageChar_of_mem_packageSlug {text : String} :
    ∀ c ∈ (packageSlug text).toList, Text.isPackageChar c = true := by
  intro c hc
  rw [packageSlug, String.toList_ofList, Text.dashOthers_eq_map] at hc
  obtain ⟨d, -, rfl⟩ := List.mem_map.mp hc
  exact Text.isPackageChar_packageChar d

theorem packageSlug_of_isPackageChar {text : String}
    (h : ∀ c ∈ text.toList, Text.isPackageChar c = true) : packageSlug text = text := by
  have hkeep : text.toList.map Text.packageChar = text.toList.map id :=
    List.map_congr_left fun c hc => Text.packageChar_of_isPackageChar (h c hc)
  rw [packageSlug, Text.lower_of_isPackageChar h, Text.dashOthers_eq_map, hkeep, List.map_id,
    String.ofList_toList]

theorem slugRuns_of_isPackageChar {text : String}
    (h : ∀ c ∈ text.toList, Text.isPackageChar c = true) :
    slugRuns text = Text.runs Text.isSlugChar text.toList := by
  rw [slugRuns, Text.lower_of_isPackageChar h]

theorem slugRuns_slugify (text : String) : slugRuns (slugify text) = slugRuns text := by
  rw [slugRuns_of_isPackageChar isPackageChar_of_mem_slugify, slugify_eq_dashed, dashed,
    String.toList_ofList, Text.runs_intercalate Text.isSlugChar_dash fun run hm => mem_slugRuns hm]

theorem slugRuns_packageSlug (text : String) : slugRuns (packageSlug text) = slugRuns text := by
  rw [slugRuns_of_isPackageChar isPackageChar_of_mem_packageSlug, packageSlug,
    String.toList_ofList, Text.dashOthers_eq_map, slugRuns]
  refine Text.runs_map Text.isSlugChar_packageChar (fun c hc => ?_) _
  exact Text.packageChar_of_isPackageChar (Text.isPackageChar_of_isSlugChar hc)

theorem length_packageSlug (text : String) :
    (packageSlug text).length = (Text.lower text.toList).length := by
  rw [packageSlug, String.length_ofList, Text.dashOthers, List.length_map]

/-! ## The language of slugs -/

namespace Slug

def word : Language Char :=
  { text | text ≠ [] ∧ ∀ c ∈ text, Text.isSlugChar c = true }

def language : Language Char :=
  word * ({['-']} * word)∗

theorem intercalate_mem_language {pieces : List (List Char)} (hne : pieces ≠ [])
    (h : ∀ piece ∈ pieces, piece ∈ word) : List.intercalate ['-'] pieces ∈ language := by
  obtain ⟨piece, pieces, rfl⟩ := List.exists_cons_of_ne_nil hne
  obtain ⟨hpiece, hrest⟩ := List.forall_mem_cons.mp h
  rw [Text.intercalate_cons, language, Language.mem_mul]
  refine ⟨piece, hpiece, _, Language.join_mem_kstar fun later hl => ?_, rfl⟩
  obtain ⟨next, hn, rfl⟩ := List.mem_map.mp hl
  exact Language.mem_mul.mpr ⟨['-'], rfl, next, hrest next hn, rfl⟩

end Slug

theorem slugify_mem_language {text : String} (h : slugRuns text ≠ []) :
    (slugify text).toList ∈ Slug.language := by
  rw [slugify_eq_dashed, dashed, String.toList_ofList]
  exact Slug.intercalate_mem_language h fun run hm => mem_slugRuns hm

end Sitewright
