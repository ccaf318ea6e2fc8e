import Sitewright.Proofs.Editor.Edits
import Sitewright.Proofs.Text.Slug

/-!
# Titles and their slugs

A page can be added under a title if the title has a slug that no page has yet. The slug shows the
runs of the title and nothing else of it, so two titles are in each other's way exactly if they have
the same runs.
-/

namespace Sitewright

namespace Schema

variable {schema : Schema}

theorem exists_invalidTitle_iff {title : String} :
    (∃ text, schema.addPage title = .error (.invalidTitle text)) ↔ slugRuns title = [] := by
  rw [← slugify_eq_empty_iff]
  rcases schema.addPage_cases title with ⟨he, ha⟩ | ⟨hne, -, ha⟩ | ⟨hne, -, ha⟩
  · exact iff_of_true ⟨title, ha⟩ he
  · exact iff_of_false (by simp [ha]) hne
  · exact iff_of_false (by simp [ha]) hne

theorem exists_duplicatePage_iff {title : String} :
    (∃ slug, schema.addPage title = .error (.duplicatePage slug)) ↔
      slugRuns title ≠ [] ∧ ∃ page ∈ schema.pages, page.slug = dashed (slugRuns title) := by
  rw [← slugify_eq_dashed, Ne, ← slugify_eq_empty_iff]
  rcases schema.addPage_cases title with ⟨he, ha⟩ | ⟨hne, hpage, ha⟩ | ⟨hne, hfree, ha⟩
  · exact iff_of_false (by simp [ha]) fun h => h.1 he
  · exact iff_of_true ⟨_, ha⟩ ⟨hne, hpage⟩
  · refine iff_of_false (by simp [ha]) ?_
    rintro ⟨-, page, hm, hp⟩
    exact hfree page hm hp

end Schema

/-- A slug is the runs of letters a to z and digits in the lower-case text, joined by single dashes.
It is its own slug and the slug of the package name, and it is a package name, as is the package
name itself, which is as long as the lower-case text. After a page has been added, the next title is
refused as a duplicate exactly if it has runs that are, joined by dashes, the slug of that page or
of an earlier one, and as invalid exactly if it has no runs. -/
theorem slugify_joins_runs :
    (∀ text : String,
      (∀ found, Text.HasRuns Text.isSlugChar (Text.lower text.toList) found ↔
        found = slugRuns text) ∧
      slugify text = dashed (slugRuns text) ∧
      (slugify text = "" ∨ (slugify text).toList ∈ Slug.language) ∧
      (slugify text = "" ↔ ∀ c ∈ Text.lower text.toList, Text.isSlugChar c = false) ∧
      slugify (slugify text) = slugify text ∧
      slugify (packageSlug text) = slugify text ∧
      packageSlug (slugify text) = slugify text ∧
      packageSlug (packageSlug text) = packageSlug text ∧
      (packageSlug text).length = (Text.lower text.toList).length) ∧
    ∀ (schema edited : Schema) (title : String), schema.addPage title = .ok edited →
      ∃ added, edited = schema.withPages (schema.pages ++ [added]) ∧ added.title = title ∧
        added.slug = slugify title ∧ ∀ other : String,
          ((∃ slug, edited.addPage other = .error (.duplicatePage slug)) ↔
            slugRuns other ≠ [] ∧ (dashed (slugRuns other) = added.slug ∨
              ∃ page ∈ schema.pages, page.slug = dashed (slugRuns other))) ∧
          ((∃ text, edited.addPage other = .error (.invalidTitle text)) ↔
            slugRuns other = []) := by
  constructor
  · intro text
    have hempty : slugify text = "" ∨ (slugify text).toList ∈ Slug.language := by
      by_cases he : slugRuns text = []
      · exact .inl (slugify_eq_empty_iff.mpr he)
      · exact .inr (slugify_mem_language he)
    refine ⟨fun found => Text.hasRuns_iff, slugify_eq_dashed text, hempty,
      slugify_eq_empty_iff.trans slugRuns_eq_nil_iff, ?_, ?_,
      packageSlug_of_isPackageChar isPackageChar_of_mem_slugify,
      packageSlug_of_isPackageChar isPackageChar_of_mem_packageSlug, length_packageSlug text⟩
    · rw [slugify_eq_dashed (slugify text), slugRuns_slugify, slugify_eq_dashed]
    · rw [slugify_eq_dashed (packageSlug text), slugRuns_packageSlug, slugify_eq_dashed]
  · intro schema edited title h
    obtain ⟨-, -, he⟩ := Schema.addPage_eq_ok_iff.mp h
    refine ⟨_, he, rfl, rfl, fun other => ⟨?_, Schema.exists_invalidTitle_iff⟩⟩
    rw [Schema.exists_duplicatePage_iff, he, Schema.pages_withPages]
    simp only [List.mem_append, List.mem_singleton, or_and_right, exists_or, exists_eq_left]
    rw [or_comm, eq_comm]

def homeOnly : Schema where
  website :=
    { name := "Acme"
      colors := { primary := "#3b82f6", secondary := "#0f172a" }
      pages := [{ slug := "home", title := "Home", sections := [] }] }

/-- The title that is added starts with the Kelvin sign, whose lower case is the letter k. -/
theorem slugify_joins_runs_kelvin :
    ∃ edited, homeOnly.addPage "\u212A 2" = .ok edited ∧
      (∃ slug, edited.addPage "(K) -- 2!" = .error (.duplicatePage slug)) ∧
      (∃ slug, edited.addPage "HOME" = .error (.duplicatePage slug)) ∧
      (¬ ∃ slug, edited.addPage "k2" = .error (.duplicatePage slug)) ∧
      ∃ text, edited.addPage "!?" = .error (.invalidTitle text) := by
  have hadd : homeOnly.addPage "\u212A 2" = .ok _ :=
    Schema.addPage_eq_ok_iff.mpr ⟨by decide +kernel, by decide +kernel, rfl⟩
  have hkelvin : slugify "\u212A 2" = "k-2" := by decide +kernel
  obtain ⟨added, -, -, hslug, hothers⟩ := slugify_joins_runs.2 homeOnly _ _ hadd
  rw [hkelvin] at hslug
  refine ⟨_, hadd, (hothers _).1.mpr ⟨by decide +kernel, .inl ?_⟩,
    (hothers _).1.mpr ⟨by decide +kernel, .inr ⟨_, List.mem_cons_self, by decide +kernel⟩⟩, ?_,
    (hothers _).2.mpr (by decide +kernel)⟩
  · rw [hslug]
    decide +kernel
  · rw [(hothers "k2").1, hslug]
    rintro ⟨-, h | ⟨page, hm, hp⟩⟩
    · exact absurd h (by decide +kernel)
    · rw [List.mem_singleton.mp hm] at hp
      exact absurd hp (by decide +kernel)

end Sitewright
