import Sitewright.Proofs.Editor.Edits
import Sitewright.Registry.Defaults
import Sitewright.Schema.Decode

/-!
# What an edit of a page leaves alone

An edit checks the first page with a slug. Pages of the same slug that stand behind it are shadowed:
no check looks at them, but the edit changes them too. So the other pages are left alone exactly
when the change would do nothing to the shadowed ones.
-/

namespace Sitewright

namespace Schema

def foundAt (schema : Schema) (slug : String) : Nat :=
  schema.pages.findIdx fun page => page.slug == slug

/-- A page with the slug that is not the one that was looked up. -/
def Shadows (schema : Schema) (slug : String) (page : Page) : Prop :=
  ∃ i : Nat, schema.pages[i]? = some page ∧ i ≠ schema.foundAt slug ∧ page.slug = slug

/-- Every page but the one that was looked up stays what it is. -/
def KeepsOthers (schema : Schema) (slug : String) (later : Schema) : Prop :=
  ∀ (i : Nat) (page : Page), schema.pages[i]? = some page → i ≠ schema.foundAt slug →
    later.pages[i]? = some page

variable {schema later : Schema} {slug : String} {change : Page → Page}

theorem getElem?_foundAt (schema : Schema) (slug : String) :
    schema.pages[schema.foundAt slug]? = schema.findPage? slug := by
  rw [findPage?, foundAt]
  induction schema.pages with
  | nil => rfl
  | cons page pages ih =>
      rw [List.findIdx_cons, List.find?_cons]
      cases page.slug == slug with
      | true => rfl
      | false => simpa only [cond_false, List.getElem?_cons_succ] using ih

theorem headings_mapPages (hc : ∀ page, (change page).heading = page.heading) :
    (schema.mapPages slug change).pages.map Page.heading = schema.pages.map Page.heading := by
  rw [pages_mapPages, List.map_map]
  apply List.map_congr_left
  intro page _
  by_cases hs : page.slug = slug
  · simp only [Function.comp_apply, if_pos hs, hc]
  · simp only [Function.comp_apply, if_neg hs]

theorem keepsOthers_mapPages_iff :
    schema.KeepsOthers slug (schema.mapPages slug change) ↔
      ∀ page, schema.Shadows slug page → change page = page := by
  constructor
  · rintro h page ⟨i, hp, hi, hs⟩
    have hk := h i page hp hi
    rw [pages_mapPages, List.getElem?_map, hp] at hk
    simpa only [Option.map_some, if_pos hs, Option.some.injEq] using hk
  · intro h i page hp hi
    rw [pages_mapPages, List.getElem?_map, hp, Option.map_some]
    by_cases hs : page.slug = slug
    · rw [if_pos hs, h page ⟨i, hp, hi, hs⟩]
    · rw [if_neg hs]

end Schema

namespace Page

variable {page : Page} {id : String}

theorem append_ne (page : Page) (s : Section) : page.append s ≠ page := by
  intro h
  have hl := congrArg (fun page => page.sections.length) h
  simp [append] at hl

theorem eq_of_sections_eq {sections : List Section} :
    { page with sections } = page ↔ sections = page.sections := by
  constructor
  · intro h
    exact congrArg Page.sections h
  · rintro rfl
    rfl

theorem remove_eq_self_iff : page.remove id = page ↔ page.hasSection id = false := by
  rw [remove, eq_of_sections_eq, List.filter_eq_self]
  simp [hasSection]

theorem updateProps_eq_self_iff {partialProps : Fields} :
    page.updateProps id partialProps = page ↔
      ∀ s ∈ page.sections, s.id = id → Dict.overlay s.props partialProps = s.props := by
  rw [updateProps, eq_of_sections_eq]
  conv => lhs; rhs; rw [← List.map_id page.sections]
  rw [List.map_inj_left]
  refine forall₂_congr fun s _ => ?_
  by_cases hs : s.id = id
  · simp only [hs, beq_self_eq_true, if_true, id_eq, forall_const]
    constructor
    · intro h
      exact congrArg Section.props h
    · intro h
      rw [h, ← hs]
  · simp [hs]

end Page

namespace Schema

/-- The pages keep their places and headings. Adding a section leaves the other pages alone if and
only if none is shadowed, removing one if and only if no shadowed page has a section of that id, and
updating props if and only if the props of such sections have the new entries already. -/
theorem keepsOthers_iff_of_edit (schema : Schema) (slug : String) :
    (∀ (registry : Registry) (type : Json) (ids next : IdSource) (later : Schema) (made : Section),
      schema.addSection registry slug type ids = .ok (later, made, next) →
        later.pages.map Page.heading = schema.pages.map Page.heading ∧
        (schema.KeepsOthers slug later ↔ ∀ page, ¬ schema.Shadows slug page)) ∧
    (∀ (id : String) (later : Schema), schema.removeSection slug id = .ok later →
      later.pages.map Page.heading = schema.pages.map Page.heading ∧
      (schema.KeepsOthers slug later ↔
        ∀ page, schema.Shadows slug page → page.hasSection id = false)) ∧
    ∀ (id : String) (partialProps : Fields) (later : Schema),
      schema.updateProps slug id partialProps = .ok later →
        later.pages.map Page.heading = schema.pages.map Page.heading ∧
        (schema.KeepsOthers slug later ↔
          ∀ page, schema.Shadows slug page → ∀ s ∈ page.sections, s.id = id →
            Dict.overlay s.props partialProps = s.props) := by
  refine ⟨?_, ?_, ?_⟩
  · intro registry type ids next later made h
    obtain ⟨kind, page, -, -, -, rfl⟩ := addSection_eq_ok h
    refine ⟨headings_mapPages fun page => Page.heading_append page made, ?_⟩
    rw [keepsOthers_mapPages_iff]
    exact forall_congr' fun page => imp_congr_right fun _ => iff_false_intro (page.append_ne made)
  · intro id later h
    obtain ⟨page, -, -, rfl⟩ := changeSection_eq_ok_iff.mp h
    refine ⟨headings_mapPages fun page => Page.heading_remove page id, ?_⟩
    rw [keepsOthers_mapPages_iff]
    exact forall₂_congr fun page _ => Page.remove_eq_self_iff
  · intro id partialProps later h
    obtain ⟨page, -, -, rfl⟩ := changeSection_eq_ok_iff.mp h
    refine ⟨headings_mapPages fun page => Page.heading_updateProps page id partialProps, ?_⟩
    rw [keepsOthers_mapPages_iff]
    exact forall₂_congr fun page _ => Page.updateProps_eq_self_iff

/-- Two pages of one slug that share a section; the second one has a further section. -/
def doubled : Schema where
  website :=
    { name := "Acme"
      colors := Colors.default
      pages :=
        [{ slug := "home", title := "Home", sections := [⟨"a", "cta", [], []⟩] },
          { slug := "home", title := "Old"
            sections := [⟨"a", "cta", [], []⟩, ⟨"sec-hero-b", "hero", [], []⟩] }] }

/-- The three edits of `doubled`. -/
theorem keepsOthers_iff_of_edit_doubled :
    (∃ later made next,
      doubled.addSection Registry.default "home" (.string "hero") (IdSource.ofList ["b"]) =
        .ok (later, made, next) ∧
      (doubled.KeepsOthers "home" later ↔ ∀ page, ¬ doubled.Shadows "home" page)) ∧
    (∃ later, doubled.removeSection "home" "a" = .ok later ∧
      (doubled.KeepsOthers "home" later ↔
        ∀ page, doubled.Shadows "home" page → page.hasSection "a" = false)) ∧
    ∃ later, doubled.updateProps "home" "a" [("title", .null)] = .ok later ∧
      (doubled.KeepsOthers "home" later ↔
        ∀ page, doubled.Shadows "home" page → ∀ s ∈ page.sections, s.id = "a" →
          Dict.overlay s.props [("title", .null)] = s.props) := by
  obtain ⟨ha, hr, hu⟩ := keepsOthers_iff_of_edit doubled "home"
  refine ⟨⟨_, _, _, rfl, ?_⟩, ⟨_, rfl, ?_⟩, ⟨_, rfl, ?_⟩⟩
  · exact (ha Registry.default (.string "hero") (IdSource.ofList ["b"]) _ _ _ rfl).2
  · exact (hr "a" _ rfl).2
  · exact (hu "a" [("title", .null)] _ rfl).2

/-- Adding a section to the first page of `doubled` gives the second one a section of an id that it
has already. -/
theorem addSection_changes_shadowed_page :
    (∀ page ∈ doubled.pages, page.sectionIds.Nodup) ∧
    ∃ later made next,
      doubled.addSection Registry.default "home" (.string "hero") (IdSource.ofList ["b"]) =
        .ok (later, made, next) ∧
      ¬ doubled.KeepsOthers "home" later ∧ ∃ page ∈ later.pages, ¬ page.sectionIds.Nodup := by
  refine ⟨by decide, _, _, _, rfl, ?_, ?_⟩
  · intro h
    have hl := congrArg (Option.map fun page => page.sections.length) (h 1 _ rfl (by decide))
    exact absurd hl (by decide)
  · exact ⟨_, List.mem_cons_of_mem _ (List.mem_singleton_self _), by decide⟩

end Schema

end Sitewright
