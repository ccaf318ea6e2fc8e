import Sitewright.Proofs.Editor.Sections
import Sitewright.Registry.Defaults

/-!
# Taking back an added section

An edit that changes the pages with a slug has nothing to take back if these pages are in the end
what they were. A new section has an id that no section of its page has, so to remove it leaves the
others, and what has become of its props by then does not matter. Other pages of the same slug might
have sections of that id: with distinct slugs there are none.
-/

namespace Sitewright

namespace Section

def updated (id : String) (partialProps : Fields) (s : Section) : Section :=
  if s.id == id then { s with props := Dict.overlay s.props partialProps } else s

variable {id : String} {partialProps : Fields} {s : Section}

theorem id_updated (id : String) (partialProps : Fields) (s : Section) :
    (s.updated id partialProps).id = s.id := by
  unfold updated
  split_ifs <;> rfl

theorem updated_of_ne (h : s.id ≠ id) : s.updated id partialProps = s :=
  if_neg (by simpa using h)

end Section

namespace Page

variable {page : Page} {s : Section}

theorem updateProps_eq_mapSections (page : Page) (id : String) (partialProps : Fields) :
    page.updateProps id partialProps = page.mapSections (Section.updated id partialProps) := rfl

theorem hasSection_append (page : Page) (s : Section) : (page.append s).hasSection s.id = true := by
  simp [hasSection, append]

theorem remove_append (h : s.id ∉ page.sectionIds) : (page.append s).remove s.id = page := by
  have hkeep : page.sections.filter (fun other => other.id != s.id) = page.sections := by
    rw [List.filter_eq_self]
    intro other hm
    exact bne_iff_ne.mpr fun he => h (he ▸ List.mem_map_of_mem hm)
  simp [remove, append, List.filter_append, hkeep]

/-- No section that has been updated is left. -/
theorem remove_updateProps (page : Page) (id : String) (partialProps : Fields) :
    (page.updateProps id partialProps).remove id = page.remove id := by
  have hsame : (page.remove id).sections.map (Section.updated id partialProps) =
      (page.remove id).sections := by
    conv => rhs; rw [← List.map_id (page.remove id).sections]
    apply List.map_congr_left
    intro s hm
    exact Section.updated_of_ne (by simpa using (List.mem_filter.mp hm).2)
  rw [updateProps_eq_mapSections, remove_mapSections (Section.id_updated id partialProps),
    mapSections, hsame]

end Page

namespace Schema

variable {schema edited : Schema} {slug : String} {change : Page → Page}

theorem findPage?_mapPages (hc : ∀ page, (change page).slug = page.slug) (schema : Schema)
    (slug : String) :
    (schema.mapPages slug change).findPage? slug = (schema.findPage? slug).map change := by
  rw [findPage?, findPage?, pages_mapPages]
  induction schema.pages with
  | nil => rfl
  | cons page pages ih =>
      by_cases hs : page.slug = slug
      · simp [hs, hc]
      · simp [hs, ih]

theorem mapPages_mapPages (hc : ∀ page, (change page).slug = page.slug) (schema : Schema)
    (slug : String) (later : Page → Page) :
    (schema.mapPages slug change).mapPages slug later =
      schema.mapPages slug fun page => later (change page) := by
  have hpages : ((schema.mapPages slug change).mapPages slug later).pages =
      (schema.mapPages slug fun page => later (change page)).pages := by
    rw [pages_mapPages, pages_mapPages, pages_mapPages, List.map_map]
    apply List.map_congr_left
    intro page _
    by_cases hs : page.slug = slug
    · simp only [Function.comp_apply, if_pos hs, if_pos ((hc page).trans hs)]
    · simp only [Function.comp_apply, if_neg hs]
  exact congrArg schema.withPages hpages

theorem mapPages_eq_self (h : ∀ page ∈ schema.pages, page.slug = slug → change page = page) :
    schema.mapPages slug change = schema := by
  have hpages : (schema.mapPages slug change).pages = schema.pages := by
    rw [pages_mapPages]
    conv => rhs; rw [← List.map_id schema.pages]
    apply List.map_congr_left
    intro page hm
    by_cases hs : page.slug = slug
    · rw [if_pos hs, h page hm hs, id]
    · rw [if_neg hs, id]
  exact congrArg schema.withPages hpages

/-- Changes of the page with a slug that bring it back have no effect. -/
theorem mapPages_eq_self_of_findPage? (h : (schema.pages.map (·.slug)).Nodup) {found : Page}
    (hf : schema.findPage? slug = some found) (hc : change found = found) :
    schema.mapPages slug change = schema := by
  apply mapPages_eq_self
  intro page hm hs
  rw [eq_of_findPage? h hf hm hs, hc]

/-- A further change of a page, provided that it has the section by then. -/
theorem changeSection_mapPages (hc : ∀ page, (change page).slug = page.slug) {found : Page}
    (hf : schema.findPage? slug = some found) {id : String}
    (hs : (change found).hasSection id = true) (later : Page → Page) :
    (schema.mapPages slug change).changeSection slug id later =
      .ok (schema.mapPages slug fun page => later (change page)) := by
  refine changeSection_eq_ok_iff.mpr ⟨change found, ?_, hs, ?_⟩
  · rw [findPage?_mapPages hc, hf, Option.map_some]
  · rw [mapPages_mapPages hc]

/-- A section that has been added is the last one of its page and the only one there with its id.
Removing it gives the schema back, whether its props have been updated before or not. -/
theorem removeSection_addSection {registry : Registry} {type : Json} {ids next : IdSource}
    {made : Section} (hslugs : (schema.pages.map (·.slug)).Nodup)
    (h : schema.addSection registry slug type ids = .ok (edited, made, next)) :
    (∃ page later, schema.findPage? slug = some page ∧ edited.findPage? slug = some later ∧
      later.sections = page.sections ++ [made] ∧ made.id ∉ page.sectionIds) ∧
    edited.removeSection slug made.id = .ok schema ∧
    ∀ partialProps, ∃ updated, edited.updateProps slug made.id partialProps = .ok updated ∧
      updated.removeSection slug made.id = .ok schema := by
  obtain ⟨kind, page, -, hpage, hmade, rfl⟩ := addSection_eq_ok h
  have hfresh : made.id ∉ page.sectionIds := (Registry.createSection_eq_ok hmade).1
  have hback : (page.append made).remove made.id = page := Page.remove_append hfresh
  have hslug (page : Page) : (page.append made).slug = page.slug := rfl
  have hsection : (page.append made).hasSection made.id = true := Page.hasSection_append page made
  refine ⟨⟨page, page.append made, hpage, ?_, rfl, hfresh⟩, ?_, fun partialProps => ?_⟩
  · rw [findPage?_mapPages hslug, hpage, Option.map_some]
  · rw [removeSection, changeSection_mapPages hslug hpage hsection,
      mapPages_eq_self_of_findPage? hslugs hpage hback]
  · let update (page : Page) : Page := (page.append made).updateProps made.id partialProps
    have hupdate (page : Page) : (update page).slug = page.slug := rfl
    have hupdated : (update page).hasSection made.id = true := by
      rw [← hsection]
      exact Page.hasSection_mapSections (Section.id_updated _ _) _ _
    have hremoved : (update page).remove made.id = page := by
      rw [Page.remove_updateProps, hback]
    refine ⟨schema.mapPages slug update, changeSection_mapPages hslug hpage hsection _, ?_⟩
    rw [removeSection, changeSection_mapPages hupdate hpage hupdated,
      mapPages_eq_self_of_findPage? hslugs hpage hremoved]

/-- A page with two sections of one id, and another page with a section of that id. -/
def repeating : Schema where
  website :=
    { name := "Acme"
      colors := { primary := "#3b82f6", secondary := "#0f172a" }
      pages :=
        [{ slug := "home", title := "Home"
           sections := [⟨"sec-hero-a", "hero", [], []⟩, ⟨"sec-hero-a", "cta", [], []⟩] },
          { slug := "about", title := "About", sections := [⟨"sec-hero-a", "hero", [], []⟩] }] }

/-- The first draw leads to the id of the sections that are there already. -/
theorem removeSection_addSection_repeating :
    (repeating.pages.map (·.slug)).Nodup ∧ ∃ later made next,
      repeating.addSection Registry.default "home" (.string "hero") (.ofList ["a", "b"]) =
        .ok (later, made, next) ∧
      made.id = "sec-hero-b" ∧ later.removeSection "home" made.id = .ok repeating ∧
      ∃ updated, later.updateProps "home" made.id [("title", .null)] = .ok updated ∧
        updated.removeSection "home" made.id = .ok repeating := by
  have hslugs : (repeating.pages.map (·.slug)).Nodup := by decide
  have hadd : repeating.addSection Registry.default "home" (.string "hero") (.ofList ["a", "b"]) =
      .ok (_, _, _) := rfl
  obtain ⟨-, hremove, hupdate⟩ := removeSection_addSection hslugs hadd
  exact ⟨hslugs, _, _, _, hadd, by decide, hremove, hupdate [("title", .null)]⟩

end Schema

end Sitewright
