import Sitewright.Proofs.Editor.Edits

/-!
# Maps of sections

A map over the sections of a schema leaves its pages where they are. If it keeps the ids of the
sections, the edits that add a page or remove a section may as well be made after the map as before
it, and fail for the same reason.
-/

namespace Sitewright

def Page.mapSections (f : Section → Section) (page : Page) : Page :=
  { page with sections := page.sections.map f }

def Schema.mapSections (f : Section → Section) (schema : Schema) : Schema :=
  schema.withPages (schema.pages.map (Page.mapSections f))

@[simp] theorem Schema.pages_mapSections (f : Section → Section) (schema : Schema) :
    (schema.mapSections f).pages = schema.pages.map (Page.mapSections f) := rfl

theorem Schema.withPages_mapSections (f : Section → Section) (schema : Schema)
    (pages : List Page) :
    (schema.mapSections f).withPages (pages.map (Page.mapSections f)) =
      (schema.withPages pages).mapSections f := rfl

def Schema.sectionAt? (schema : Schema) (page place : Nat) : Option Section :=
  schema.pages[page]?.bind fun page => page.sections[place]?

variable {f : Section → Section}

namespace Page

theorem hasSection_mapSections (hf : ∀ s, (f s).id = s.id) (page : Page) (id : String) :
    (page.mapSections f).hasSection id = page.hasSection id := by
  simp only [hasSection, mapSections, List.any_map, Function.comp_def, hf]

theorem remove_mapSections (hf : ∀ s, (f s).id = s.id) (page : Page) (id : String) :
    (page.mapSections f).remove id = (page.remove id).mapSections f := by
  simp only [remove, mapSections, List.filter_map, Function.comp_def, hf]

end Page

namespace Schema

theorem sectionAt?_mapSections (f : Section → Section) (schema : Schema) (page place : Nat) :
    (schema.mapSections f).sectionAt? page place = (schema.sectionAt? page place).map f := by
  rw [sectionAt?, sectionAt?, pages_mapSections, List.getElem?_map]
  cases schema.pages[page]? with
  | none => rfl
  | some found => exact List.getElem?_map

theorem findPage?_mapSections (f : Section → Section) (schema : Schema) (slug : String) :
    (schema.mapSections f).findPage? slug = (schema.findPage? slug).map (Page.mapSections f) :=
  List.find?_map

theorem mapPages_mapSections {change : Page → Page}
    (hc : ∀ page : Page, change (page.mapSections f) = (change page).mapSections f)
    (schema : Schema) (slug : String) :
    (schema.mapSections f).mapPages slug change = (schema.mapPages slug change).mapSections f := by
  rw [mapPages, mapPages, ← withPages_mapSections, pages_mapSections, List.map_map, List.map_map]
  apply congrArg
  apply List.map_congr_left
  intro page _
  by_cases hs : (page.slug == slug) = true
  · simp only [Function.comp_apply, if_pos hs, ← hc]
    exact if_pos hs
  · simp only [Function.comp_apply, if_neg hs]
    exact if_neg hs

theorem changeSection_mapSections {change : Page → Page} (hf : ∀ s, (f s).id = s.id)
    (hc : ∀ page : Page, change (page.mapSections f) = (change page).mapSections f)
    (schema : Schema) (slug id : String) :
    (schema.mapSections f).changeSection slug id change =
      (schema.changeSection slug id change).map (mapSections f) := by
  rw [changeSection, changeSection, findPage?_mapSections]
  cases schema.findPage? slug with
  | none => rfl
  | some page =>
      simp only [Option.map_some, Page.hasSection_mapSections hf, mapPages_mapSections hc]
      by_cases hs : page.hasSection id = true
      · rw [if_pos hs, if_pos hs]
        rfl
      · rw [if_neg hs, if_neg hs]
        rfl

theorem removeSection_mapSections (hf : ∀ s, (f s).id = s.id) (schema : Schema)
    (slug id : String) :
    (schema.mapSections f).removeSection slug id =
      (schema.removeSection slug id).map (mapSections f) :=
  changeSection_mapSections hf (fun page => Page.remove_mapSections hf page id) schema slug id

theorem addPage_mapSections (f : Section → Section) (schema : Schema) (title : String) :
    (schema.mapSections f).addPage title = (schema.addPage title).map (mapSections f) := by
  rw [addPage, addPage, findPage?_mapSections, Option.isSome_map]
  generalize slugify title = slug
  by_cases he : slug.isEmpty = true
  · simp only [he, if_true]
    rfl
  · by_cases hp : (schema.findPage? slug).isSome = true
    · simp only [he, hp, if_true]
      rfl
    · -- the new page has no sections to be mapped
      let made : Page := { slug, title, sections := [] }
      have hpages : (schema.mapSections f).pages ++ [made] =
          (schema.pages ++ [made]).map (Page.mapSections f) := by
        rw [List.map_append]
        rfl
      rw [hpages, withPages_mapSections, if_neg he, if_neg he, if_neg hp, if_neg hp]
      rfl

theorem name_of_removeSection {schema edited : Schema} {slug id : String}
    (h : schema.removeSection slug id = .ok edited) : edited.name = schema.name := by
  obtain ⟨page, -, -, rfl⟩ := changeSection_eq_ok_iff.mp h
  rfl

theorem name_of_addPage {schema edited : Schema} {title : String}
    (h : schema.addPage title = .ok edited) : edited.name = schema.name := by
  obtain ⟨-, -, rfl⟩ := addPage_eq_ok_iff.mp h
  rfl

end Schema

end Sitewright
