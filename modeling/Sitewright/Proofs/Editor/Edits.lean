import Mathlib.Data.List.Nodup
import Sitewright.Editor
import Sitewright.Proofs.Ids
import Sitewright.Proofs.Outcome

/-!
# What an edit does

An edit that can be made says what it has checked and which pages it leaves: the others follow from
these statements without a look at the definitions. Enrichment gives every page another one with
the same heading whose sections have the same headings. `Edit.Change` says all that an edit may make
of a page that is there.
-/

namespace Sitewright

/-! ## Pages -/

namespace Schema

variable {schema edited : Schema} {slug : String}

@[simp] theorem pages_withPages (schema : Schema) (pages : List Page) :
    (schema.withPages pages).pages = pages := rfl

theorem pages_mapPages (schema : Schema) (slug : String) (change : Page → Page) :
    (schema.mapPages slug change).pages =
      schema.pages.map fun page => if page.slug = slug then change page else page := by
  simp [mapPages]

theorem slug_of_findPage? {page : Page} (h : schema.findPage? slug = some page) :
    page.slug = slug := by
  simpa using List.find?_some h

theorem mem_of_findPage? {page : Page} (h : schema.findPage? slug = some page) :
    page ∈ schema.pages :=
  List.mem_of_find?_eq_some h

theorem slug_ne_of_findPage?_eq_none (h : schema.findPage? slug = none) {page : Page}
    (hm : page ∈ schema.pages) : page.slug ≠ slug := by
  simpa using List.find?_eq_none.mp h page hm

theorem addPage_eq_ok_iff {title : String} :
    schema.addPage title = .ok edited ↔
      slugify title ≠ "" ∧ schema.findPage? (slugify title) = none ∧
        edited = schema.withPages
          (schema.pages ++ [{ slug := slugify title, title, sections := [] }]) := by
  unfold addPage
  by_cases he : slugify title = ""
  · simp [he]
  · cases hf : schema.findPage? (slugify title) with
    | none =>
        simp only [String.isEmpty_iff, he, hf, Option.isSome_none, Bool.false_eq_true, if_false,
          Except.ok.injEq, ne_eq, not_false_eq_true, true_and]
        exact eq_comm
    | some page => simp [he, hf]

/-- With distinct slugs the page that was looked up is the only one with its slug. -/
theorem eq_of_findPage? (h : (schema.pages.map (·.slug)).Nodup) {page found : Page}
    (hf : schema.findPage? slug = some found) (hm : page ∈ schema.pages) (hs : page.slug = slug) :
    page = found :=
  List.inj_on_of_nodup_map h hm (mem_of_findPage? hf) (hs.trans (slug_of_findPage? hf).symm)

/-- A title without a slug is refused, and so is one whose slug is that of a page. -/
theorem addPage_cases (schema : Schema) (title : String) :
    slugify title = "" ∧ schema.addPage title = .error (.invalidTitle title) ∨
    slugify title ≠ "" ∧ (∃ page ∈ schema.pages, page.slug = slugify title) ∧
      schema.addPage title = .error (.duplicatePage (slugify title)) ∨
    slugify title ≠ "" ∧ (∀ page ∈ schema.pages, page.slug ≠ slugify title) ∧
      schema.addPage title = .ok (schema.withPages
        (schema.pages ++ [{ slug := slugify title, title, sections := [] }])) := by
  unfold addPage
  by_cases he : slugify title = ""
  · rw [he]
    exact .inl ⟨rfl, rfl⟩
  · have hempty : ¬ (slugify title).isEmpty = true := fun h => he (String.isEmpty_iff.mp h)
    rw [if_neg hempty]
    cases hf : schema.findPage? (slugify title) with
    | none =>
        exact .inr (.inr ⟨he, fun page hm => slug_ne_of_findPage?_eq_none hf hm, rfl⟩)
    | some page =>
        exact .inr (.inl ⟨he, ⟨page, mem_of_findPage? hf, slug_of_findPage? hf⟩, rfl⟩)

theorem addSection_eq_ok {registry : Registry} {type : Json} {ids next : IdSource}
    {made : Section} (h : schema.addSection registry slug type ids = .ok (edited, made, next)) :
    ∃ kind page, SectionKind.ofJson? type = some kind ∧ schema.findPage? slug = some page ∧
      registry.createSection kind none page.sectionIds ids = .ok (made, next) ∧
        edited = schema.mapPages slug (·.append made) := by
  unfold addSection at h
  cases hk : SectionKind.ofJson? type with
  | none => simp [hk] at h
  | some kind =>
      cases hp : schema.findPage? slug with
      | none => simp [hk, hp] at h
      | some page =>
          cases hc : registry.createSection kind none page.sectionIds ids with
          | error cause => simp [hk, hp, hc] at h
          | ok result =>
              obtain ⟨made', rest⟩ := result
              simp only [hk, hp, hc, Except.ok.injEq, Prod.mk.injEq] at h
              obtain ⟨rfl, rfl, rfl⟩ := h
              exact ⟨kind, page, rfl, rfl, hc, rfl⟩

theorem changeSection_eq_ok_iff {id : String} {change : Page → Page} :
    schema.changeSection slug id change = .ok edited ↔
      ∃ page, schema.findPage? slug = some page ∧ page.hasSection id = true ∧
        edited = schema.mapPages slug change := by
  unfold changeSection
  cases hp : schema.findPage? slug with
  | none => simp
  | some page =>
      by_cases hs : page.hasSection id = true
      · simp only [hs, if_true, Except.ok.injEq, Option.some.injEq, exists_eq_left', true_and]
        exact eq_comm
      · simp [hs]

end Schema

/-! ## Sections -/

namespace Page

/-- What no edit of a page changes. -/
def heading (page : Page) : String × String × Fields :=
  (page.slug, page.title, page.extra)

end Page

namespace Section

/-- What no edit of a section changes. -/
def heading (s : Section) : String × String × Fields :=
  (s.id, s.type, s.extra)

end Section

namespace Page

variable {page : Page} {id : String}

def sectionHeadings (page : Page) : List (String × String × Fields) :=
  page.sections.map Section.heading

theorem sectionIds_eq_map (page : Page) : page.sectionIds = page.sectionHeadings.map (·.1) := by
  simp [sectionIds, sectionHeadings, Section.heading]

@[simp] theorem heading_append (page : Page) (s : Section) :
    (page.append s).heading = page.heading :=
  rfl

@[simp] theorem heading_remove (page : Page) (id : String) :
    (page.remove id).heading = page.heading :=
  rfl

@[simp] theorem heading_updateProps (page : Page) (id : String) (partialProps : Fields) :
    (page.updateProps id partialProps).heading = page.heading :=
  rfl

@[simp] theorem sectionHeadings_append (page : Page) (s : Section) :
    (page.append s).sectionHeadings = page.sectionHeadings ++ [s.heading] := by
  simp [sectionHeadings, append]

@[simp] theorem sectionHeadings_remove (page : Page) (id : String) :
    (page.remove id).sectionHeadings =
      page.sectionHeadings.filter fun heading => heading.1 != id := by
  simp only [sectionHeadings, remove, List.filter_map]
  rfl

@[simp] theorem sectionHeadings_updateProps (page : Page) (id : String) (partialProps : Fields) :
    (page.updateProps id partialProps).sectionHeadings = page.sectionHeadings := by
  simp only [sectionHeadings, updateProps, List.map_map]
  apply List.map_congr_left
  intro s _
  by_cases hs : s.id = id <;> simp [hs, Section.heading]

theorem slug_eq_of_heading_eq {page other : Page} (h : page.heading = other.heading) :
    page.slug = other.slug :=
  congrArg (·.1) h

end Page

/-! ## Enrichment -/

namespace Registry

variable {registry : Registry} {name : String}

/-- What enrichment makes of a section: the same one if its kind is unknown, or else new props. -/
theorem enrichSection_cases {s enriched : Section}
    (h : registry.enrichSection name s = .ok enriched) :
    s.kind? = none ∧ enriched = s ∨
      ∃ kind props, s.kind? = some kind ∧
        (registry.definition kind).enrichment.apply name s.props = .ok props ∧
        enriched = { s with props } := by
  unfold enrichSection lookup? at h
  rw [Section.kind?]
  cases hk : SectionKind.ofName? s.type with
  | none =>
      simp only [hk, Option.map_none, Except.ok.injEq] at h
      exact .inl ⟨rfl, h.symm⟩
  | some kind =>
      simp only [hk, Option.map_some] at h
      cases ha : (registry.definition kind).enrichment.apply name s.props with
      | error cause => simp [ha] at h
      | ok props =>
          simp only [ha, Except.ok.injEq] at h
          exact .inr ⟨kind, props, rfl, ha, h.symm⟩

theorem heading_enrichSection {s enriched : Section}
    (h : registry.enrichSection name s = .ok enriched) : enriched.heading = s.heading := by
  obtain ⟨-, rfl⟩ | ⟨kind, props, -, -, rfl⟩ := enrichSection_cases h <;> rfl

theorem enrichPage_eq_ok_iff {page enriched : Page} :
    registry.enrichPage name page = .ok enriched ↔
      ∃ sections, page.sections.mapM (registry.enrichSection name) = .ok sections ∧
        enriched = { page with sections } := by
  unfold enrichPage
  cases page.sections.mapM (registry.enrichSection name) with
  | error cause => simp
  | ok sections => simp [eq_comm]

theorem heading_enrichPage {page enriched : Page}
    (h : registry.enrichPage name page = .ok enriched) :
    enriched.heading = page.heading ∧ enriched.sectionHeadings = page.sectionHeadings := by
  obtain ⟨sections, hs, rfl⟩ := enrichPage_eq_ok_iff.mp h
  refine ⟨rfl, ?_⟩
  change sections.map Section.heading = page.sections.map Section.heading
  have hf := (Outcome.mapM_eq_ok_iff.mp hs).imp fun s e he => heading_enrichSection he
  rw [← List.forall₂_eq_eq_eq, List.forall₂_map_left_iff, List.forall₂_map_right_iff]
  exact hf.flip

theorem enrich_eq_ok_iff {schema enriched : Schema} :
    registry.enrich schema = .ok enriched ↔
      ∃ pages, schema.pages.mapM (registry.enrichPage schema.name) = .ok pages ∧
        enriched = schema.withPages pages := by
  unfold enrich
  cases schema.pages.mapM (registry.enrichPage schema.name) with
  | error cause => simp
  | ok pages =>
      simp only [Except.ok.injEq, exists_eq_left']
      exact eq_comm

theorem pages_enrich {schema enriched : Schema} (h : registry.enrich schema = .ok enriched) :
    List.Forall₂ (fun page page' => registry.enrichPage schema.name page = .ok page') schema.pages
      enriched.pages := by
  obtain ⟨pages, hp, rfl⟩ := enrich_eq_ok_iff.mp h
  exact Outcome.mapM_eq_ok_iff.mp hp

theorem enrich_eq_withPages {schema enriched : Schema} (h : registry.enrich schema = .ok enriched) :
    enriched = schema.withPages enriched.pages := by
  obtain ⟨pages, -, rfl⟩ := enrich_eq_ok_iff.mp h
  rfl

end Registry

/-! ## Edits -/

namespace Edit

variable {registry : Registry} {state next : State} {made : Option Section}

theorem apply_addPage (title : String) :
    apply registry state (.addPage title) =
      (state.schema.addPage title).map fun schema => ({ state with schema }, none) := by
  rw [apply]
  cases state.schema.addPage title <;> rfl

theorem apply_addSection (slug : String) (type : Json) :
    apply registry state (.addSection slug type) =
      (state.schema.addSection registry slug type state.ids).map fun (schema, made, ids) =>
        (⟨schema, ids⟩, some made) := by
  rw [apply]
  cases state.schema.addSection registry slug type state.ids <;> rfl

theorem apply_removeSection (slug id : String) :
    apply registry state (.removeSection slug id) =
      (state.schema.removeSection slug id).map fun schema => ({ state with schema }, none) := by
  rw [apply]
  cases state.schema.removeSection slug id <;> rfl

theorem apply_updateProps (slug id : String) (partialProps : Fields) :
    apply registry state (.updateProps slug id partialProps) =
      (state.schema.updateProps slug id partialProps).map fun schema =>
        ({ state with schema }, none) := by
  rw [apply]
  cases state.schema.updateProps slug id partialProps <;> rfl

theorem apply_addPage_eq_ok {title : String}
    (h : apply registry state (.addPage title) = .ok (next, made)) :
    state.schema.addPage title = .ok next.schema ∧ next.ids = state.ids ∧ made = none := by
  obtain ⟨edited, he, heq⟩ := Outcome.bind_pure_eq_ok_iff.mp h
  cases heq
  exact ⟨he, rfl, rfl⟩

theorem apply_addSection_eq_ok {slug : String} {type : Json}
    (h : apply registry state (.addSection slug type) = .ok (next, made)) :
    ∃ s, state.schema.addSection registry slug type state.ids = .ok (next.schema, s, next.ids) ∧
      made = some s := by
  obtain ⟨⟨edited, s, ids⟩, he, heq⟩ := Outcome.bind_pure_eq_ok_iff.mp h
  cases heq
  exact ⟨s, he, rfl⟩

theorem apply_removeSection_eq_ok {slug id : String}
    (h : apply registry state (.removeSection slug id) = .ok (next, made)) :
    state.schema.removeSection slug id = .ok next.schema ∧ next.ids = state.ids ∧ made = none := by
  obtain ⟨edited, he, heq⟩ := Outcome.bind_pure_eq_ok_iff.mp h
  cases heq
  exact ⟨he, rfl, rfl⟩

theorem apply_updateProps_eq_ok {slug id : String} {partialProps : Fields}
    (h : apply registry state (.updateProps slug id partialProps) = .ok (next, made)) :
    state.schema.updateProps slug id partialProps = .ok next.schema ∧ next.ids = state.ids ∧
      made = none := by
  obtain ⟨edited, he, heq⟩ := Outcome.bind_pure_eq_ok_iff.mp h
  cases heq
  exact ⟨he, rfl, rfl⟩

theorem apply_enrich_eq_ok (h : apply registry state .enrich = .ok (next, made)) :
    registry.enrich state.schema = .ok next.schema ∧ next.ids = state.ids ∧ made = none := by
  obtain ⟨edited, he, heq⟩ := Outcome.bind_pure_eq_ok_iff.mp h
  cases heq
  exact ⟨he, rfl, rfl⟩

/-! ## What becomes of a page -/

/-- What an edit may make of a page. -/
inductive Change (registry : Registry) : Edit → Page → Page → Prop
  | same {edit : Edit} {page : Page} : Change registry edit page page
  | appended {slug : String} {type : Json} {page : Page} {kind : SectionKind}
      {taken : List String} {ids rest : IdSource} {s : Section}
      (created : registry.createSection kind none taken ids = .ok (s, rest)) :
      Change registry (.addSection slug type) page (page.append s)
  | removed {slug id : String} {page : Page} :
      Change registry (.removeSection slug id) page (page.remove id)
  | updated {slug id : String} {partialProps : Fields} {page : Page} :
      Change registry (.updateProps slug id partialProps) page (page.updateProps id partialProps)
  | enriched {name : String} {page enriched : Page}
      (enriches : registry.enrichPage name page = .ok enriched) :
      Change registry .enrich page enriched

variable {edit : Edit} {schema : Schema} {slug : String} {change : Page → Page}

theorem exists_change_of_mapPages (hc : ∀ page : Page, Change registry edit page (change page))
    {page : Page} (hm : page ∈ (schema.mapPages slug change).pages) :
    ∃ original ∈ schema.pages, Change registry edit original page := by
  rw [Schema.pages_mapPages] at hm
  obtain ⟨original, ho, rfl⟩ := List.mem_map.mp hm
  refine ⟨original, ho, ?_⟩
  by_cases hs : original.slug = slug
  · rw [if_pos hs]
    exact hc original
  · rw [if_neg hs]
    exact Change.same

/-- Beside its pages an edit leaves a schema as it is, and every page is new or comes from one that
was there. -/
theorem changes_of_apply (h : apply registry state edit = .ok (next, made)) :
    next.schema = state.schema.withPages next.schema.pages ∧
      ∀ page ∈ next.schema.pages,
        (∃ title, edit = .addPage title ∧
          page = { slug := slugify title, title, sections := [] }) ∨
        ∃ original ∈ state.schema.pages, Change registry edit original page := by
  cases edit with
  | addPage title =>
      obtain ⟨-, -, he⟩ := Schema.addPage_eq_ok_iff.mp (apply_addPage_eq_ok h).1
      rw [he]
      refine ⟨rfl, ?_⟩
      intro page hm
      rcases List.mem_append.mp hm with hm | hm
      · exact Or.inr ⟨page, hm, Change.same⟩
      · exact Or.inl ⟨title, rfl, List.mem_singleton.mp hm⟩
  | addSection slug type =>
      obtain ⟨s, ha, -⟩ := apply_addSection_eq_ok h
      obtain ⟨kind, found, -, -, hc, he⟩ := Schema.addSection_eq_ok ha
      rw [he]
      exact ⟨rfl, fun page hm =>
        Or.inr (exists_change_of_mapPages (fun page => Change.appended hc) hm)⟩
  | removeSection slug id =>
      obtain ⟨found, -, -, he⟩ :=
        Schema.changeSection_eq_ok_iff.mp (apply_removeSection_eq_ok h).1
      rw [he]
      exact ⟨rfl, fun page hm =>
        Or.inr (exists_change_of_mapPages (fun page => Change.removed) hm)⟩
  | updateProps slug id partialProps =>
      obtain ⟨found, -, -, he⟩ :=
        Schema.changeSection_eq_ok_iff.mp (apply_updateProps_eq_ok h).1
      rw [he]
      exact ⟨rfl, fun page hm =>
        Or.inr (exists_change_of_mapPages (fun page => Change.updated) hm)⟩
  | enrich =>
      have ha := (apply_enrich_eq_ok h).1
      refine ⟨Registry.enrich_eq_withPages ha, ?_⟩
      intro page hm
      obtain ⟨original, ho, he⟩ := Outcome.exists_of_mem_right (Registry.pages_enrich ha) hm
      exact Or.inr ⟨original, ho, Change.enriched he⟩

end Edit

end Sitewright
