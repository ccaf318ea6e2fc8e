import Sitewright.Proofs.Dictionary
import Sitewright.Proofs.Editor.Frame
import Sitewright.Proofs.Editor.Undo

/-!
# Edits of different sections

A section is removed, or its props are updated, on every page with the slug, provided that the first
one of these pages has it. Neither edit adds or takes away sections of other ids, so whether one of
them can be made does not depend on the other, and both give the same schema in either order. Two
updates of one section add up to a single one.
-/

namespace Sitewright

def Section.KeepsId (f : Section → Option Section) : Prop :=
  ∀ s t : Section, f s = some t → t.id = s.id

namespace Page

variable {f g : Section → Option Section} {id other : String}

def alter (id : String) (f : Section → Option Section) (page : Page) : Page :=
  { page with sections := page.sections.filterMap fun s => if s.id = id then f s else some s }

theorem slug_alter (id : String) (f : Section → Option Section) (page : Page) :
    (page.alter id f).slug = page.slug := rfl

theorem remove_eq_alter (page : Page) (id : String) :
    page.remove id = page.alter id fun _ => none := by
  rw [remove, alter, ← List.filterMap_eq_filter]
  congr 2
  funext s
  by_cases hs : s.id = id
  · simp [Option.guard, hs]
  · simp [Option.guard, hs]

theorem updateProps_eq_alter (page : Page) (id : String) (partialProps : Fields) :
    page.updateProps id partialProps =
      page.alter id fun s => some { s with props := Dict.overlay s.props partialProps } := by
  rw [updateProps, alter, ← List.filterMap_eq_map]
  congr 2
  funext s
  by_cases hs : s.id = id
  · simp [hs]
  · simp [hs]

theorem hasSection_alter (hf : Section.KeepsId f) (hne : id ≠ other) (page : Page) :
    (page.alter id f).hasSection other = page.hasSection other := by
  rw [hasSection, hasSection, alter, List.any_filterMap]
  congr 1
  funext s
  by_cases hs : s.id = id
  · cases hfs : f s with
    | none => simp [hs, hne]
    | some t => simp [hs, hf s t hfs]
  · simp [hs]

/-- Alterations of sections with different ids commute. -/
theorem alter_alter (hf : Section.KeepsId f) (hg : Section.KeepsId g) (hne : id ≠ other)
    (page : Page) : (page.alter id f).alter other g = (page.alter other g).alter id f := by
  simp only [alter, List.filterMap_filterMap]
  congr 2
  funext s
  by_cases hs : s.id = id
  · cases hfs : f s with
    | none => simp [hs, hfs, hne]
    | some t => simp [hs, hfs, hf s t hfs, hne]
  · by_cases hso : s.id = other
    · cases hgs : g s with
      | none => simp [hso, hgs, Ne.symm hne]
      | some t => simp [hso, hgs, hg s t hgs, Ne.symm hne]
    · simp [hs, hso]

theorem updateProps_updateProps {partialProps : Fields} (hn : (Dict.keys partialProps).Nodup)
    (page : Page) (id : String) (later : Fields) :
    (page.updateProps id partialProps).updateProps id later =
      page.updateProps id (Dict.overlay partialProps later) := by
  simp only [updateProps, List.map_map]
  congr 1
  apply List.map_congr_left
  intro s _
  by_cases hs : s.id = id
  · simp [hs, Dict.overlay_overlay hn]
  · simp [hs]

theorem hasSection_updateProps (page : Page) (id other : String) (partialProps : Fields) :
    (page.updateProps id partialProps).hasSection other = page.hasSection other :=
  hasSection_mapSections (Section.id_updated id partialProps) page other

end Page

namespace Schema

variable {schema : Schema} {slug id : String} {change later : Page → Page}

def refusal? (schema : Schema) (slug id : String) : Option SiteError :=
  match schema.findPage? slug with
  | none => some (.pageNotFound slug)
  | some page => if page.hasSection id then none else some (.sectionNotFound id)

theorem changeSection_eq_match (schema : Schema) (slug id : String) (change : Page → Page) :
    schema.changeSection slug id change =
      match schema.refusal? slug id with
      | none => .ok (schema.mapPages slug change)
      | some cause => .error cause := by
  rw [changeSection, refusal?]
  cases schema.findPage? slug with
  | none => rfl
  | some page =>
      by_cases hs : page.hasSection id = true
      · simp only [if_pos hs]
      · simp only [if_neg hs]

theorem findPage?_mapPages_of_ne {other : String} (hc : ∀ page, (change page).slug = page.slug)
    (hne : slug ≠ other) (schema : Schema) :
    (schema.mapPages slug change).findPage? other = schema.findPage? other := by
  rw [findPage?, findPage?, pages_mapPages]
  induction schema.pages with
  | nil => rfl
  | cons page pages ih =>
      rw [List.map_cons, List.find?_cons, List.find?_cons, ih]
      by_cases hs : page.slug = slug
      · have hso : (slug == other) = false := beq_false_of_ne hne
        simp [hs, hc, hso]
      · simp [hs]

/-- A change does not matter to an edit whose sections it leaves on their pages. -/
theorem refusal?_mapPages {other : String} (hc : ∀ page, (change page).slug = page.slug)
    (hs : slug = other → ∀ page, (change page).hasSection id = page.hasSection id)
    (schema : Schema) :
    (schema.mapPages slug change).refusal? other id = schema.refusal? other id := by
  by_cases he : slug = other
  · subst he
    rw [refusal?, refusal?, findPage?_mapPages hc]
    cases schema.findPage? slug with
    | none => rfl
    | some page => simp only [Option.map_some, hs rfl page]
  · rw [refusal?, refusal?, findPage?_mapPages_of_ne hc he]

theorem mapPages_comm {other : String} (hc : ∀ page, (change page).slug = page.slug)
    (hl : ∀ page, (later page).slug = page.slug)
    (h : slug = other → ∀ page, later (change page) = change (later page)) (schema : Schema) :
    (schema.mapPages slug change).mapPages other later =
      (schema.mapPages other later).mapPages slug change := by
  by_cases he : slug = other
  · subst he
    rw [mapPages_mapPages hc, mapPages_mapPages hl]
    exact congrArg (schema.mapPages slug) (funext (h rfl))
  · have hpages : ((schema.mapPages slug change).mapPages other later).pages =
        ((schema.mapPages other later).mapPages slug change).pages := by
      simp only [pages_mapPages, List.map_map]
      apply List.map_congr_left
      intro page _
      by_cases hs : page.slug = slug
      · simp [hs, hc, he]
      · by_cases hso : page.slug = other
        · simp [hso, hl, Ne.symm he]
        · simp [hs, hso]
    exact congrArg schema.withPages hpages

def alter (schema : Schema) (slug id : String) (f : Section → Option Section) : Schema :=
  match schema.refusal? slug id with
  | none => schema.mapPages slug (Page.alter id f)
  | some _ => schema

variable {f g : Section → Option Section} {a b : String × String}

theorem alter_of_allowed (h : schema.refusal? slug id = none) :
    schema.alter slug id f = schema.mapPages slug (Page.alter id f) := by
  rw [alter, h]

theorem alter_of_refused {cause : SiteError} (h : schema.refusal? slug id = some cause) :
    schema.alter slug id f = schema := by
  rw [alter, h]

theorem refusal?_alter (hf : Section.KeepsId f) (hne : a ≠ b) (schema : Schema) :
    (schema.alter a.1 a.2 f).refusal? b.1 b.2 = schema.refusal? b.1 b.2 := by
  cases ha : schema.refusal? a.1 a.2 with
  | some cause => rw [alter_of_refused ha]
  | none =>
      rw [alter_of_allowed ha]
      refine refusal?_mapPages (Page.slug_alter a.2 f) (fun hs => ?_) schema
      exact Page.hasSection_alter hf fun hi => hne (Prod.ext hs hi)

theorem alter_comm (hf : Section.KeepsId f) (hg : Section.KeepsId g) (hne : a ≠ b)
    (schema : Schema) :
    (schema.alter a.1 a.2 f).alter b.1 b.2 g = (schema.alter b.1 b.2 g).alter a.1 a.2 f := by
  have hfirst := refusal?_alter hf hne schema
  have hsecond := refusal?_alter hg (Ne.symm hne) schema
  cases ha : schema.refusal? a.1 a.2 with
  | some cause =>
      rw [ha] at hsecond
      rw [alter_of_refused ha, alter_of_refused hsecond]
  | none =>
      cases hb : schema.refusal? b.1 b.2 with
      | some cause =>
          rw [hb] at hfirst
          rw [alter_of_refused hb, alter_of_refused hfirst]
      | none =>
          rw [hb] at hfirst
          rw [ha] at hsecond
          rw [alter_of_allowed hfirst, alter_of_allowed hsecond, alter_of_allowed ha,
            alter_of_allowed hb]
          exact mapPages_comm (Page.slug_alter a.2 f) (Page.slug_alter b.2 g)
            (fun hs => Page.alter_alter hf hg fun hi => hne (Prod.ext hs hi)) schema

/-- Two updates of the props of a section are one update. -/
theorem updateProps_bind_updateProps {partialProps : Fields}
    (hn : (Dict.keys partialProps).Nodup) (schema : Schema) (slug id : String) (more : Fields) :
    (schema.updateProps slug id partialProps >>= fun edited => edited.updateProps slug id more) =
      schema.updateProps slug id (Dict.overlay partialProps more) := by
  have hslug (page : Page) : (page.updateProps id partialProps).slug = page.slug := rfl
  rw [updateProps, updateProps, changeSection_eq_match, changeSection_eq_match]
  cases hr : schema.refusal? slug id with
  | some cause => rfl
  | none =>
      change (schema.mapPages slug (·.updateProps id partialProps)).updateProps slug id more = _
      rw [updateProps, changeSection_eq_match, refusal?_mapPages hslug, hr, mapPages_mapPages hslug]
      · simp only [Page.updateProps_updateProps hn]
      · exact fun _ page => Page.hasSection_updateProps page id id partialProps

end Schema

namespace Edit

variable {registry : Registry} {state : State} {edit : Edit}

def target? : Edit → Option (String × String)
  | .removeSection slug id => some (slug, id)
  | .updateProps slug id _ => some (slug, id)
  | _ => none

/-- The section that an edit makes, if it makes one, or why the edit cannot be made. -/
def outcome (registry : Registry) (state : State) (edit : Edit) :
    Except SiteError (Option Section) :=
  (edit.apply registry state).map (·.2)

/-- An edit of sections alters them or is refused. -/
theorem exists_alteration {a : String × String} (h : edit.target? = some a) :
    ∃ f, Section.KeepsId f ∧ ∀ (registry : Registry) (state : State),
      step registry state edit = { state with schema := state.schema.alter a.1 a.2 f } ∧
      outcome registry state edit =
        match state.schema.refusal? a.1 a.2 with
        | none => .ok none
        | some cause => .error cause := by
  obtain ⟨f, hf, happly⟩ : ∃ f, Section.KeepsId f ∧ ∀ registry state,
      apply registry state edit =
        (state.schema.changeSection a.1 a.2 (Page.alter a.2 f)).map fun schema =>
          ({ state with schema }, none) := by
    cases edit with
    | addPage | addSection | enrich => cases h
    | removeSection slug id =>
        cases h
        refine ⟨fun _ => none, nofun, fun registry state => ?_⟩
        rw [apply_removeSection, Schema.removeSection]
        simp only [Page.remove_eq_alter]
    | updateProps slug id partialProps =>
        cases h
        refine ⟨fun s => some { s with props := Dict.overlay s.props partialProps }, ?_,
          fun registry state => ?_⟩
        · rintro s t ⟨⟩
          rfl
        · rw [apply_updateProps, Schema.updateProps]
          simp only [Page.updateProps_eq_alter]
  refine ⟨f, hf, fun registry state => ?_⟩
  rw [step, outcome, happly, Schema.changeSection_eq_match, Schema.alter]
  cases state.schema.refusal? a.1 a.2 with
  | none => exact ⟨rfl, rfl⟩
  | some cause => exact ⟨rfl, rfl⟩

/-- Edits of sections that differ in their ids or pages give the same schema and the same outcomes
in either order. Two updates of the props of one section are the same as a single update with the
props of the second one laid over those of the first, and are refused if and only if that one is. -/
theorem edits_of_sections (registry : Registry) :
    (∀ (state : State) (edit other : Edit) (a b : String × String),
      edit.target? = some a → other.target? = some b → a ≠ b →
        step registry (step registry state edit) other =
          step registry (step registry state other) edit ∧
        outcome registry (step registry state edit) other = outcome registry state other ∧
        outcome registry (step registry state other) edit = outcome registry state edit) ∧
    ∀ (schema : Schema) (slug id : String) (partialProps more : Fields),
      (Dict.keys partialProps).Nodup →
        (schema.updateProps slug id partialProps >>= fun edited =>
          edited.updateProps slug id more) =
            schema.updateProps slug id (Dict.overlay partialProps more) := by
  refine ⟨fun state edit other a b ha hb hne => ?_, fun schema slug id partialProps more hn =>
    Schema.updateProps_bind_updateProps hn schema slug id more⟩
  obtain ⟨f, hf, hedit⟩ := exists_alteration ha
  obtain ⟨g, hg, hother⟩ := exists_alteration hb
  refine ⟨?_, ?_, ?_⟩
  · rw [(hedit registry state).1, (hother registry state).1, (hother registry _).1,
      (hedit registry _).1]
    exact congrArg (fun schema => { state with schema }) (Schema.alter_comm hf hg hne state.schema)
  · rw [(hedit registry state).1, (hother registry _).2, (hother registry state).2]
    simp only [Schema.refusal?_alter hf hne]
  · rw [(hother registry state).1, (hedit registry _).2, (hedit registry state).2]
    simp only [Schema.refusal?_alter hg (Ne.symm hne)]

/-- Two edits of a schema with two pages of one slug, of which the second one is refused, since only
the page that stands behind has the section. -/
theorem edits_of_sections_doubled :
    let state : State := ⟨Schema.doubled, .ofList []⟩
    let edit : Edit := .updateProps "home" "a" [("title", .null)]
    let other : Edit := .removeSection "home" "sec-hero-b"
    edit.target? = some ("home", "a") ∧ other.target? = some ("home", "sec-hero-b") ∧
      ("home", "a") ≠ ("home", "sec-hero-b") ∧
      (step Registry.default (step Registry.default state edit) other =
        step Registry.default (step Registry.default state other) edit ∧
      outcome Registry.default (step Registry.default state edit) other =
        outcome Registry.default state other ∧
      outcome Registry.default (step Registry.default state other) edit =
        outcome Registry.default state edit) ∧
      (Dict.keys [("title", Json.null)]).Nodup ∧
      (Schema.doubled.updateProps "home" "a" [("title", .null)] >>= fun edited =>
        edited.updateProps "home" "a" [("text", .null), ("title", .bool true)]) =
          Schema.doubled.updateProps "home" "a" [("title", .bool true), ("text", .null)] := by
  intro state edit other
  have hne : ("home", "a") ≠ ("home", "sec-hero-b") := by decide
  have hn : (Dict.keys [("title", Json.null)]).Nodup := by decide
  obtain ⟨hcommute, hcompose⟩ := edits_of_sections Registry.default
  exact ⟨rfl, rfl, hne, hcommute state edit other _ _ rfl rfl hne, hn,
    hcompose Schema.doubled "home" "a" _ _ hn⟩

end Edit

end Sitewright
