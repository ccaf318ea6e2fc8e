import Sitewright.Proofs.Editor.Sections
import Sitewright.Proofs.Synthesis
import Sitewright.Proofs.Text.Replace

/-!
# Schemas that answer a brief

A schema answers a brief under a plan if it has a page for each wanted slug, in the order in which
they are first asked for, and on it the sections of the preset, each with an id of its own and the
props of its kind in which the name of the project stands for the placeholder. Every synthesized
schema does, and but for the ids of its sections the plan and the brief determine it.
-/

namespace Sitewright

/-! ## Values with the name filled in -/

/-- The same value but for its texts, in which the name stands in the place of the placeholder. -/
inductive Json.Named (name : String) : Json → Json → Prop
  | null : Named name .null .null
  | bool {b : Bool} : Named name (.bool b) (.bool b)
  | int {n : Int} : Named name (.int n) (.int n)
  | float {x : Decimal} : Named name (.float x) (.float x)
  | text {text later : String}
      (replaced : Text.Replaced namePlaceholder.toList name.toList text.toList later.toList) :
      Named name (.string text) (.string later)
  | items {items later : List Json} (each : List.Forall₂ (Named name) items later) :
      Named name (.array items) (.array later)
  | entries {fields later : Fields} (keys : Dict.keys later = Dict.keys fields)
      (each : List.Forall₂ (Named name) (Dict.values fields) (Dict.values later)) :
      Named name (.object fields) (.object later)

mutual

theorem Json.named_fillName (name : String) :
    (value : Json) → Json.Named name value (value.fillName name)
  | .null => .null
  | .bool _ => .bool
  | .int _ => .int
  | .float _ => .float
  | .string text => by
      refine .text ?_
      rw [String.toList_ofList]
      exact Text.replaced_replaceAll (by decide) _ _
  | .array items => .items (named_fillNameItems name items)
  | .object fields => .entries (keys_fillNameFields name fields) (named_fillNameFields name fields)

theorem named_fillNameItems (name : String) : (items : List Json) →
    List.Forall₂ (Json.Named name) items (fillNameItems name items)
  | [] => .nil
  | item :: items => .cons (Json.named_fillName name item) (named_fillNameItems name items)

theorem named_fillNameFields (name : String) : (fields : List (String × Json)) →
    List.Forall₂ (Json.Named name) (Dict.values fields) (Dict.values (fillNameFields name fields))
  | [] => .nil
  | (_, value) :: fields =>
      .cons (Json.named_fillName name value) (named_fillNameFields name fields)

end

-- what is put in is not looked at again
example : (Json.string "{project_name} {project_name}").fillName "{project_name}!" =
    .string "{project_name}! {project_name}!" := rfl

/-! ## Without ids -/

def Section.anonymous (s : Section) : Section :=
  { s with id := "" }

def Schema.anonymous (schema : Schema) : Schema :=
  schema.mapSections Section.anonymous

namespace SitePlan

variable {plan : SitePlan} {name : String} {ids next : IdSource}

def blankSection (plan : SitePlan) (name : String) (kind : SectionKind) : Section where
  id := ""
  type := kind.name
  props := fillNameFields name (plan.registry.definition kind).synthesisProps

def blankPage (plan : SitePlan) (name slug : String) : Page where
  slug
  title := plan.title slug
  sections := (plan.preset slug).map (plan.blankSection name)

/-- A section made for a kind: only the id is left to the draws, and it begins like those of the
kind. -/
structure Makes (plan : SitePlan) (name : String) (kind : SectionKind) (s : Section) : Prop where
  stem : kind.Stems s.id
  rest : s.anonymous = plan.blankSection name kind

theorem makes_of_buildSection {kind : SectionKind} {taken : List String} {made : Section}
    (h : plan.buildSection name kind taken ids = .ok (made, next)) : plan.Makes name kind made := by
  obtain ⟨-, htype, hprops, hextra⟩ := Registry.createSection_eq_ok h
  refine ⟨Registry.stems_of_createSection h, ?_⟩
  rw [Section.anonymous, blankSection, htype, hprops, hextra, Option.getD_some]

theorem exists_made_of_buildSections {kinds : List SectionKind} {built sections : List Section}
    (h : plan.buildSections name kinds built ids = .ok (sections, next)) :
    ∃ made, sections = built ++ made ∧ List.Forall₂ (plan.Makes name) kinds made := by
  induction kinds generalizing built ids with
  | nil =>
      cases h
      exact ⟨[], (List.append_nil _).symm, .nil⟩
  | cons kind kinds ih =>
      obtain ⟨made, rest, hs, h⟩ := buildSections_cons h
      obtain ⟨others, rfl, hothers⟩ := ih h
      exact ⟨made :: others, List.append_assoc .., .cons (makes_of_buildSection hs) hothers⟩

def MakesPage (plan : SitePlan) (name slug : String) (page : Page) : Prop :=
  ∃ sections, List.Forall₂ (plan.Makes name) (plan.preset slug) sections ∧
    page = { slug, title := plan.title slug, sections }

theorem makesPage_of_buildPages {slugs : List String} {pages : List Page}
    (h : plan.buildPages name slugs ids = .ok (pages, next)) :
    List.Forall₂ (plan.MakesPage name) slugs pages := by
  induction slugs generalizing pages ids with
  | nil =>
      cases h
      exact .nil
  | cons slug slugs ih =>
      obtain ⟨page, rest, others, hp, hr, rfl⟩ := buildPages_cons h
      obtain ⟨sections, hs, rfl⟩ := buildPage_eq_ok_iff.mp hp
      obtain ⟨made, he, hmade⟩ := exists_made_of_buildSections hs
      rw [List.nil_append] at he
      exact .cons ⟨sections, he ▸ hmade, rfl⟩ (ih hr)

theorem map_anonymous_of_makes {kinds : List SectionKind} {sections : List Section}
    (h : List.Forall₂ (plan.Makes name) kinds sections) :
    sections.map Section.anonymous = kinds.map (plan.blankSection name) := by
  rw [← List.forall₂_eq_eq_eq, List.forall₂_map_left_iff, List.forall₂_map_right_iff]
  exact h.flip.imp fun s kind hs => hs.rest

theorem map_anonymous_of_makesPage {slugs : List String} {pages : List Page}
    (h : List.Forall₂ (plan.MakesPage name) slugs pages) :
    pages.map (Page.mapSections Section.anonymous) = slugs.map (plan.blankPage name) := by
  rw [← List.forall₂_eq_eq_eq, List.forall₂_map_left_iff, List.forall₂_map_right_iff]
  refine h.flip.imp fun page slug hp => ?_
  obtain ⟨sections, hs, rfl⟩ := hp
  rw [Page.mapSections, blankPage, map_anonymous_of_makes hs]

/-- But for the ids of its sections, a synthesized schema is determined by the plan and the brief. -/
theorem exists_anonymous_eq {brief : Brief} {schema : Schema}
    (h : plan.synthesize brief ids = .ok (schema, next)) :
    ∃ colors, plan.chooseColors brief.primaryColor brief.secondaryColor = .ok colors ∧
      schema.anonymous =
        { website :=
            { name := brief.projectName
              colors
              pages := (plan.slugs brief.pagesWanted).map (plan.blankPage brief.projectName) } } := by
  obtain ⟨pages, colors, hp, hc, rfl⟩ := synthesize_eq_ok h
  refine ⟨colors, hc, ?_⟩
  rw [← map_anonymous_of_makesPage (makesPage_of_buildPages hp)]
  rfl

/-! ## What a brief asks for -/

structure Asks (plan : SitePlan) (name : String) (kind : SectionKind) (s : Section) : Prop where
  type : s.type = kind.name
  stem : kind.Stems s.id
  props : Json.Named name (.object (plan.registry.definition kind).synthesisProps) (.object s.props)

theorem Makes.asks {kind : SectionKind} {s : Section} (h : plan.Makes name kind s) :
    plan.Asks name kind s where
  type := congrArg Section.type h.rest
  stem := h.stem
  props := by
    have hprops : s.props = fillNameFields name (plan.registry.definition kind).synthesisProps :=
      congrArg Section.props h.rest
    rw [hprops]
    exact .entries (keys_fillNameFields name _) (named_fillNameFields name _)

structure Answers (plan : SitePlan) (brief : Brief) (schema : Schema) : Prop where
  slugs : FirstOccurrences
    ((if brief.pagesWanted = [] then plan.defaultSlugs else brief.pagesWanted).map fun slug =>
      String.ofList (Text.lower slug.toList))
    (schema.pages.map (·.slug))
  distinct : schema.Distinct
  sections : ∀ page ∈ schema.pages, List.Forall₂ (plan.Asks brief.projectName)
    ((plan.presets.lookup page.slug).getD [.hero]) page.sections

theorem answers_of_synthesize {brief : Brief} {schema : Schema}
    (h : plan.synthesize brief ids = .ok (schema, next)) : plan.Answers brief schema := by
  have hdistinct := distinct_of_synthesize h
  obtain ⟨pages, colors, hp, -, rfl⟩ := synthesize_eq_ok h
  refine ⟨?_, hdistinct, ?_⟩
  · rw [Schema.pages, (buildPages_eq_ok hp).1]
    exact plan.firstOccurrences_slugs brief.pagesWanted
  · intro page hm
    obtain ⟨slug, -, sections, hs, rfl⟩ :=
      Outcome.exists_of_mem_right (makesPage_of_buildPages hp) hm
    exact hs.imp fun kind s hmade => hmade.asks

/-- Every synthesized schema answers the brief, and draws decide on nothing but the ids of its
sections. Under the default plan there always is one, as long as draws are looked at at all. -/
theorem synthesize_answers_brief (brief : Brief) :
    (∀ (plan : SitePlan) (ids next : IdSource) (schema : Schema),
      plan.synthesize brief ids = .ok (schema, next) → plan.Answers brief schema) ∧
    (∀ (plan : SitePlan) (ids ids' next next' : IdSource) (schema schema' : Schema),
      plan.synthesize brief ids = .ok (schema, next) →
      plan.synthesize brief ids' = .ok (schema', next') →
        schema.anonymous = schema'.anonymous) ∧
    ∀ (registry : Registry) (ids : IdSource), 0 < ids.patience → ∃ schema next,
      (default registry).synthesize brief ids = .ok (schema, next) := by
  refine ⟨fun plan ids next schema => answers_of_synthesize, ?_,
    fun registry ids => exists_synthesize_default registry brief⟩
  intro plan ids ids' next next' schema schema' h h'
  obtain ⟨colors, hc, he⟩ := exists_anonymous_eq h
  obtain ⟨colors', hc', he'⟩ := exists_anonymous_eq h'
  cases hc.symm.trans hc'
  exact he.trans he'.symm

/-- Asks for its home page twice, in different letters. -/
def doubledBrief : Brief where
  projectName := "A"
  pagesWanted := ["Home", "HOME", "About"]

theorem synthesize_answers_brief_doubled :
    ∃ schema next, (default .default).synthesize doubledBrief (.ofList ["a", "b", "c", "d"]) =
        .ok (schema, next) ∧
      (default .default).Answers doubledBrief schema ∧
      schema.pages.map (·.slug) = ["home", "about"] := by
  obtain ⟨hanswers, -, hexists⟩ := synthesize_answers_brief doubledBrief
  obtain ⟨schema, next, h⟩ := hexists .default (.ofList ["a", "b", "c", "d"]) (by decide)
  have hslugs : ((default .default).synthesize doubledBrief
      (.ofList ["a", "b", "c", "d"])).toOption.map (fun made => made.1.pages.map (·.slug)) =
        some ["home", "about"] := by
    decide +kernel
  rw [h] at hslugs
  exact ⟨schema, next, h, hanswers _ _ _ _ h, Option.some.inj hslugs⟩

end SitePlan

end Sitewright
