import Sitewright.Brief
import Sitewright.Journal.Entry
import Sitewright.Registry.Defaults
import Sitewright.Schema.Decode
import Sitewright.Text.Basic
import Sitewright.Text.Lower

/-!
# Synthesis

`SitePlan.synthesize` makes a first schema from a brief: one page for each wanted slug, lower-cased
and without repetitions, with the sections that the plan sets for the slug. The props of a section
are those of its kind, in which the name of the project is filled in at every depth.
`SitePlan.defaultSchema` is the schema of a project that has none yet.
-/

namespace Sitewright

/-- What synthesis goes by. -/
structure SitePlan where
  registry : Registry
  presets : List (String × List SectionKind)
  titles : List (String × String)
  defaultSlugs : List String
  colors : List (String × String)

namespace SitePlan

def defaultPresets : List (String × List SectionKind) :=
  [("home", [.hero, .features, .services, .cta]),
   ("services", [.services, .pricing, .faq]),
   ("about", [.hero, .features]),
   ("contact", [.contact, .faq]),
   ("portfolio", [.gallery, .testimonials, .cta])]

/-- The sections of a page without a preset. -/
def fallbackPreset : List SectionKind := [.hero]

def defaultTitles : List (String × String) :=
  [("home", "Accueil"),
   ("services", "Services"),
   ("about", "À propos"),
   ("contact", "Contact"),
   ("portfolio", "Portfolio")]

def default (registry : Registry) : SitePlan where
  registry
  presets := defaultPresets
  titles := defaultTitles
  defaultSlugs := ["home", "services", "about", "contact"]
  colors := [("primary", Colors.default.primary), ("secondary", Colors.default.secondary)]

end SitePlan

def namePlaceholder : String := "{project_name}"

mutual

/-- Puts the name of the project in the place of the placeholder in every text of a value. -/
def Json.fillName (name : String) : Json → Json
  | .string text =>
      .string (String.ofList
        (Text.replaceAll namePlaceholder.toList name.toList text.toList))
  | .array items => .array (fillNameItems name items)
  | .object fields => .object (fillNameFields name fields)
  | value => value

def fillNameItems (name : String) : List Json → List Json
  | [] => []
  | item :: items => item.fillName name :: fillNameItems name items

def fillNameFields (name : String) : List (String × Json) → List (String × Json)
  | [] => []
  | (key, value) :: fields => (key, value.fillName name) :: fillNameFields name fields

end

namespace SitePlan

def lowerText (text : String) : String :=
  String.ofList (Text.lower text.toList)

/-- The slugs of the pages to make. -/
def slugs (plan : SitePlan) (wanted : List String) : List String :=
  ((if wanted.isEmpty then plan.defaultSlugs else wanted).map lowerText).eraseDups

def title (plan : SitePlan) (slug : String) : String :=
  (plan.titles.lookup slug).getD slug

def preset (plan : SitePlan) (slug : String) : List SectionKind :=
  (plan.presets.lookup slug).getD fallbackPreset

def color (plan : SitePlan) (name : String) : Except SiteError String :=
  match plan.colors.lookup name with
  | some color => .ok color
  | none => .error (.missingColor name)

def buildSection (plan : SitePlan) (name : String) (kind : SectionKind) (taken : List String)
    (ids : IdSource) : Except SiteError (Section × IdSource) :=
  let props := fillNameFields name (plan.registry.definition kind).synthesisProps
  plan.registry.createSection kind (some props) taken ids

/-- Makes sections of the given kinds after those that are built, with ids of their own. -/
def buildSections (plan : SitePlan) (name : String) :
    List SectionKind → (built : List Section) → IdSource →
      Except SiteError (List Section × IdSource)
  | [], built, ids => .ok (built, ids)
  | kind :: kinds, built, ids =>
      match plan.buildSection name kind (built.map (·.id)) ids with
      | .ok (made, ids) => plan.buildSections name kinds (built ++ [made]) ids
      | .error cause => .error cause

def buildPage (plan : SitePlan) (name slug : String) (ids : IdSource) :
    Except SiteError (Page × IdSource) :=
  match plan.buildSections name (plan.preset slug) [] ids with
  | .ok (sections, ids) => .ok ({ slug, title := plan.title slug, sections }, ids)
  | .error cause => .error cause

def buildPages (plan : SitePlan) (name : String) :
    List String → IdSource → Except SiteError (List Page × IdSource)
  | [], ids => .ok ([], ids)
  | slug :: slugs, ids =>
      match plan.buildPage name slug ids with
      | .error cause => .error cause
      | .ok (page, ids) =>
          match plan.buildPages name slugs ids with
          | .ok (pages, ids) => .ok (page :: pages, ids)
          | .error cause => .error cause

/-- The wanted colours, and those of the plan where none is wanted. -/
def chooseColors (plan : SitePlan) (primary secondary : Option String) :
    Except SiteError Colors := do
  let primary ← match primary with
    | some color => pure color
    | none => plan.color "primary"
  let secondary ← match secondary with
    | some color => pure color
    | none => plan.color "secondary"
  return { primary, secondary }

def synthesize (plan : SitePlan) (brief : Brief) (ids : IdSource) :
    Except SiteError (Schema × IdSource) := do
  let (pages, ids) ← plan.buildPages brief.projectName (plan.slugs brief.pagesWanted) ids
  let colors ← plan.chooseColors brief.primaryColor brief.secondaryColor
  return ({ website := { name := brief.projectName, colors, pages } }, ids)

/-- What synthesis reports when it has succeeded. -/
def report (plan : SitePlan) (brief : Brief) : Entry where
  level := .info
  source := .synthesis
  message := "Synthesized schema from brief"
  fields :=
    [("project_name", .string brief.projectName),
     ("business_type", .ofOption brief.businessType),
     ("pages", .ofStrings (plan.slugs brief.pagesWanted))]

def welcomeText : String :=
  "Ce site a été généré via SaaS Builder. Personnalise le contenu et la structure " ++
  "depuis le visual builder."

/-- A home page with nothing but a hero. -/
def defaultSchema (plan : SitePlan) (name : String) (ids : IdSource) :
    Except SiteError (Schema × IdSource) := do
  let (hero, ids) ← plan.buildSection name .hero [] ids
  let hero := { hero with props := Dict.set "subheadline" (.string welcomeText) hero.props }
  let page : Page :=
    { slug := "home", title := plan.title "home", sections := [hero] }
  let colors ← plan.chooseColors none none
  return ({ website := { name, colors, pages := [page] } }, ids)

end SitePlan

end Sitewright
