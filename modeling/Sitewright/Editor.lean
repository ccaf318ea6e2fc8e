import Sitewright.Enrichment
import Sitewright.Text.Slug

/-!
# Editing schemas

Edits of the visual builder. Each edit gives a new schema or the reason why it cannot be made. Pages
and sections are only ever appended, and a section goes away only by `Schema.removeSection`. An edit
checks the first page with the slug it is given and changes every page with that slug.
-/

namespace Sitewright

namespace Page

def hasSection (page : Page) (id : String) : Bool :=
  page.sections.any fun s => s.id == id

def append (page : Page) (s : Section) : Page :=
  { page with sections := page.sections ++ [s] }

def remove (page : Page) (id : String) : Page :=
  { page with sections := page.sections.filter fun s => s.id != id }

def updateProps (page : Page) (id : String) (partialProps : Fields) : Page :=
  { page with
    sections := page.sections.map fun s =>
      if s.id == id then { s with props := Dict.overlay s.props partialProps } else s }

end Page

namespace Schema

/-- Changes every page with the given slug. -/
def mapPages (schema : Schema) (slug : String) (change : Page → Page) : Schema :=
  schema.withPages (schema.pages.map fun page => if page.slug == slug then change page else page)

def addPage (schema : Schema) (title : String) : Except SiteError Schema :=
  let slug := slugify title
  if slug.isEmpty then .error (.invalidTitle title)
  else if (schema.findPage? slug).isSome then .error (.duplicatePage slug)
  else .ok (schema.withPages (schema.pages ++ [{ slug, title, sections := [] }]))

def addSection (schema : Schema) (registry : Registry) (slug : String) (type : Json)
    (ids : IdSource) : Except SiteError (Schema × Section × IdSource) :=
  match SectionKind.ofJson? type with
  | none => .error (.unknownSection type.display)
  | some kind =>
      match schema.findPage? slug with
      | none => .error (.pageNotFound slug)
      | some page =>
          match registry.createSection kind none page.sectionIds ids with
          | .error cause => .error cause
          | .ok (made, ids) => .ok (schema.mapPages slug (·.append made), made, ids)

/-- Makes a change to the pages with a slug, provided that the first one has the section. -/
def changeSection (schema : Schema) (slug id : String) (change : Page → Page) :
    Except SiteError Schema :=
  match schema.findPage? slug with
  | none => .error (.pageNotFound slug)
  | some page =>
      if page.hasSection id then .ok (schema.mapPages slug change)
      else .error (.sectionNotFound id)

def removeSection (schema : Schema) (slug id : String) : Except SiteError Schema :=
  schema.changeSection slug id (·.remove id)

def updateProps (schema : Schema) (slug id : String) (partialProps : Fields) :
    Except SiteError Schema :=
  schema.changeSection slug id (·.updateProps id partialProps)

end Schema

/-- One step of an editing session. -/
inductive Edit where
  | addPage (title : String)
  | addSection (slug : String) (type : Json)
  | removeSection (slug id : String)
  | updateProps (slug id : String) (partialProps : Fields)
  | enrich
  deriving Repr

namespace Edit

/-- A schema and the draws left for it. -/
structure State where
  schema : Schema
  ids : IdSource

/-- The state after an edit, and the section that the edit has made. -/
def apply (registry : Registry) (state : State) : Edit → Except SiteError (State × Option Section)
  | .addPage title => do
      return ({ state with schema := ← state.schema.addPage title }, none)
  | .addSection slug type => do
      let (schema, made, ids) ← state.schema.addSection registry slug type state.ids
      return (⟨schema, ids⟩, some made)
  | .removeSection slug id => do
      return ({ state with schema := ← state.schema.removeSection slug id }, none)
  | .updateProps slug id partialProps => do
      return ({ state with schema := ← state.schema.updateProps slug id partialProps }, none)
  | .enrich => do
      return ({ state with schema := ← registry.enrich state.schema }, none)

/-- An edit that cannot be made leaves the state as it was. -/
def step (registry : Registry) (state : State) (edit : Edit) : State :=
  match edit.apply registry state with
  | .ok (state, _) => state
  | .error _ => state

def run (registry : Registry) (state : State) (edits : List Edit) : State :=
  edits.foldl (step registry) state

end Edit

end Sitewright
