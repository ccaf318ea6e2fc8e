import Sitewright.Json.Basic
import Sitewright.Schema.Kind

/-!
# Website schemas

A schema describes a website: its name, its colours and its pages, each page made of sections. At
every level entries of other names are kept as they are in `extra`. Written as JSON, the declared
entries come first and the others follow in their order, with null for every number among them that
is not finite.
-/

namespace Sitewright

structure Section where
  id : String
  type : String
  props : Fields
  extra : Fields := []
  deriving Repr, Inhabited

structure Page where
  slug : String
  title : String
  sections : List Section
  extra : Fields := []
  deriving Repr, Inhabited

structure Colors where
  primary : String
  secondary : String
  extra : Fields := []
  deriving Repr, Inhabited

structure Website where
  name : String
  colors : Colors
  pages : List Page
  extra : Fields := []
  deriving Repr, Inhabited

structure Schema where
  website : Website
  extra : Fields := []
  deriving Repr, Inhabited

def Section.kind? (s : Section) : Option SectionKind :=
  SectionKind.ofName? s.type

def Section.toJson (s : Section) : Json :=
  .object ([("id", .string s.id), ("type", .string s.type),
    ("props", .object (Json.dumpedFields s.props))] ++ Json.dumpedFields s.extra)

def Page.toJson (page : Page) : Json :=
  .object ([("slug", .string page.slug), ("title", .string page.title),
    ("sections", .array (page.sections.map Section.toJson))] ++ Json.dumpedFields page.extra)

def Page.sectionIds (page : Page) : List String :=
  page.sections.map (·.id)

def Colors.toJson (colors : Colors) : Json :=
  .object ([("primary", .string colors.primary), ("secondary", .string colors.secondary)] ++
    Json.dumpedFields colors.extra)

def Website.toJson (website : Website) : Json :=
  .object ([("name", .string website.name), ("colors", website.colors.toJson),
    ("pages", .array (website.pages.map Page.toJson))] ++ Json.dumpedFields website.extra)

namespace Schema

def fields (schema : Schema) : Fields :=
  ("website", schema.website.toJson) :: Json.dumpedFields schema.extra

def toJson (schema : Schema) : Json :=
  .object schema.fields

def name (schema : Schema) : String :=
  schema.website.name

def pages (schema : Schema) : List Page :=
  schema.website.pages

def withPages (schema : Schema) (pages : List Page) : Schema :=
  { schema with website := { schema.website with pages } }

/-- The first page with the given slug. -/
def findPage? (schema : Schema) (slug : String) : Option Page :=
  schema.pages.find? fun page => page.slug == slug

/-- The page shown at the root of the site: the page `home`, or else the first one. -/
def homePage? (schema : Schema) : Option Page :=
  (schema.findPage? "home").or schema.pages.head?

end Schema

end Sitewright
