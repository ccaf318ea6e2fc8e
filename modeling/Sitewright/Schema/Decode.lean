import Sitewright.Check.Checked
import Sitewright.Schema.Basic

/-!
# Reading schemas

Name, slug, title, id and type are texts that have to be there. Colours, pages, sections and props
may be missing and then take their defaults, and props may also be null, which counts as empty. All
other entries are kept.
-/

namespace Sitewright

def Section.keys : List String := ["id", "type", "props"]

def Page.keys : List String := ["slug", "title", "sections"]

def Colors.keys : List String := ["primary", "secondary"]

def Website.keys : List String := ["name", "colors", "pages"]

def Schema.keys : List String := ["website"]

def Colors.default : Colors := ⟨"#3b82f6", "#0f172a", []⟩

def Section.propsOfJson : Json → Checked Fields
  | .null => .valid []
  | value => Checked.dictionary value

def Section.ofFields (fields : Fields) : Checked Section :=
  Section.mk
    <$> Checked.required "id" Checked.text fields
    <*> Checked.required "type" Checked.text fields
    <*> Checked.optional "props" [] Section.propsOfJson fields
    <*> pure (Dict.without Section.keys fields)

def Section.ofJson : Json → Checked Section :=
  Checked.openRecord "Section" Section.keys Section.ofFields

def Page.ofFields (fields : Fields) : Checked Page :=
  Page.mk
    <$> Checked.required "slug" Checked.text fields
    <*> Checked.required "title" Checked.text fields
    <*> Checked.optional "sections" [] (Checked.list Section.ofJson) fields
    <*> pure (Dict.without Page.keys fields)

def Page.ofJson : Json → Checked Page :=
  Checked.openRecord "Page" Page.keys Page.ofFields

def Colors.ofFields (fields : Fields) : Checked Colors :=
  Colors.mk
    <$> Checked.optional "primary" Colors.default.primary Checked.text fields
    <*> Checked.optional "secondary" Colors.default.secondary Checked.text fields
    <*> pure (Dict.without Colors.keys fields)

def Colors.ofJson : Json → Checked Colors :=
  Checked.openRecord "WebsiteColors" Colors.keys Colors.ofFields

def Website.ofFields (fields : Fields) : Checked Website :=
  Website.mk
    <$> Checked.required "name" Checked.text fields
    <*> Checked.optional "colors" Colors.default Colors.ofJson fields
    <*> Checked.optional "pages" [] (Checked.list Page.ofJson) fields
    <*> pure (Dict.without Website.keys fields)

def Website.ofJson : Json → Checked Website :=
  Checked.openRecord "Website" Website.keys Website.ofFields

def Schema.ofFields (fields : Fields) : Checked Schema :=
  Schema.mk
    <$> Checked.required "website" Website.ofJson fields
    <*> pure (Dict.without Schema.keys fields)

def Schema.ofJson : Json → Checked Schema :=
  Checked.openRecord "WebsiteSchema" Schema.keys Schema.ofFields

end Sitewright
