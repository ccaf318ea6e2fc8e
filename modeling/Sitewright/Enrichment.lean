import Sitewright.Journal.Entry
import Sitewright.Json.Display
import Sitewright.Registry.Basic
import Sitewright.Text.Basic

/-!
# Enrichment

`Registry.enrich` fills the gaps in the content of a schema by the rules of its section kinds. A
blank text takes its default, an empty list of items its fallback, and an item without its fill
entry the phrase for its position. Some texts get a clause appended, at every pass again. All else
is kept, and so are sections of unknown kind. A pass fails where a default that is needed cannot be
filled in or a phrase is missing.
-/

namespace Sitewright

def appendClause (base clause : String) : String :=
  String.ofList (Text.strip (base.toList ++ ' ' :: clause.toList))

namespace ListRule

def phraseFor (rule : ListRule) (index : Nat) : Except SiteError String :=
  let position := if index = 0 || rule.fillPhrases.length = 1 then 0 else 1
  match rule.fillPhrases[position]? with
  | some phrase => .ok phrase
  | none => .error .noPhrase

/-- Gives an item its fill entry if that is blank; an item that is no object is left as it is. -/
def fillItem (rule : ListRule) (fillKey : String) (index : Nat) : Json → Except SiteError Json
  | .object fields =>
      if Json.isBlank (Dict.get? fields fillKey) then
        match rule.phraseFor index with
        | .ok phrase => .ok (.object (Dict.set fillKey (.string phrase) fields))
        | .error cause => .error cause
      else .ok (.object fields)
  | item => .ok item

def fillItems (rule : ListRule) (fillKey : String) :
    (index : Nat) → List Json → Except SiteError (List Json)
  | _, [] => .ok []
  | index, item :: items =>
      match rule.fillItem fillKey index item with
      | .error cause => .error cause
      | .ok item =>
          match rule.fillItems fillKey (index + 1) items with
          | .ok items => .ok (item :: items)
          | .error cause => .error cause

def fill (rule : ListRule) : Option Json → Except SiteError (List Json)
  | some (.array (item :: items)) =>
      match rule.fillKey with
      | none => .ok (item :: items)
      | some fillKey => rule.fillItems fillKey 0 (item :: items)
  | _ => .ok rule.fallback

end ListRule

namespace EnrichmentRule

/-- The enriched value of the text `key`. -/
def enrichedText (rule : EnrichmentRule) (name key default : String) (current : Option Json) :
    Json :=
  let value :=
    if Json.isBlank current then .string (fillDefault name default) else current.getD .null
  match rule.appendedClauses.lookup key with
  | some clause => .string (appendClause value.display clause)
  | none => value

/-- What is wrong with a default that is needed. -/
def defaultFault? (default : String) (current : Option Json) : Option Format.Fault :=
  if Json.isBlank current then Format.fault? default else none

def applyTexts (rule : EnrichmentRule) (name : String) :
    List (String × String) → Fields → Except SiteError Fields
  | [], props => .ok props
  | (key, default) :: rest, props =>
      match defaultFault? default (Dict.get? props key) with
      | some fault => .error (.unfillable fault)
      | none =>
          rule.applyTexts name rest <|
            Dict.set key (rule.enrichedText name key default (Dict.get? props key)) props

def applyList (rule : EnrichmentRule) (props : Fields) : Except SiteError Fields :=
  match rule.listRule with
  | none => .ok props
  | some list =>
      match list.fill (Dict.get? props list.key) with
      | .ok items => .ok (Dict.set list.key (.array items) props)
      | .error cause => .error cause

def apply (rule : EnrichmentRule) (name : String) (props : Fields) : Except SiteError Fields :=
  match rule.applyTexts name rule.textDefaults props with
  | .ok props => rule.applyList props
  | .error cause => .error cause

end EnrichmentRule

namespace Registry

def enrichSection (registry : Registry) (name : String) (s : Section) :
    Except SiteError Section :=
  match registry.lookup? s.type with
  | none => .ok s
  | some definition =>
      match definition.enrichment.apply name s.props with
      | .ok props => .ok { s with props }
      | .error cause => .error cause

def enrichPage (registry : Registry) (name : String) (page : Page) : Except SiteError Page :=
  match page.sections.mapM (registry.enrichSection name) with
  | .ok sections => .ok { page with sections }
  | .error cause => .error cause

def enrich (registry : Registry) (schema : Schema) : Except SiteError Schema :=
  match schema.pages.mapM (registry.enrichPage schema.name) with
  | .ok pages => .ok (schema.withPages pages)
  | .error cause => .error cause

/-- Enriches a schema `times` times. -/
def enrichTimes (registry : Registry) : (times : Nat) → Schema → Except SiteError Schema
  | 0, schema => .ok schema
  | times + 1, schema =>
      match registry.enrich schema with
      | .ok schema => registry.enrichTimes times schema
      | .error cause => .error cause

end Registry

/-- What enrichment reports when it has succeeded. -/
def Schema.enrichmentReport (schema : Schema) : Entry where
  level := .debug
  source := .enrichment
  message := "Enriched schema content"
  fields :=
    [("website", .string schema.name),
     ("pages_count", .int schema.pages.length),
     ("sections_count", .int (schema.pages.flatMap (·.sections)).length)]

end Sitewright
