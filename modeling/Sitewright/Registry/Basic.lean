import Sitewright.Error
import Sitewright.Ids
import Sitewright.Json.Basic
import Sitewright.Schema.Basic

/-!
# The section registry

A registry holds what belongs to each section kind: its label, the props of a new section, the props
of a synthesized one, the rule that enriches its content and the template of its code. It has a
definition for every kind; `Registry.ofList` answers which kinds are missing otherwise.
-/

namespace Sitewright

/-- Keeps a list of props from being empty and its items from lacking the entry `fillKey`. -/
structure ListRule where
  key : String
  fallback : List Json
  fillKey : Option String := none
  /-- One phrase fills every item, of two the second one fills all but the first item. -/
  fillPhrases : List String := []

structure EnrichmentRule where
  /-- The default of each text, in which the name of the website may be asked for. -/
  textDefaults : List (String × String)
  appendedClauses : List (String × String) := []
  listRule : Option ListRule := none

structure SectionDefinition where
  label : String
  defaultProps : Fields
  synthesisProps : Fields
  enrichment : EnrichmentRule
  fragment : String

structure Registry where
  definition : SectionKind → SectionDefinition

namespace Registry

/-- The kinds without a definition, in canonical order. -/
def missingKinds (definitions : List (SectionKind × SectionDefinition)) : List SectionKind :=
  SectionKind.all.filter fun kind => (definitions.lookup kind).isNone

theorem isSome_of_missingKinds {definitions : List (SectionKind × SectionDefinition)}
    (h : missingKinds definitions = []) (kind : SectionKind) :
    (definitions.lookup kind).isSome := by
  have := List.filter_eq_nil_iff.mp h kind (SectionKind.mem_all kind)
  cases hl : definitions.lookup kind <;> simp_all

def ofList (definitions : List (SectionKind × SectionDefinition)) :
    Except (List SectionKind) Registry :=
  match h : missingKinds definitions with
  | [] => .ok ⟨fun kind => (definitions.lookup kind).get (isSome_of_missingKinds h kind)⟩
  | missing => .error missing

def lookup? (registry : Registry) (type : String) : Option SectionDefinition :=
  (SectionKind.ofName? type).map registry.definition

def idStem (kind : SectionKind) : String :=
  "sec-" ++ kind.name ++ "-"

/-- A new section of the given kind whose id is not taken, with the default props of the kind when
none are given. -/
def createSection (registry : Registry) (kind : SectionKind) (props : Option Fields)
    (taken : List String) (ids : IdSource) : Except SiteError (Section × IdSource) :=
  match ids.fresh? (idStem kind) taken with
  | none => .error .noFreeId
  | some (id, ids) =>
      .ok ({ id, type := kind.name,
             props := props.getD (registry.definition kind).defaultProps }, ids)

end Registry

end Sitewright
