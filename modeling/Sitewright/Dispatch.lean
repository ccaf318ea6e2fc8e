import Sitewright.Registry.Defaults
import Sitewright.Template.Library
import Sitewright.Text.Basic

/-!
# Dispatch

A page shows its sections through a function that asks for the type of a section and has a branch
of code for each kind of its own. How many kinds these are is the coverage of the page; all other
types share the generic fragment. `Registry.dispatcher` writes the function, `Registry.branches`
its branches, and `Registry.fragment` the code for a type.
-/

namespace Sitewright

inductive Coverage where
  | full
  | degraded
  deriving DecidableEq, Repr

def Coverage.parse : String → Except SetupError Coverage
  | "FULL" => .ok .full
  | "DEGRADED" => .ok .degraded
  | name => .error (.unknownCoverage name)

namespace Template

def genericPath : String := "sections/generic.tsx.j2"

def dispatcherPath : String := "dispatcher.tsx.j2"

/-- The kinds that keep code of their own on a page of degraded coverage. -/
def compactPaths : List (SectionKind × String) :=
  [(.hero, "sections/hero_compact.tsx.j2")]

end Template

/-- A branch of the dispatcher. -/
structure Branch where
  kind : SectionKind
  body : String
  deriving DecidableEq, Repr

def Branch.toJson (branch : Branch) : Json :=
  .object [("kind", .string branch.kind.name), ("body", .string branch.body)]

/-- The text without the line feeds at its end. -/
def trimLineFeeds (text : String) : String :=
  String.ofList (Text.dropEndWhile (· == '\n') text.toList)

namespace Registry

/-- The path of the template for sections of the given type. -/
def fragmentPath (registry : Registry) (coverage : Coverage) (type : String) : String :=
  match SectionKind.ofName? type with
  | none => Template.genericPath
  | some kind =>
      match coverage with
      | .full => (registry.definition kind).fragment
      | .degraded => (Template.compactPaths.lookup kind).getD Template.genericPath

/-- The code for sections of the given type. -/
def fragment (registry : Registry) (coverage : Coverage) (type : String) :
    Except Template.Error String :=
  (Template.renderAt (registry.fragmentPath coverage type) []).map trimLineFeeds

/-- The kinds that have a branch, in canonical order. -/
def branchKinds (registry : Registry) (coverage : Coverage) : List SectionKind :=
  SectionKind.all.filter fun kind =>
    registry.fragmentPath coverage kind.name != Template.genericPath

def branch (registry : Registry) (coverage : Coverage) (kind : SectionKind) :
    Except Template.Error Branch :=
  (registry.fragment coverage kind.name).map (⟨kind, ·⟩)

def branches (registry : Registry) (coverage : Coverage) : Except Template.Error (List Branch) :=
  (registry.branchKinds coverage).mapM (registry.branch coverage)

/-- The code for the types without a branch. -/
def fallback : Except Template.Error String :=
  (Template.renderAt Template.genericPath []).map trimLineFeeds

def dispatcher (registry : Registry) (coverage : Coverage) : Except Template.Error String := do
  let fallback ← fallback
  let branches ← registry.branches coverage
  let text ← Template.renderAt Template.dispatcherPath
    [("branches", .array (branches.map Branch.toJson)), ("fallback", .string fallback)]
  return trimLineFeeds text

end Registry

end Sitewright
