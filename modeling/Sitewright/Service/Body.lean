import Sitewright.Brief
import Sitewright.Json.Reader
import Sitewright.Schema.Decode
import Sitewright.Text.Encoding

/-!
# Request bodies

The checks on what a request brings along. All issues stand under the step `body`, those of broken
JSON at the position where reading stopped. A body that is empty is missing, one that is null has a
wrong type as any other that is no object, and one that cannot be read at all is refused without an
issue.
-/

namespace Sitewright.Body

structure NewProject where
  name : String
  brief : Option Fields
  deriving Repr

def newProject (fields : Fields) : Checked NewProject :=
  NewProject.mk
    <$> Checked.required "name" Checked.someText fields
    <*> Checked.optional "brief" none (Checked.nullable Checked.dictionary) fields

def brief (fields : Fields) : Checked Brief :=
  Checked.required "brief" Brief.ofJson fields

def schema (fields : Fields) : Checked Schema :=
  Checked.required "schema" Schema.ofJson fields

def pageTitle (fields : Fields) : Checked String :=
  Checked.required "title" Checked.someText fields

def sectionType (fields : Fields) : Checked String :=
  Checked.required "type" Checked.someText fields

def partialProps (fields : Fields) : Checked Fields :=
  Checked.required "props" Checked.dictionary fields

/-- Why a body is refused: it is no text or holds an integer that is too long, or else it has
issues. -/
inductive Refusal where
  | unreadable
  | invalid (issues : List Issue)
  deriving DecidableEq, Repr

def refused {α : Type} (checked : Checked α) : Except Refusal α :=
  (Checked.within (.key "body") checked).mapError .invalid

/-- Reads and checks a body. -/
def read {α : Type} (check : Fields → Checked α) (text : String) : Except Refusal α :=
  if text.isEmpty then refused (Checked.fail .missing)
  else
    match Text.recode? text.toList with
    | none => .error .unreadable
    | some text =>
        match Json.ofChars text with
        | .ok value => refused (Checked.record "body" check value)
        | .error (.fault position) =>
            refused (Checked.within (.index position) (Checked.fail .brokenJson))
        | .error .longInteger => .error .unreadable

end Sitewright.Body
