import Sitewright.Archive
import Sitewright.Project.Basic

/-!
# Replies

The answer to a request is a status with JSON, or an archive. A path that leads somewhere only
without the slashes at its end is answered by the advice to go there. A crash is the answer to a
request that the service could not serve for a reason of its own. JSON is sent in UTF-8, so a reply
that is not whole cannot be sent, and the answer is a crash.
-/

namespace Sitewright

inductive Reply where
  | json (status : Nat) (body : Json)
  | archive (archive : Archive)
  | moved
  | crash
  deriving Repr

namespace Reply

def status : Reply → Nat
  | .json status _ => status
  | .archive _ => 200
  | .moved => 307
  | .crash => 500

/-- The text of the answer to a crash. -/
def crashText : String := "Internal Server Error"

/-- The text of the answer to a path that has moved. -/
def movedText : String := ""

/-- What is sent of a reply. -/
def sent : Reply → Reply
  | .json status body => if body.isWhole then .json status body else .crash
  | reply => reply

def refusal (status : Nat) (detail : String) : Reply :=
  .json status (.object [("detail", .string detail)])

def notFound : Reply := refusal 404 "Not Found"

def methodNotAllowed : Reply := refusal 405 "Method Not Allowed"

def projectMissing : Reply := refusal 404 "Project not found"

def schemaMissing : Reply := refusal 404 "Schema not found for this project"

def schemaEmpty : Reply := refusal 400 "No schema stored for this project"

def schemaInvalid : Reply := refusal 500 "Stored schema is invalid"

def generationFailed : Reply := refusal 500 "Server error while generating code"

def briefIncomplete : Reply := refusal 400 "projectName and businessType are required"

def invalidBody (issues : List Issue) : Reply :=
  refusal 400 (Issue.describe .request issues)

def unreadableBody : Reply := refusal 400 "There was an error parsing the body"

/-- The status of an error that the request is to blame for. -/
def statusOf? : SiteError → Option Nat
  | .projectNotFound _ => some 404
  | .pageNotFound _ => some 404
  | .sectionNotFound _ => some 404
  | .duplicatePage _ => some 409
  | .invalidTitle _ => some 400
  | .unknownSection _ => some 400
  | .unfillable _ => none
  | .noPhrase => none
  | .missingColor _ => none
  | .noFreeId => none

def ofError (cause : SiteError) : Reply :=
  match statusOf? cause with
  | some status => refusal status cause.message
  | none => .crash

/-- The stored schema of a project and its version. -/
def schemaFields (record : SchemaRecord) : Fields :=
  [("schema", record.contentJson), ("version", .int record.version)]

end Reply

end Sitewright
