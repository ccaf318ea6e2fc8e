import Sitewright.Error
import Sitewright.Project.Basic
import Sitewright.Project.Mismatch

/-!
# Calls to a store

The calls that every store of projects understands, and its answers. A store fails for want of a
project, because a document is not a record or holds a value that does not fit, or because the
database does not answer; `Outage` tells how it refuses.
-/

namespace Sitewright

inductive Outage where
  | unavailable
  | permissionDenied
  | retriesExhausted
  | defect
  deriving DecidableEq, Repr

def Outage.message : Outage → String
  | .unavailable => "503 down"
  | .permissionDenied => "403 down"
  | .retriesExhausted => "gave up, last exception: x"
  | .defect => "down"

/-- The database itself has refused the call. -/
def Outage.isRefusal : Outage → Bool
  | .unavailable | .permissionDenied => true
  | .retriesExhausted | .defect => false

inductive StoreFailure where
  | site (cause : SiteError)
  | missingEntry (key : String)
  | invalid (issues : List Issue)
  | mismatch (cause : Mismatch)
  | outage (cause : Outage)
  deriving DecidableEq, Repr

namespace StoreFailure

def projectNotFound (id : String) : StoreFailure :=
  .site (.projectNotFound id)

def message : StoreFailure → String
  | .site cause => cause.message
  | .missingEntry key => SiteError.quote key
  | .invalid issues => Issue.describe .document issues
  | .mismatch cause => cause.message
  | .outage cause => cause.message

end StoreFailure

/-- A call that both stores understand. -/
inductive StoreCall where
  | create (name : String) (brief : Option Fields)
  | get (id : String)
  | list
  | save (id : String) (content : Option Fields)
  | ping
  deriving Repr

inductive StoreAnswer where
  | project (project : Project)
  | found (project : Option Project)
  | projects (projects : List Project)
  | reachable (yes : Bool)
  | failed (cause : StoreFailure)
  deriving Repr

end Sitewright
