import Sitewright.Journal.Entry
import Sitewright.Project.DocumentStore

/-!
# Deployment

Where the service writes its journal and keeps its projects. In the environment `dev` both stay with
the program; elsewhere the projects go to a database, and the journal to a cloud project if one is
named.
-/

namespace Sitewright

def Environment.dev : String := "dev"

inductive JournalTarget where
  | console (level : Level)
  | cloud (project : String) (level : Level)
  deriving DecidableEq, Repr

namespace JournalTarget

def choose (environment : String) (project : Option String) (useCloud : Bool) : JournalTarget :=
  let level := if environment = Environment.dev then .debug else .info
  match project with
  | none => .console level
  | some project =>
      if useCloud && project ≠ "" && environment ≠ Environment.dev then .cloud project level
      else .console level

/-- The least level that the program itself lets through; a cloud client leaves it alone. -/
def rootLevel : JournalTarget → Level
  | .console level => level
  | .cloud _ _ => .warning

/-- The sources that are heard from warnings on. -/
def quieted : List (String × Level) :=
  [("google", .warning), ("urllib3", .warning)]

end JournalTarget

inductive StoreTarget where
  | memory
  | documents (project : Option String) (collection : String)
  deriving DecidableEq, Repr

namespace StoreTarget

/-- The collection to use; an empty name counts as none. -/
def collection (name : Option String) : String :=
  match name with
  | some name => if name = "" then DocumentStore.defaultCollection else name
  | none => DocumentStore.defaultCollection

def choose (environment : String) (project collectionName : Option String) : StoreTarget :=
  if environment = Environment.dev then .memory
  else .documents project (collection collectionName)

end StoreTarget

structure Deployment where
  journal : JournalTarget
  store : StoreTarget
  deriving DecidableEq, Repr

namespace Deployment

def title : String := "Site Builder API"

def version : String := "0.1.0"

/-- The deployment for the variables that are set; no environment means `dev`. -/
def ofVariables (environment project collection : Option String) : Deployment :=
  let environment := environment.getD Environment.dev
  { journal := .choose environment project true
    store := .choose environment project collection }

end Deployment

end Sitewright
