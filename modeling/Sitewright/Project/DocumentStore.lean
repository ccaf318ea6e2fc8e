import Sitewright.Journal.Entry
import Sitewright.Project.Document
import Sitewright.Project.Order
import Sitewright.Sorting
import Sitewright.Text.Slug

/-!
# The document store

`DocumentStore` keeps the projects as documents in a database. A save takes three steps, each of
which is one call to the database: it reads the document, updates it and reads it back. Queries fail
while an outage lasts, and listing fails as well where two times of creation are in no order.
-/

namespace Sitewright

/-- The ids that the database draws for its documents. -/
def DocumentStore.autoId (position : Nat) : String :=
  "auto" ++ toString (position + 1)

structure DocumentStore where
  documents : Dict Document := []
  /-- The ids of new documents, in the order in which they are given out. -/
  idAt : Nat → String := DocumentStore.autoId
  /-- The number of ids that have been given out. -/
  made : Nat := 0
  outage : Option Outage := none

namespace DocumentStore

def defaultCollection : String := "projects"

def defaultLimit : Nat := 100

def document? (store : DocumentStore) (id : String) : Option Document :=
  Dict.get? store.documents id

def put (store : DocumentStore) (id : String) (document : Document) : DocumentStore :=
  { store with documents := Dict.set id document store.documents }

def create (store : DocumentStore) (name : String) (brief : Option Fields) (now : Timestamp) :
    Project × DocumentStore :=
  let project : Project :=
    { id := store.idAt store.made, name, slug := slugify name, brief,
      createdAt := now, updatedAt := now }
  (project, { store.put project.id project.toDocument with made := store.made + 1 })

def get (store : DocumentStore) (id : String) (now : Timestamp) :
    Except StoreFailure (Option Project) :=
  match store.document? id with
  | none => .ok none
  | some document => (Project.ofDocument id now document).map some

/-- The first step of a save. -/
def planSave (store : DocumentStore) (id : String) (content : Option Fields) (now : Timestamp) :
    Except StoreFailure (List Document.Change) :=
  match store.document? id with
  | none => .error (.projectNotFound id)
  | some document => .ok (Project.saveChanges document content now)

/-- The second step of a save. -/
def update (store : DocumentStore) (id : String) (changes : List Document.Change) :
    DocumentStore × Except StoreFailure Unit :=
  match store.document? id with
  | none => (store, .ok ())
  | some document =>
      let (document, outcome) := Document.change document changes
      (store.put id document, outcome.mapError .mismatch)

/-- The third step of a save. -/
def readBack (store : DocumentStore) (id : String) (now : Timestamp) :
    Except StoreFailure Project :=
  match store.document? id with
  | none => .error (.projectNotFound id)
  | some document => Project.ofDocument id now document

/-- Saves a schema. The update stays if the document cannot be read back, and so do the changes
before one that fails. -/
def save (store : DocumentStore) (id : String) (content : Option Fields) (now : Timestamp) :
    DocumentStore × Except StoreFailure Project :=
  match store.planSave id content now with
  | .error cause => (store, .error cause)
  | .ok changes =>
      match store.update id changes with
      | (store, .ok ()) => (store, store.readBack id now)
      | (store, .error cause) => (store, .error cause)

/-- The order of two documents by their creation and then their ids. -/
def precedes (a b : Value × String) : Except Mismatch Bool :=
  if a.1.equals b.1 then .ok (a.2 < b.2) else a.1.precedes b.1

/-- The documents that have a time of creation, each as that time and its id. -/
def dated (store : DocumentStore) : List (Value × String) :=
  store.documents.filterMap fun (id, document) =>
    (Dict.get? document "created_at").map fun created => (created, id)

/-- The ids of the documents that have a time of creation, the last one first. -/
def listed (store : DocumentStore) : Except Mismatch (List String) :=
  (Sorting.sort precedes store.dated.reverse).map fun sorted => (sorted.map (·.2)).reverse

/-- The newest projects, at most `limit` of them. -/
def list (store : DocumentStore) (limit : Nat) (now : Timestamp) :
    Except StoreFailure (List Project) :=
  match store.outage with
  | some outage => .error (.outage outage)
  | none =>
      match store.listed with
      | .ok ids => (ids.take limit).mapM fun id => store.readBack id now
      | .error cause => .error (.mismatch cause)

/-- An outage in which the database itself refuses the call shows in the answer. -/
def ping (store : DocumentStore) : Except StoreFailure Bool :=
  match store.outage with
  | none => .ok true
  | some outage => if outage.isRefusal then .ok false else .error (.outage outage)

def createReport (project : Project) : Entry where
  level := .info
  source := .documentStore
  message := "Created project"
  fields := [("project_id", .string project.id), ("slug", .string project.slug)]

def saveReport (id : String) (project : Project) : Entry where
  level := .info
  source := .documentStore
  message := "Saved project schema"
  fields :=
    [("project_id", .string id),
     ("version",
       match project.schema with
       | some record => .int record.version
       | none => .null)]

def outageReport : Entry where
  level := .warning
  source := .documentStore
  message := "Firestore health check failed"

/-- Serves a call and reports on it. -/
def step (store : DocumentStore) (now : Timestamp) :
    StoreCall → DocumentStore × StoreAnswer × List Entry
  | .create name brief =>
      let (project, store) := store.create name brief now
      (store, .project project, [createReport project])
  | .get id =>
      match store.get id now with
      | .ok project => (store, .found project, [])
      | .error cause => (store, .failed cause, [])
  | .list =>
      match store.list defaultLimit now with
      | .ok projects => (store, .projects projects, [])
      | .error cause => (store, .failed cause, [])
  | .save id content =>
      match store.save id content now with
      | (store, .ok project) => (store, .project project, [saveReport id project])
      | (store, .error cause) => (store, .failed cause, [])
  | .ping =>
      match store.ping with
      | .ok true => (store, .reachable true, [])
      | .ok false => (store, .reachable false, [outageReport])
      | .error cause => (store, .failed cause, [])

end DocumentStore

end Sitewright
