import Sitewright.Project.DocumentStore
import Sitewright.Service.Handlers

/-!
# Requests for a schema, call by call

Instances of the service that share a repository may serve requests at the same time. A request that
reads or replaces the schema of a project asks for the project first and saves a schema afterwards,
if it has decided to: a reader saves the default schema when it has found none. `Visit` is such a
request and how far it has come. Its reply is the one that the service sends, or crashes on, later.
-/

namespace Sitewright

/-- A store of either kind. -/
inductive Repository where
  | memory (store : ProjectStore)
  | documents (store : DocumentStore)

namespace Repository

def get (repository : Repository) (id : String) (now : Timestamp) :
    Except StoreFailure (Option Project) :=
  match repository with
  | .memory store => .ok (store.get? id)
  | .documents store => store.get id now

def save (repository : Repository) (id : String) (content : Option Fields) (now : Timestamp) :
    Repository × Except StoreFailure Project :=
  match repository with
  | .memory store =>
      match store.save id content now with
      | .ok (project, store) => (.memory store, .ok project)
      | .error cause => (.memory store, .error (.site cause))
  | .documents store =>
      let (store, outcome) := store.save id content now
      (.documents store, outcome)

end Repository

inductive SchemaRequest where
  /-- The draws are for the ids of a default schema. -/
  | read (ids : IdSource)
  | write (schema : Schema)

inductive VisitStage where
  | asked
  | decided (schema : Schema)
  | served (saved : Option SchemaRecord) (reply : Reply)

structure Visit where
  request : SchemaRequest
  stage : VisitStage := .asked

namespace Visit

/-- The answer to a request during which the store has failed. -/
def replyTo : StoreFailure → Reply
  | .site cause => .ofError cause
  | _ => .crash

def answer (record : SchemaRecord) : Reply :=
  .json 200 (.object (Reply.schemaFields record))

/-- What a request goes on with when it has found its project. -/
def goOn (service : Service) (project : Project) : SchemaRequest → VisitStage
  | .write schema => .decided schema
  | .read ids =>
      match project.schema with
      | some record => .served none (answer record)
      | none =>
          match service.plan.defaultSchema project.name ids with
          | .ok (schema, _) => .decided schema
          | .error cause => .served none (.ofError cause)

/-- The next call of a request to the repository. -/
def step (service : Service) (id : String) (now : Timestamp) (repository : Repository)
    (visit : Visit) : Repository × Visit :=
  match visit.stage with
  | .asked =>
      match repository.get id now with
      | .ok (some project) =>
          (repository, { visit with stage := goOn service project visit.request })
      | .ok none => (repository, { visit with stage := .served none .projectMissing })
      | .error cause => (repository, { visit with stage := .served none (replyTo cause) })
  | .decided schema =>
      match repository.save id (some schema.fields) now with
      | (repository, .ok project) =>
          match project.schema with
          | some record =>
              (repository, { visit with stage := .served (some record) (answer record) })
          | none => (repository, { visit with stage := .served none .crash })
      | (repository, .error cause) =>
          (repository, { visit with stage := .served none (replyTo cause) })
  | .served _ _ => (repository, visit)

def isServed (visit : Visit) : Bool :=
  match visit.stage with
  | .served _ _ => true
  | _ => false

def reply? (visit : Visit) : Option Reply :=
  match visit.stage with
  | .served _ reply => some reply
  | _ => none

/-- What the request has saved. -/
def saved? (visit : Visit) : Option SchemaRecord :=
  match visit.stage with
  | .served saved _ => saved
  | _ => none

end Visit

end Sitewright
