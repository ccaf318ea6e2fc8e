import Sitewright.Editor
import Sitewright.Project.Store
import Sitewright.Service.Body
import Sitewright.Service.Reply
import Sitewright.Service.Route
import Sitewright.Synthesis

/-!
# The service

The service serves requests about the projects of a store. Every handler takes the state of the
service to the next one and gives a reply. A handler stops where it refuses a request; what it has
stored or reported before stays.
-/

namespace Sitewright

/-- What the service goes by. -/
structure Service where
  registry : Registry

namespace Service

structure State where
  store : ProjectStore := {}
  ids : IdSource
  journal : Journal

def plan (service : Service) : SitePlan :=
  .default service.registry

/-- Goes on when the journal has taken an entry; a journal that refuses it ends in a crash. -/
def State.report (state : State) (entry : Entry) (next : State → State × Reply) :
    State × Reply :=
  match state.journal.add entry with
  | .ok journal => next { state with journal }
  | .error _ => (state, .crash)

def entry (level : Level) (message : String) (id : String) (fields : Fields) : Entry where
  level
  source := .service
  message
  fields := ("project_id", .string id) :: fields

def answer (status : Nat) (fields : Fields) (state : State) : State × Reply :=
  (state, .json status (.object fields))

def health : Reply :=
  .json 200 (.object [("status", .string "ok")])

def databaseHealth (state : State) : Reply :=
  let ok := state.store.reachable
  .json (if ok then 200 else 500) (.object [("ok", .bool ok)])

def sectionTypes (service : Service) : Reply :=
  .json 200 (.object
    [("sectionTypes", .array (SectionKind.all.map fun kind =>
       .object
         [("type", .string kind.name),
          ("label", .string (service.registry.definition kind).label)]))])

def listProjects (state : State) : Reply :=
  .json 200 (.object [("projects", .array (state.store.list.map Project.summary))])

def createProject (state : State) (now : Timestamp) (body : Body.NewProject) : State × Reply :=
  let (project, store, ids) := state.store.create body.name body.brief now state.ids
  { state with store, ids }.report
    (entry .info "Project created" project.id [("slug", .string project.slug)])
    (answer 201 [("project", project.summary)])

/-- Saves the content of a schema and gives the record that has been stored. -/
def save (state : State) (now : Timestamp) (id : String) (content : Fields)
    (next : SchemaRecord → State → State × Reply) : State × Reply :=
  match state.store.save id (some content) now with
  | .error cause => (state, .ofError cause)
  | .ok (project, store) =>
      match project.schema with
      | some record => next record { state with store }
      | none => ({ state with store }, .crash)

/-- Saves a schema and answers it with its version and further fields. -/
def saveAndAnswer (state : State) (now : Timestamp) (id : String) (schema : Schema)
    (status : Nat) (fields : Fields) : State × Reply :=
  save state now id schema.fields fun record => answer status (Reply.schemaFields record ++ fields)

def readSchema (service : Service) (state : State) (now : Timestamp) (id : String) :
    State × Reply :=
  match state.store.get? id with
  | none => (state, .projectMissing)
  | some project =>
      match project.schema with
      | some record => answer 200 (Reply.schemaFields record) state
      | none =>
          match service.plan.defaultSchema project.name state.ids with
          | .error cause => (state, .ofError cause)
          | .ok (schema, ids) =>
              save { state with ids } now id schema.fields fun record state =>
                state.report (entry .info "Created default schema" id [])
                  (answer 200 (Reply.schemaFields record))

def writeSchema (state : State) (now : Timestamp) (id : String) (schema : Schema) :
    State × Reply :=
  match state.store.get? id with
  | none => (state, .projectMissing)
  | some _ => saveAndAnswer state now id schema 200 []

/-- Goes on with the stored schema of a project. -/
def withSchema (state : State) (id : String) (next : Schema → State × Reply) :
    State × Reply :=
  match state.store.get? id with
  | none => (state, .projectMissing)
  | some project =>
      match project.schema.bind (·.content) with
      | none => (state, .schemaMissing)
      | some content =>
          match Schema.ofJson (.object content) with
          | .ok schema => next schema
          | .error issues =>
              state.report
                (entry .error "Stored schema is invalid" id [("errors", .int issues.length)])
                fun state => (state, .schemaInvalid)

def addPage (state : State) (now : Timestamp) (id title : String) : State × Reply :=
  withSchema state id fun schema =>
    match schema.addPage title with
    | .error cause => (state, .ofError cause)
    | .ok schema => saveAndAnswer state now id schema 201 []

def addSection (service : Service) (state : State) (now : Timestamp) (id slug type : String) :
    State × Reply :=
  withSchema state id fun schema =>
    match schema.addSection service.registry slug (.string type) state.ids with
    | .error cause => (state, .ofError cause)
    | .ok (schema, made, ids) =>
        saveAndAnswer { state with ids } now id schema 201 [("section", made.toJson)]

def removeSection (state : State) (now : Timestamp) (id slug sectionId : String) :
    State × Reply :=
  withSchema state id fun schema =>
    match schema.removeSection slug sectionId with
    | .error cause => (state, .ofError cause)
    | .ok schema => saveAndAnswer state now id schema 200 []

def updateProps (state : State) (now : Timestamp) (id slug sectionId : String)
    (partialProps : Fields) : State × Reply :=
  withSchema state id fun schema =>
    match schema.updateProps slug sectionId partialProps with
    | .error cause => (state, .ofError cause)
    | .ok schema => saveAndAnswer state now id schema 200 []

/-- A generated schema and the prompt that a language model would get for it. -/
def generated (stage : String) (schema : Schema) (prompt : String) : Fields :=
  [("ok", .bool true),
   ("schema", schema.toJson),
   ("debug", .object [("step", .string stage), ("prompt", .string prompt)])]

def generateSchema (service : Service) (state : State) (brief : Brief) : State × Reply :=
  if brief.projectName = "" || brief.businessType.getD "" = "" then (state, .briefIncomplete)
  else
    match service.plan.synthesize brief state.ids with
    | .error cause => (state, .ofError cause)
    | .ok (schema, ids) =>
        { state with ids }.report (service.plan.report brief)
          (answer 200 (generated "STEP1_SCHEMA" schema brief.schemaPrompt))

def generateContent (service : Service) (state : State) (schema : Schema) : State × Reply :=
  match service.registry.enrich schema with
  | .error cause => (state, .ofError cause)
  | .ok enriched =>
      state.report schema.enrichmentReport
        (answer 200 (generated "STEP2_CONTENT" enriched schema.contentPrompt))

def generationFailed (state : State) (id : String) : State × Reply :=
  state.report (entry .error "Failed to generate project code" id [])
    fun state => (state, .generationFailed)

def generateCode (service : Service) (state : State) (id : String) : State × Reply :=
  match (state.store.get? id).bind (·.schema) with
  | none => (state, .schemaMissing)
  | some record =>
      match record.content with
      | none => (state, .schemaEmpty)
      | some content =>
          match Schema.ofJson (.object content) with
          | .error _ => generationFailed state id
          | .ok schema =>
              match service.registry.generate schema with
              | .error _ => generationFailed state id
              | .ok files =>
                  state.report (schema.generationReport files) fun state =>
                    match (Archive.package? schema files).bind Archive.written? with
                    | none => generationFailed state id
                    | some archive =>
                        state.report
                          (entry .info "Project archive ready" id
                            [("filename", .string archive.filename)])
                          fun state => (state, .archive archive)

end Service

end Sitewright
