import Sitewright.Service.Handlers

/-!
# Serving requests

A request is routed by its path and method first. Then its body is checked, and only a request with
a valid body reaches its handler. What the handler has stored stays, also if its reply cannot be
sent. The answer carries the id of the request, if it has one that is not empty, unless the service
has crashed.
-/

namespace Sitewright

structure Request where
  method : String
  path : String
  body : String := ""
  id : Option String := none
  deriving Repr

structure Response where
  reply : Reply
  id : Option String
  deriving Repr

namespace Service

/-- Checks the body of a request and goes on with it. -/
def withBody {α : Type} (state : State) (text : String) (check : Fields → Checked α)
    (next : α → State × Reply) : State × Reply :=
  match Body.read check text with
  | .ok body => next body
  | .error .unreadable => (state, .unreadableBody)
  | .error (.invalid issues) => (state, .invalidBody issues)

def handle (service : Service) (state : State) (now : Timestamp) (body : String) :
    Route → State × Reply
  | .health => (state, health)
  | .databaseHealth => (state, databaseHealth state)
  | .sectionTypes => (state, service.sectionTypes)
  | .listProjects => (state, listProjects state)
  | .createProject => withBody state body Body.newProject (createProject state now)
  | .readSchema id => service.readSchema state now id
  | .writeSchema id => withBody state body Body.schema (writeSchema state now id)
  | .generateSchema => withBody state body Body.brief (service.generateSchema state)
  | .generateContent => withBody state body Body.schema (service.generateContent state)
  | .generateCode id => service.generateCode state id
  | .addPage id => withBody state body Body.pageTitle (addPage state now id)
  | .addSection id slug =>
      withBody state body Body.sectionType (service.addSection state now id slug)
  | .removeSection id slug sectionId => removeSection state now id slug sectionId
  | .updateProps id slug sectionId =>
      withBody state body Body.partialProps (updateProps state now id slug sectionId)

/-- The route of a request, or the reply to one that leads nowhere. -/
def route (method path : String) : Except Reply Route :=
  match Route.ofPath path with
  | [] => .error (if Route.leadsOn path then .moved else .notFound)
  | routes =>
      match (Method.ofName? method).bind fun method => List.lookup method routes with
      | some route => .ok route
      | none => .error .methodNotAllowed

def reply (service : Service) (state : State) (now : Timestamp) (request : Request) :
    State × Reply :=
  match route request.method request.path with
  | .error reply => (state, reply)
  | .ok route => service.handle state now request.body route

/-- The id that an answer carries. -/
def answeredId (request : Request) : Reply → Option String
  | .crash => none
  | _ => request.id.filter (· ≠ "")

/-- Serves one request. -/
def serve (service : Service) (state : State) (now : Timestamp) (request : Request) :
    State × Response :=
  let (state, reply) := service.reply state now request
  (state, ⟨reply.sent, answeredId request reply.sent⟩)

/-- Serves requests one after the other, each at its time. -/
def run (service : Service) (state : State) : List (Timestamp × Request) → State × List Response
  | [] => (state, [])
  | (now, request) :: requests =>
      let (state, response) := service.serve state now request
      let (state, responses) := service.run state requests
      (state, response :: responses)

end Service

end Sitewright
