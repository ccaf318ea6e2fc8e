import Sitewright.Ids
import Sitewright.Project.Call
import Sitewright.Text.Slug

/-!
# The project store

`ProjectStore` keeps the projects in memory, in the order in which they were created. A project is
made under an id of the time and a draw; an id that is taken already is taken over. Every save of a
schema counts the version of the project up by one. The clock may go on while a call is served, or
go backwards.
-/

namespace Sitewright

/-- The readings of the clock that one call takes, of which a save needs the first one alone. -/
structure Readings where
  first : Timestamp
  second : Timestamp
  third : Timestamp
  deriving Repr

/-- The clock stands still during the call. -/
def Readings.constant (now : Timestamp) : Readings :=
  ⟨now, now, now⟩

structure ProjectStore where
  projects : Dict Project := []
  /-- What the store answers when it is asked whether it can be reached. -/
  reachable : Bool := true

namespace ProjectStore

def newId (now : Timestamp) (draw : String) : String :=
  "prj_" ++ now.compact ++ "_" ++ draw

def createAt (store : ProjectStore) (name : String) (brief : Option Fields) (times : Readings)
    (ids : IdSource) : Project × ProjectStore × IdSource :=
  let (draw, ids) := ids.next
  let project : Project :=
    { id := newId times.first draw, name, slug := slugify name, brief,
      createdAt := times.second, updatedAt := times.third }
  (project, { store with projects := Dict.set project.id project store.projects }, ids)

def create (store : ProjectStore) (name : String) (brief : Option Fields) (now : Timestamp)
    (ids : IdSource) : Project × ProjectStore × IdSource :=
  store.createAt name brief (.constant now) ids

def get? (store : ProjectStore) (id : String) : Option Project :=
  Dict.get? store.projects id

/-- All projects, the newest first, and those of one time in the order of their creation. -/
def list (store : ProjectStore) : List Project :=
  (Dict.values store.projects).mergeSort fun a b => b.createdAt.instant ≤ a.createdAt.instant

def save (store : ProjectStore) (id : String) (content : Option Fields) (now : Timestamp) :
    Except SiteError (Project × ProjectStore) :=
  match store.get? id with
  | none => .error (.projectNotFound id)
  | some project =>
      let project := project.save content now
      .ok (project, { store with projects := Dict.set id project store.projects })

def stepAt (store : ProjectStore) (ids : IdSource) (times : Readings) :
    StoreCall → ProjectStore × IdSource × StoreAnswer
  | .create name brief =>
      let (project, store, ids) := store.createAt name brief times ids
      (store, ids, .project project)
  | .get id => (store, ids, .found (store.get? id))
  | .list => (store, ids, .projects store.list)
  | .save id content =>
      match store.save id content times.first with
      | .ok (project, store) => (store, ids, .project project)
      | .error cause => (store, ids, .failed (.site cause))
  | .ping => (store, ids, .reachable store.reachable)

def step (store : ProjectStore) (ids : IdSource) (now : Timestamp) :
    StoreCall → ProjectStore × IdSource × StoreAnswer :=
  store.stepAt ids (.constant now)

end ProjectStore

end Sitewright
