import Sitewright.Project.DocumentStore

/-!
# Saves step by step

A save of a schema in the document store is three calls to the database, between which other
instances of the service may make calls of their own. `Saving` is how far a save has come: it keeps
the changes that it has planned for the document that it has read, whatever becomes of the document.
-/

namespace Sitewright

inductive Saving where
  | asked (content : Option Fields)
  | refused (cause : StoreFailure)
  | planned (changes : List Document.Change)
  | updated (changes : List Document.Change)
  | done (changes : List Document.Change) (outcome : Except StoreFailure Project)

namespace Saving

/-- The next call of a save to the database. -/
def step (id : String) (now : Timestamp) (store : DocumentStore) :
    Saving → DocumentStore × Saving
  | .asked content =>
      match store.planSave id content now with
      | .ok changes => (store, .planned changes)
      | .error cause => (store, .refused cause)
  | .planned changes =>
      match store.update id changes with
      | (store, .ok ()) => (store, .updated changes)
      | (store, .error cause) => (store, .done changes (.error cause))
  | .updated changes => (store, .done changes (store.readBack id now))
  | saving => (store, saving)

def isFinished : Saving → Bool
  | .refused _ | .done _ _ => true
  | _ => false

/-- What a save that has come to its end answers. -/
def outcome? : Saving → Option (Except StoreFailure Project)
  | .refused cause => some (.error cause)
  | .done _ outcome => some outcome
  | _ => none

end Saving

end Sitewright
