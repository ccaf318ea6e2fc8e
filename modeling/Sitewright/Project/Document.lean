import Sitewright.Project.Call

/-!
# Project documents

A project is stored as a document, a map of values without the id. `Project.ofDocument` reads a
document, also one that was written by hand: entries other than the name and the two times may be
missing, and a schema entry that is empty counts as none. A document is changed by setting the value
at a path, or by counting the number there up by one.

The database keeps its documents in memory, as maps of maps. It refuses a change whose way leads
through a value that is no map, and does not count up what is no number. A database that serves many
clients may put a map, or the summand, in the place of such a value instead; documents that only
this project has written have none.
-/

namespace Sitewright

abbrev Document := Dict Value

namespace Document

/-- The entries of the map under a key, none if the key is missing. -/
def mapAt (key : String) (document : Document) : Except Mismatch Document :=
  match Dict.get? document key with
  | none => .ok []
  | some value =>
      match value.entries? with
      | some entries => .ok entries
      | none => .error (.ofParent value)

def valueAt : (path : List String) → Document → Except Mismatch (Option Value)
  | [], _ => .ok none
  | [key], document => .ok (Dict.get? document key)
  | key :: path, document => do valueAt path (← mapAt key document)

/-- Sets the value at a path and makes the maps on the way to it. -/
def setAt : (path : List String) → Value → Document → Except Mismatch Document
  | [], _, document => .ok document
  | [key], value, document => .ok (Dict.set key value document)
  | key :: path, value, document => do
      let entries ← setAt path value (← mapAt key document)
      return Dict.set key (.map entries) document

/-- One more than a number, and one where there is nothing. -/
def incremented : Option Value → Except Mismatch Value
  | none => .ok (.json (.int 1))
  | some (.json (.int n)) => .ok (.json (.int (n + 1)))
  | some (.json (.bool b)) => .ok (.json (.int (if b then 2 else 1)))
  | some (.json (.float x)) => .ok (.json (.float x.succ))
  | some value => .error (.ofSummand value)

inductive Change where
  | set (path : List String) (value : Value)
  | increment (path : List String)
  deriving Repr

def Change.apply (document : Document) : Change → Except Mismatch Document
  | .set path value => setAt path value document
  | .increment path => do setAt path (← incremented (← valueAt path document)) document

/-- Makes changes one after the other up to the first that fails; those before it stay. -/
def change (document : Document) : List Change → Document × Except Mismatch Unit
  | [] => (document, .ok ())
  | next :: changes =>
      match next.apply document with
      | .ok document => change document changes
      | .error cause => (document, .error cause)

end Document

def Value.ofFields (fields : Option Fields) : Value :=
  match fields with
  | some fields => .json (.object fields)
  | none => .json .null

namespace SchemaRecord

def toValue (record : SchemaRecord) : Value :=
  .map
    [("content", .ofFields record.content),
     ("version", .json (.int record.version)),
     ("updated_at", .stamp record.updatedAt)]

/-- The schema entry of a document. -/
def ofDocument? (now : Timestamp) (document : Document) :
    Except StoreFailure (Option SchemaRecord) :=
  match Dict.get? document "site_schema" with
  | none => .ok none
  | some value =>
      if value.isEmpty then .ok none
      else
        match SchemaRecord.ofValue now value with
        | .ok record => .ok (some record)
        | .error issues => .error (.invalid issues)

end SchemaRecord

namespace Project

def toDocument (project : Project) : Document :=
  [("name", .json (.string project.name)),
   ("slug", .json (.string project.slug)),
   ("status", .json (.string project.status)),
   ("brief", .ofFields project.brief),
   ("owner", .json (.string project.owner)),
   ("site_schema",
     match project.schema with
     | some record => record.toValue
     | none => .json .null),
   ("created_at", .stamp project.createdAt),
   ("updated_at", .stamp project.updatedAt)]

def requireEntry (document : Document) (key : String) : Except StoreFailure Value :=
  match Dict.get? document key with
  | some value => .ok value
  | none => .error (.missingEntry key)

def checkDocument (id : String) (schema : Option SchemaRecord) (document : Document)
    (name createdAt updatedAt : Value) : Checked Project :=
  (fun name slug status brief owner createdAt updatedAt =>
      { id, name, slug, status, brief, owner, schema, createdAt, updatedAt })
    <$> Checked.within (.key "name") name.text
    <*> Checked.optional "slug" "" Value.text document
    <*> Checked.optional "status" defaultStatus Value.text document
    <*> Checked.optional "brief" none (Value.nullable Value.dictionary) document
    <*> Checked.optional "owner" defaultOwner Value.text document
    <*> Checked.within (.key "created_at") createdAt.timestamp
    <*> Checked.within (.key "updated_at") updatedAt.timestamp

def ofDocument (id : String) (now : Timestamp) (document : Document) :
    Except StoreFailure Project := do
  let schema ← SchemaRecord.ofDocument? now document
  let name ← requireEntry document "name"
  let createdAt ← requireEntry document "created_at"
  let updatedAt ← requireEntry document "updated_at"
  match checkDocument id schema document name createdAt updatedAt with
  | .ok project => .ok project
  | .error issues => .error (.invalid issues)

/-- The changes that save a schema in a document: the first save writes the whole entry. -/
def saveChanges (document : Document) (content : Option Fields) (now : Timestamp) :
    List Document.Change :=
  if ((Dict.get? document "site_schema").map Value.isNull).getD true then
    [.set ["site_schema"] (SchemaRecord.toValue { content, updatedAt := now }),
     .set ["updated_at"] (.stamp now)]
  else
    [.set ["site_schema", "content"] (.ofFields content),
     .increment ["site_schema", "version"],
     .set ["site_schema", "updated_at"] (.stamp now),
     .set ["updated_at"] (.stamp now)]

end Project

end Sitewright
