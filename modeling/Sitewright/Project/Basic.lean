import Sitewright.Project.Value

/-!
# Project records

What the builder keeps of a project. The schema of a project is kept as JSON together with a version
that counts how often it has been saved; its content may be null. Entries that are missing from a
record take their defaults, which for the times is the present.
-/

namespace Sitewright

structure SchemaRecord where
  content : Option Fields := none
  version : Int := 1
  updatedAt : Timestamp
  deriving Repr, Inhabited

structure Project where
  id : String
  name : String
  slug : String
  status : String := "draft"
  brief : Option Fields := none
  owner : String := "demo@local.test"
  schema : Option SchemaRecord := none
  createdAt : Timestamp
  updatedAt : Timestamp
  deriving Repr, Inhabited

namespace SchemaRecord

def ofEntries (now : Timestamp) (entries : Dict Value) : Checked SchemaRecord :=
  SchemaRecord.mk
    <$> Checked.optional "content" none (Value.nullable Value.dictionary) entries
    <*> Checked.optional "version" 1 Value.integer entries
    <*> Checked.optional "updated_at" now Value.timestamp entries

def ofValue (now : Timestamp) : Value → Checked SchemaRecord :=
  Value.record "ProjectSchemaRecord" (ofEntries now)

def contentJson (record : SchemaRecord) : Json :=
  match record.content with
  | some fields => .object fields
  | none => .null

def toJson (record : SchemaRecord) : Json :=
  .object
    [("content", record.contentJson),
     ("version", .int record.version),
     ("updated_at", .string record.updatedAt.iso)]

/-- The record after `content` has been saved. -/
def saved (record : Option SchemaRecord) (content : Option Fields) (now : Timestamp) :
    SchemaRecord where
  content
  version :=
    match record with
    | some record => record.version + 1
    | none => 1
  updatedAt := now

end SchemaRecord

namespace Project

def defaultStatus : String := "draft"

def defaultOwner : String := "demo@local.test"

def ofEntries (now : Timestamp) (entries : Dict Value) : Checked Project :=
  Project.mk
    <$> Checked.required "id" Value.text entries
    <*> Checked.required "name" Value.text entries
    <*> Checked.required "slug" Value.text entries
    <*> Checked.optional "status" defaultStatus Value.text entries
    <*> Checked.optional "brief" none (Value.nullable Value.dictionary) entries
    <*> Checked.optional "owner" defaultOwner Value.text entries
    <*> Checked.optional "site_schema" none (Value.nullable (SchemaRecord.ofValue now)) entries
    <*> Checked.optional "created_at" now Value.timestamp entries
    <*> Checked.optional "updated_at" now Value.timestamp entries

def ofValue (now : Timestamp) : Value → Checked Project :=
  Value.record "ProjectRecord" (ofEntries now)

def briefJson (project : Project) : Json :=
  match project.brief with
  | some fields => .object fields
  | none => .null

def schemaJson (project : Project) : Json :=
  match project.schema with
  | some record => record.toJson
  | none => .null

def toJson (project : Project) : Json :=
  .object
    [("id", .string project.id),
     ("name", .string project.name),
     ("slug", .string project.slug),
     ("status", .string project.status),
     ("brief", project.briefJson),
     ("owner", .string project.owner),
     ("site_schema", project.schemaJson),
     ("created_at", .string project.createdAt.iso),
     ("updated_at", .string project.updatedAt.iso)]

def summary (project : Project) : Json :=
  .object
    [("id", .string project.id),
     ("name", .string project.name),
     ("slug", .string project.slug),
     ("status", .string project.status),
     ("createdAt", .string project.createdAt.iso)]

/-- The project after a schema has been saved. -/
def save (project : Project) (content : Option Fields) (now : Timestamp) : Project :=
  { project with schema := some (SchemaRecord.saved project.schema content now), updatedAt := now }

end Project

end Sitewright
