import Sitewright.Json.Basic

/-!
# Journal entries

The parts of the builder report what they do as journal entries with further fields. A few field
names are reserved to the journal itself. A journal that hears an entry refuses it if it uses one of
them. A journal that is not enabled hears none, an enabled one those from its least level on.
-/

namespace Sitewright

inductive Level where
  | debug
  | info
  | warning
  | error
  deriving DecidableEq, Repr

def Level.number : Level → Int
  | .debug => 10
  | .info => 20
  | .warning => 30
  | .error => 40

/-- The part of the builder that an entry comes from. -/
inductive Source where
  | synthesis
  | enrichment
  | generation
  | service
  | documentStore
  deriving DecidableEq, Repr

structure Entry where
  level : Level
  source : Source
  message : String
  fields : Fields := []
  deriving Repr

/-- The names that every record carries by itself. -/
def reservedFields : List String :=
  ["name", "msg", "args", "levelname", "levelno", "pathname", "filename", "module", "exc_info",
   "exc_text", "stack_info", "lineno", "funcName", "created", "msecs", "relativeCreated",
   "thread", "threadName", "processName", "process", "message", "asctime"]

/-- The first field whose name is reserved. -/
def reservedField? (fields : Fields) : Option String :=
  (Dict.keys fields).find? reservedFields.contains

structure Journal where
  enabled : Bool
  least : Level := .debug
  entries : List Entry := []

namespace Journal

def hears (journal : Journal) (level : Level) : Bool :=
  journal.enabled && journal.least.number ≤ level.number

/-- Adds an entry, or answers the reserved name that the entry uses. -/
def add (journal : Journal) (entry : Entry) : Except String Journal :=
  if journal.hears entry.level then
    match reservedField? entry.fields with
    | some name => .error name
    | none => .ok { journal with entries := journal.entries ++ [entry] }
  else .ok journal

end Journal

end Sitewright
