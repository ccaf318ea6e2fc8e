import Sitewright.Json.Basic
import Sitewright.Project.Value

/-!
# Mismatches

The database works on values of any kind, and some of its operations have no meaning for some kinds.
A mismatch says which, and `Mismatch.message` words it.
-/

namespace Sitewright

/-- The name of the kind of a value in messages. -/
def Value.typeName : Value → String
  | .stamp _ => "datetime.datetime"
  | .json value => value.typeName
  | .list _ => Json.typeName (.array [])
  | .map _ => Json.typeName (.object [])

def Value.isList : Value → Bool
  | .list _ => true
  | .json (.array _) => true
  | _ => false

def Value.isText : Value → Bool
  | .json (.string _) => true
  | _ => false

inductive Mismatch where
  /-- A value that is no map and so has no entries. -/
  | noEntries (type : String)
  /-- A list, whose items are not found by keys. -/
  | listForMap
  /-- A text or list, to which only its like can be added. -/
  | joinsOnly (type : String)
  /-- A value to which no number can be added. -/
  | noSum (type : String)
  /-- Two values that are not in any order. -/
  | noOrder (left right : String)
  deriving DecidableEq, Repr

namespace Mismatch

/-- Why there is no map in a value. -/
def ofParent (value : Value) : Mismatch :=
  if value.isList then .listForMap else .noEntries value.typeName

/-- Why no number can be added to a value. -/
def ofSummand (value : Value) : Mismatch :=
  if value.isText || value.isList then .joinsOnly value.typeName else .noSum value.typeName

def quoted (type : String) : String :=
  "'" ++ type ++ "'"

def message : Mismatch → String
  | .noEntries type => quoted type ++ " object does not support item assignment"
  | .listForMap => "list indices must be integers or slices, not str"
  | .joinsOnly type => "can only concatenate " ++ type ++ " (not \"int\") to " ++ type
  | .noSum type => "unsupported operand type(s) for +: " ++ quoted type ++ " and 'int'"
  | .noOrder left right =>
      "'<' not supported between instances of " ++ quoted left ++ " and " ++ quoted right

end Mismatch

end Sitewright
