import Sitewright.Check.Scalar

/-!
# Stored values

A value in a document is a timestamp, JSON, or a list or map whose parts are such values. The checks
on stored values are those on JSON, except that a timestamp counts as a timestamp alone.
-/

namespace Sitewright

inductive Value where
  | stamp (t : Timestamp)
  | json (value : Json)
  | list (items : List Value)
  | map (entries : List (String × Value))
  deriving Repr, Inhabited

namespace Value

mutual

/-- The value as JSON, timestamps as ISO texts. -/
def toJson : Value → Json
  | .stamp t => .string t.iso
  | .json value => value
  | .list items => .array (toJsonItems items)
  | .map entries => .object (toJsonEntries entries)

def toJsonItems : List Value → List Json
  | [] => []
  | item :: items => item.toJson :: toJsonItems items

def toJsonEntries : List (String × Value) → List (String × Json)
  | [] => []
  | (key, value) :: entries => (key, value.toJson) :: toJsonEntries entries

end

/-- The entries of a map, which may be a JSON object. -/
def entries? : Value → Option (Dict Value)
  | .map entries => some entries
  | .json (.object fields) => some (fields.map fun (key, value) => (key, .json value))
  | _ => none

def isNull : Value → Bool
  | .json .null => true
  | _ => false

/-- Null, false, zero and whatever is empty. -/
def isEmpty : Value → Bool
  | .stamp _ => false
  | .list items => items.isEmpty
  | .map entries => entries.isEmpty
  | .json value =>
      match value with
      | .null => true
      | .bool b => !b
      | .int n => n == 0
      | .float x => x.coefficient == 0
      | .string text => text.isEmpty
      | .array items => items.isEmpty
      | .object fields => fields.isEmpty

def text : Value → Checked String
  | .json value => Checked.text value
  | _ => Checked.fail .notText

def integer : Value → Checked Int
  | .json value => Checked.integer value
  | _ => Checked.fail .notInteger

def timestamp : Value → Checked Timestamp
  | .stamp t => Checked.valid t
  | .json value => Checked.timestamp value
  | _ => Checked.fail .notTimestamp

def dictionary : Value → Checked Fields
  | .map entries => Checked.valid (toJsonEntries entries)
  | .json value => Checked.dictionary value
  | _ => Checked.fail .notDictionary

def nullable {α : Type} (check : Value → Checked α) (value : Value) : Checked (Option α) :=
  if value.isNull then Checked.valid none else some <$> check value

def record {α : Type} (name : String) (check : Dict Value → Checked α) (value : Value) :
    Checked α :=
  match value.entries? with
  | some entries => check entries
  | none => Checked.fail (.notRecord name)

end Value

end Sitewright
