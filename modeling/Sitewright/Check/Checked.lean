import Sitewright.Check.Issue
import Sitewright.Json.Basic

/-!
# Checked values

A check turns a JSON value into a value of the domain or answers every issue it meets. Two checks
that are combined both run, and the issues of the first come first, so the issues of a record stand
in the order of its declared fields and those of a list in the order of its items.
-/

namespace Sitewright

def Checked (α : Type) := Except (List Issue) α

namespace Checked

variable {α β ν : Type}

def valid (value : α) : Checked α :=
  .ok value

def invalid (issues : List Issue) : Checked α :=
  .error issues

def fail (fault : Fault) : Checked α :=
  invalid [⟨[], fault⟩]

def map (f : α → β) : Checked α → Checked β
  | .ok value => .ok (f value)
  | .error issues => .error issues

def ap (f : Checked (α → β)) (x : Checked α) : Checked β :=
  match f, x with
  | .ok f, .ok x => .ok (f x)
  | .ok _, .error issues => .error issues
  | .error issues, .ok _ => .error issues
  | .error issues, .error more => .error (issues ++ more)

instance : Applicative Checked where
  pure := valid
  map := map
  seq f x := ap f (x ())

/-- Puts a step in front of the path of every issue. -/
def within (step : Step) : Checked α → Checked α
  | .ok value => .ok value
  | .error issues => .error (issues.map fun issue => { issue with path := step :: issue.path })

/-- Checks the items of a list, the first one being at index `start`. -/
def items (check : Json → Checked α) (start : Nat) : List Json → Checked (List α)
  | [] => valid []
  | item :: rest =>
      List.cons <$> within (.index start) (check item) <*> items check (start + 1) rest

def text : Json → Checked String
  | .string text => valid text
  | _ => fail .notText

/-- A text that is not empty. To count its characters takes a whole text. -/
def someText : Json → Checked String
  | .string text =>
      if Text.hasHalf text.toList then fail .halvedText
      else if text.isEmpty then fail .emptyText
      else valid text
  | _ => fail .notText

def dictionary : Json → Checked Fields
  | .object fields => valid fields
  | _ => fail .notDictionary

def record (name : String) (check : Fields → Checked α) : Json → Checked α
  | .object fields => check fields
  | _ => fail (.notRecord name)

/-- A record that keeps the entries besides those declared, whose keys have to be whole; otherwise
nothing else is told about the record. -/
def openRecord (name : String) (declared : List String) (check : Fields → Checked α) :
    Json → Checked α
  | .object fields =>
      if (Dict.keys (Dict.without declared fields)).any fun key => Text.hasHalf key.toList then
        fail .halvedText
      else check fields
  | _ => fail (.notRecord name)

def list (check : Json → Checked α) : Json → Checked (List α)
  | .array values => items check 0 values
  | _ => fail .notList

def sequence (check : Json → Checked α) : Json → Checked (List α)
  | .array values => items check 0 values
  | .string _ => fail .textForSequence
  | _ => fail .notSequence

def nullable (check : Json → Checked α) : Json → Checked (Option α)
  | .null => valid none
  | value => some <$> check value

/-- Checks the entry of `key`, which has to be there. -/
def required (key : String) (check : ν → Checked α) (fields : Dict ν) : Checked α :=
  within (.key key) <|
    match Dict.get? fields key with
    | some value => check value
    | none => fail .missing

/-- Checks the entry of `key` if there is one. -/
def optional (key : String) (default : α) (check : ν → Checked α) (fields : Dict ν) :
    Checked α :=
  match Dict.get? fields key with
  | some value => within (.key key) (check value)
  | none => valid default

end Checked

end Sitewright
