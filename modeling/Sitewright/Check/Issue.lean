import Sitewright.Time.Calendar

/-!
# Issues

An issue says where a value fails to have the form asked for, and why. The wording of an issue
depends on the origin of the value only where a record was expected.
-/

namespace Sitewright

/-- One step into a value: the entry of a key or the item at an index. -/
inductive Step where
  | key (name : String)
  | index (i : Nat)
  deriving DecidableEq, Repr

def Step.text : Step → String
  | .key name => name
  | .index i => toString i

inductive Fault where
  | missing
  | notText
  | halvedText
  | emptyText
  | notDictionary
  | notRecord (name : String)
  | notList
  | notSequence
  | textForSequence
  | notFlag
  | unclearFlag
  | notInteger
  | unreadableInteger
  | fractionalInteger
  | oversizedInteger
  | infiniteInteger
  | notTimestamp
  | unreadableTimestamp (cause : TimeFault)
  | impossibleTimestamp (cause : TimeFault)
  | brokenJson
  deriving DecidableEq, Repr

structure Issue where
  path : List Step
  fault : Fault
  deriving DecidableEq, Repr

/-- Where a checked value comes from. -/
inductive Origin where
  | document
  | request
  deriving DecidableEq, Repr

def Fault.message (origin : Origin) : Fault → String
  | .missing => "Field required"
  | .notText => "Input should be a valid string"
  | .halvedText =>
      "Input should be a valid string, unable to parse raw data as a unicode string"
  | .emptyText => "String should have at least 1 character"
  | .notDictionary => "Input should be a valid dictionary"
  | .notRecord name =>
      match origin with
      | .document => "Input should be a valid dictionary or instance of " ++ name
      | .request => "Input should be a valid dictionary or object to extract fields from"
  | .notList => "Input should be a valid list"
  | .notSequence => "Input should be an instance of Sequence"
  | .textForSequence => "'str' instances are not allowed as a Sequence value"
  | .notFlag => "Input should be a valid boolean"
  | .unclearFlag => "Input should be a valid boolean, unable to interpret input"
  | .notInteger => "Input should be a valid integer"
  | .unreadableInteger =>
      "Input should be a valid integer, unable to parse string as an integer"
  | .fractionalInteger =>
      "Input should be a valid integer, got a number with a fractional part"
  | .oversizedInteger =>
      "Unable to parse input string as an integer, exceeded maximum size"
  | .infiniteInteger => "Input should be a finite number"
  | .notTimestamp => "Input should be a valid datetime"
  | .unreadableTimestamp cause => "Input should be a valid datetime or date, " ++ cause.message
  | .impossibleTimestamp cause => "Input should be a valid datetime, " ++ cause.message
  | .brokenJson => "JSON decode error"

def Issue.text (origin : Origin) (issue : Issue) : String :=
  ".".intercalate (issue.path.map Step.text) ++ ": " ++ issue.fault.message origin

/-- The texts of all issues in one line. -/
def Issue.describe (origin : Origin) (issues : List Issue) : String :=
  "; ".intercalate (issues.map (Issue.text origin))

end Sitewright
