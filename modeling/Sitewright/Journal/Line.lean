import Sitewright.Decimal.Binary64
import Sitewright.Error
import Sitewright.Journal.Entry
import Sitewright.Journal.Message
import Sitewright.Json.Printer
import Sitewright.Text.Basic
import Sitewright.Time.Timestamp

/-!
# Journal lines

A record of the journal is written as one line of JSON: the time, the severity, the message and the
place it comes from, the id of the request if there is one, and then the further fields. A further
field that has the name of one before it takes its place; a name that starts with an underscore is
left out.
-/

namespace Sitewright

/-- The time of a count of seconds, on a clock without a zone. -/
inductive Moment where
  | whole (seconds : Int)
  | fractional (seconds : Decimal)
  deriving Repr

namespace Moment

/-- The microseconds of a fraction of a second, rounded as binary numbers are, a tie to the even
one. -/
def roundedMicros (num den : Nat) : Nat :=
  match Binary64.ofRatio (1000000 * num) den with
  | some product =>
      let (num, den) := product.ratio
      Binary64.roundDiv num den
  | none => 0

/-- The count in microseconds. -/
def micros : Moment → Int
  | .whole seconds => seconds * 1000000
  | .fractional seconds =>
      let (num, den) := seconds.binaryRatio
      let micros : Int := num / den * 1000000 + roundedMicros (num % den) den
      if seconds.negative then -micros else micros

/-- Why a count is no time: its year is none that a time can have, or too large for 32 bits, or the
count itself is too large for 64 bits. -/
inductive Fault where
  | strangeYear (year : Int)
  | longYear
  | longCount
  deriving DecidableEq, Repr

def Fault.text : Fault → String
  | .strangeYear year => "year " ++ String.ofList (Decimal.intDigits year) ++ " is out of range"
  | .longYear => "[Errno 75] Value too large for defined data type"
  | .longCount => "timestamp out of range for platform time_t"

/-- The bound of the counts that fit into 64 bits with a sign, two to the power of 63. -/
def countBound : Int := 9223372036854775808

/-- The bound of the years that fit into 32 bits with a sign, two to the power of 31. -/
def yearBound : Int := 2147483648

def timestamp (moment : Moment) : Except Fault Timestamp :=
  let time : Timestamp := ⟨moment.micros, none⟩
  let second := moment.micros / 1000000
  let year := time.date.year
  if second < -countBound || countBound ≤ second then .error .longCount
  else if year < -yearBound || yearBound ≤ year then .error .longYear
  else if year < 1 || 9999 < year then .error (.strangeYear year)
  else .ok time

end Moment

/-- What has gone wrong when an entry is made. -/
structure Raised where
  type : String
  message : String
  deriving Repr

/-- The text of a missing key is quoted. -/
def Raised.detail (raised : Raised) : String :=
  if raised.type = "KeyError" then SiteError.quote raised.message else raised.message

def Raised.text (raised : Raised) : String :=
  if raised.detail = "" then raised.type else raised.type ++ ": " ++ raised.detail

structure Record where
  created : Moment
  level : Int
  logger : String
  path : String
  line : Int
  function : Option String
  message : Json
  args : List Json := []
  extra : Fields := []
  trace : Option String := none
  raised : Option Raised := none
  deriving Repr

namespace Record

inductive Fault where
  | reservedField (name : String)
  | created (fault : Moment.Fault)
  | message (fault : Message.Fault)
  deriving Repr

def Fault.text : Fault → String
  | .reservedField name =>
      SiteError.quote ("Attempt to overwrite " ++ SiteError.quote name ++ " in LogRecord")
  | .created fault => fault.text
  | .message fault => fault.message

def severity (level : Int) : String :=
  match level with
  | 0 => "NOTSET"
  | 10 => "DEBUG"
  | 20 => "INFO"
  | 30 => "WARNING"
  | 40 => "ERROR"
  | 50 => "CRITICAL"
  | level => "Level " ++ String.ofList (Decimal.intDigits level)

/-- A file name without its extension; the dots in front belong to the name. -/
def stem (name : List Char) : List Char :=
  let rest := name.dropWhile (· == '.')
  let cut :=
    if rest.contains '.' then ((rest.reverse.dropWhile (· != '.')).drop 1).reverse else rest
  name.takeWhile (· == '.') ++ cut

def module (record : Record) : String :=
  String.ofList (stem ((Text.split '/' record.path.toList).getLast?.getD []))

/-- The id of the request, if it is not empty. -/
def traceFields (record : Record) : Fields :=
  match record.trace with
  | none => []
  | some trace =>
      if trace = "" then [] else [("logging.googleapis.com/trace", .string trace)]

def standardFields (record : Record) (time : Timestamp) (message : String) : Fields :=
  [("timestamp", .string (time.iso ++ "Z")),
   ("severity", .string (severity record.level)),
   ("message", .string message),
   ("logger", .string record.logger),
   ("module", .string record.module),
   ("function", .ofOption record.function),
   ("line", .int record.line)] ++ record.traceFields

def isShown (name : String) : Bool :=
  name.toList.head? != some '_'

/-- The entries of a line whose time is known and whose message has been filled in. -/
def fields (record : Record) (time : Timestamp) (message : String) : Fields :=
  let shown := record.extra.filter fun (name, _) => isShown name
  let fields := Dict.overlay (record.standardFields time message) shown
  match record.raised with
  | some raised => Dict.set "exception" (.string raised.text) fields
  | none => fields

def format (record : Record) : Except Fault String :=
  match reservedField? record.extra with
  | some name => .error (.reservedField name)
  | none =>
      match record.created.timestamp with
      | .error fault => .error (.created fault)
      | .ok time =>
          match Message.fill record.message.display record.args with
          | .error fault => .error (.message fault)
          | .ok message => .ok ((Json.object (record.fields time message)).print .line)

end Record

end Sitewright
