import Sitewright.Decimal.Basic
import Sitewright.Dict
import Sitewright.Text.Encoding

/-!
# JSON values

Objects keep their entries in order, integers have any size, and a number with a fraction or an
exponent is kept as a decimal numeral apart from the integers. A numeral may stand for infinity, for
which JSON has no number; `Json.dumped` puts null in its place. A text may lack the half of a
surrogate pair; a value with such a text or key is not whole.
-/

namespace Sitewright

inductive Json where
  | null
  | bool (b : Bool)
  | int (n : Int)
  | float (x : Decimal)
  | string (text : String)
  | array (items : List Json)
  | object (fields : List (String × Json))
  deriving Repr, Inhabited

/-- The entries of an object. -/
abbrev Fields := Dict Json

namespace Json

/-- The name of the type of a value in messages. -/
def typeName : Json → String
  | .null => "NoneType"
  | .bool _ => "bool"
  | .int _ => "int"
  | .float _ => "float"
  | .string _ => "str"
  | .array _ => "list"
  | .object _ => "dict"

def ofOption (text : Option String) : Json :=
  match text with
  | some text => .string text
  | none => .null

def ofStrings (texts : List String) : Json :=
  .array (texts.map .string)

/-- Missing, null and the empty text count as blank. -/
def isBlank : Option Json → Bool
  | none => true
  | some .null => true
  | some (.string text) => text.isEmpty
  | some _ => false

mutual

/-- The value with null for every number that is not finite. Keys and texts stay as they are. -/
def dumped : Json → Json
  | .float x => if x.isInfinite then .null else .float x
  | .array items => .array (dumpedItems items)
  | .object fields => .object (dumpedFields fields)
  | value => value

def dumpedItems : List Json → List Json
  | [] => []
  | item :: items => dumped item :: dumpedItems items

def dumpedFields : List (String × Json) → List (String × Json)
  | [] => []
  | (key, value) :: fields => (key, dumped value) :: dumpedFields fields

end

mutual

/-- The texts and keys of a value. -/
def texts : Json → List String
  | .string text => [text]
  | .array items => textsOfItems items
  | .object fields => textsOfFields fields
  | _ => []

def textsOfItems : List Json → List String
  | [] => []
  | item :: items => texts item ++ textsOfItems items

def textsOfFields : List (String × Json) → List String
  | [] => []
  | (key, value) :: fields => key :: texts value ++ textsOfFields fields

end

/-- Whether no text of a value lacks the half of a pair, so that the value can be sent. -/
def isWhole (value : Json) : Bool :=
  value.texts.all fun text => !Text.hasHalf text.toList

end Json

end Sitewright
