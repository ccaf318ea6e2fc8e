import Sitewright.Decimal.Text
import Sitewright.Json.Basic
import Sitewright.Text.Quoted

/-!
# Values as plain text

`Json.display` is the text of a value where it stands inside other text: a string is its own text,
and any other value is written as `Json.literal` writes it, with `None`, `True` and `False` for the
three words and quoted strings inside lists and dictionaries.
-/

namespace Sitewright.Json

/-- Puts a comma and a blank between texts. -/
def commaJoin (texts : List (List Char)) : List Char :=
  List.intercalate [',', ' '] texts

mutual

def literal : Json → List Char
  | .null => ['N', 'o', 'n', 'e']
  | .bool true => ['T', 'r', 'u', 'e']
  | .bool false => ['F', 'a', 'l', 's', 'e']
  | .int n => Decimal.intDigits n
  | .float x => x.text
  | .string text => Text.quoted text.toList
  | .array items => '[' :: commaJoin (literalsOfItems items) ++ [']']
  | .object fields => '{' :: commaJoin (literalsOfFields fields) ++ ['}']

def literalsOfItems : List Json → List (List Char)
  | [] => []
  | item :: items => literal item :: literalsOfItems items

def literalsOfFields : List (String × Json) → List (List Char)
  | [] => []
  | (key, value) :: fields =>
      (Text.quoted key.toList ++ ':' :: ' ' :: literal value) :: literalsOfFields fields

end

def display : Json → String
  | .string text => text
  | value => String.ofList (literal value)

end Sitewright.Json
