import Sitewright.Json.Display
import Sitewright.Json.Printer
import Sitewright.Text.Basic

/-!
# Templates

A template is a list of parts: fixed text, and places that show an entry of the context, as it is,
as a JSON literal that is safe inside HTML, or set further in, and loops over the items of an entry.
`Template.render` fills a template in, or answers the first thing that is wrong.
-/

namespace Sitewright

namespace Template

/-- An entry of the context, or an entry of such an entry. -/
inductive Expr where
  | var (name : String)
  | attribute (owner name : String)
  deriving DecidableEq, Repr

inductive Part where
  | text (content : String)
  | plain (expr : Expr)
  | literal (expr : Expr)
  | indented (width : Nat) (expr : Expr)
  | each (item list : String) (body : List Part)
  deriving Repr

/-- What an expression asks for in vain. -/
inductive Missing where
  | variable (name : String)
  | attribute (owner name : String)
  deriving DecidableEq, Repr

inductive Error where
  | notFound (path : String)
  | undefined (missing : Missing)
  | notSerializable
  | notIterable (type : String)
  | notText (type : String)
  | noLines (type : String)
  deriving DecidableEq, Repr

def Missing.message : Missing → String
  | .variable name => "'" ++ name ++ "' is undefined"
  | .attribute owner name => "'" ++ owner ++ "' has no attribute '" ++ name ++ "'"

def Error.message : Error → String
  | .notFound path => path
  | .undefined missing => missing.message
  | .notSerializable => "Object of type StrictUndefined is not JSON serializable"
  | .notIterable type => "'" ++ type ++ "' object is not iterable"
  | .notText type => "unsupported operand type(s) for +=: '" ++ type ++ "' and 'str'"
  | .noLines type => "'" ++ type ++ "' object has no attribute 'splitlines'"

end Template

namespace Json

/-- How messages speak of a value that lacks an attribute. -/
def ownerName : Json → String
  | .null => "None"
  | value => value.typeName ++ " object"

mutual

/-- The value with the entries of every object in the order of their keys. -/
def sortKeys : Json → Json
  | .array items => .array (sortKeysOfItems items)
  | .object fields =>
      .object ((sortKeysOfFields fields).mergeSort fun a b => !decide (b.1 < a.1))
  | value => value

def sortKeysOfItems : List Json → List Json
  | [] => []
  | item :: items => sortKeys item :: sortKeysOfItems items

def sortKeysOfFields : List (String × Json) → List (String × Json)
  | [] => []
  | (key, value) :: fields => (key, sortKeys value) :: sortKeysOfFields fields

end

def htmlSafeChar (c : Char) : List Char :=
  if c = '<' || c = '>' || c = '&' || c = '\'' then unicodeEscape c.toNat else [c]

/-- The value as a JSON literal of ASCII characters without any that means something in HTML. -/
def htmlSafe (value : Json) : String :=
  String.ofList ((value.sortKeys.chars .asciiLine 0).flatMap htmlSafeChar)

/-- What a loop over a value goes through. -/
def elements : Json → Except Template.Error (List Json)
  | .array items => .ok items
  | .string text => .ok (text.toList.map fun c => .string (String.ofList [c]))
  | .object fields => .ok (fields.map fun (key, _) => .string key)
  | value => .error (.notIterable value.typeName)

/-- The lines of a text set further in. -/
def indented (width : Nat) : Json → Except Template.Error String
  | .string text => .ok (String.ofList (Text.indent width text.toList))
  | .array _ => .error (.noLines "list")
  | value => .error (.notText value.typeName)

end Json

namespace Template

def Expr.eval (context : Fields) : Expr → Except Missing Json
  | .var name =>
      match Dict.get? context name with
      | some value => .ok value
      | none => .error (.variable name)
  | .attribute owner name =>
      match Dict.get? context owner with
      | none => .error (.variable owner)
      | some (.object fields) =>
          match Dict.get? fields name with
          | some value => .ok value
          | none => .error (.attribute "dict object" name)
      | some value => .error (.attribute value.ownerName name)

def Expr.value (context : Fields) (expr : Expr) : Except Error Json :=
  (expr.eval context).mapError .undefined

mutual

def Part.render (context : Fields) : Part → Except Error String
  | .text content => .ok content
  | .plain expr => (expr.value context).map Json.display
  | .literal expr =>
      match expr.eval context with
      | .ok value => .ok value.htmlSafe
      | .error _ => .error .notSerializable
  | .indented width expr => (expr.value context).bind (Json.indented width)
  | .each item list body =>
      match (Expr.value context (.var list)).bind Json.elements with
      | .error cause => .error cause
      | .ok values =>
          (values.mapM fun value => renderParts ((item, value) :: context) body).map String.join

def renderParts (context : Fields) : List Part → Except Error String
  | [] => .ok ""
  | part :: parts =>
      match part.render context with
      | .error cause => .error cause
      | .ok text => (renderParts context parts).map (text ++ ·)

end

end Template

/-- The parts of a template. -/
abbrev Template := List Template.Part

def Template.render (template : Template) (context : Fields) : Except Template.Error String :=
  Template.renderParts context template

/-- Fixed lines, each with its line feed. -/
def Template.Part.block (lines : List String) : Template.Part :=
  .text (String.join (lines.map (· ++ "\n")))

def Template.ofLines (lines : List String) : Template :=
  [.block lines]

end Sitewright
