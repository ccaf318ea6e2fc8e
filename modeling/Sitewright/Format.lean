import Sitewright.Decimal.Basic
import Sitewright.Text.Quoted

/-!
# Texts with places for a name

A default text may have places for the name of the website, `\x7bwebsite_name\x7d`, and doubled braces
that stand for single ones. A text with any other brace in it cannot be filled in. `Format.fault?`
tells why: the braces do not make places, or a place asks for something that there is not. Places
with a conversion, a format or a look-up behind the name are not supported, and count as faults too.
-/

namespace Sitewright

/-- The place of the name. -/
def Format.place : List Char :=
  "\x7bwebsite_name\x7d".toList

/-- Fills the name of the website into a default text, in which doubled braces stand for single
ones; `skip` characters are left out first. -/
def fillDefaultFrom (name : List Char) : (skip : Nat) → List Char → List Char
  | _, [] => []
  | skip + 1, _ :: rest => fillDefaultFrom name skip rest
  | 0, c :: rest =>
      if Format.place.isPrefixOf (c :: rest) then
        name ++ fillDefaultFrom name (Format.place.length - 1) rest
      else if (c = '\x7b' || c = '\x7d') && rest.head? = some c then
        c :: fillDefaultFrom name 1 rest
      else c :: fillDefaultFrom name 0 rest

def fillDefault (name text : String) : String :=
  String.ofList (fillDefaultFrom name.toList 0 text.toList)

namespace Format

inductive Fault where
  /-- A brace that is neither doubled nor part of a place. -/
  | loneBrace (brace : Char)
  | openPlace
  | nestedPlace
  | openConversion
  | longConversion
  | openFormat
  /-- The place asks for a value by its position. -/
  | noPosition (position : Nat)
  /-- The place asks for another value. -/
  | noName (name : String)
  | unsupported
  deriving DecidableEq, Repr

def Fault.message : Fault → String
  | .loneBrace brace => "Single '" ++ String.singleton brace ++ "' encountered in format string"
  | .openPlace => "expected '\x7d' before end of string"
  | .nestedPlace => "unexpected '\x7b' in field name"
  | .openConversion => "end of string while looking for conversion specifier"
  | .longConversion => "expected ':' after conversion specifier"
  | .openFormat => "unmatched '\x7b' in format spec"
  | .noPosition position =>
      "Replacement index " ++ toString position ++ " out of range for positional args tuple"
  | .noName name => String.ofList (Text.quoted name.toList)
  | .unsupported => "place is not supported"

/-- What stands in a place up to the mark that ends the name, that mark and the text behind it. No
mark counts between square brackets. -/
def readName : (inBrackets : Bool) → List Char → Except Fault (List Char × Char × List Char)
  | _, [] => .error .openPlace
  | true, c :: rest =>
      (readName (c != ']') rest).map fun (name, mark, rest) => (c :: name, mark, rest)
  | false, c :: rest =>
      if c = '\x7b' then .error .nestedPlace
      else if c = '\x7d' || c = ':' || c = '!' then .ok ([], c, rest)
      else (readName (c == '[') rest).map fun (name, mark, rest) => (c :: name, mark, rest)

/-- Whether the brace that ends a format comes, `depth` others being open. -/
def closes : (depth : Nat) → List Char → Bool
  | _, [] => false
  | depth, c :: rest =>
      if c = '\x7b' then closes (depth + 1) rest
      else if c = '\x7d' then
        match depth with
        | 0 => true
        | depth + 1 => closes depth rest
      else closes depth rest

/-- Why there is nothing to put in a place with a name that is not just that of the website. -/
def nameFault (name : List Char) : Fault :=
  let first := name.takeWhile fun c => c != '.' && c != '['
  if first.all Decimal.isDigit then .noPosition (Decimal.ofDigits first)
  else if first = "website_name".toList then .unsupported
  else .noName (String.ofList first)

/-- What is wrong with a place, whose text behind the first brace is given. -/
def placeFault (text : List Char) : Fault :=
  match readName false text with
  | .error fault => fault
  | .ok (name, mark, rest) =>
      if mark = '\x7d' then nameFault name
      else if mark = ':' then if closes 0 rest then nameFault name else .openFormat
      else
        match rest with
        | [] => .openConversion
        | [_] => .openFormat
        | _ :: c :: rest =>
            if c = '\x7d' then nameFault name
            else if c = ':' then if closes 0 rest then nameFault name else .openFormat
            else .longConversion

/-- The first fault of a text, of which `skip` characters are left out. -/
def faultFrom? : (skip : Nat) → List Char → Option Fault
  | _, [] => none
  | skip + 1, _ :: rest => faultFrom? skip rest
  | 0, c :: rest =>
      if place.isPrefixOf (c :: rest) then faultFrom? (place.length - 1) rest
      else if c = '\x7b' || c = '\x7d' then
        if rest.head? = some c then faultFrom? 1 rest
        else if c = '\x7d' || rest.isEmpty then some (.loneBrace c)
        else some (placeFault rest)
      else faultFrom? 0 rest

/-- Why a text cannot be filled in, if there is a reason. -/
def fault? (text : String) : Option Fault :=
  faultFrom? 0 text.toList

end Format

end Sitewright
