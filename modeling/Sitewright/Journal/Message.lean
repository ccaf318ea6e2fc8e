import Sitewright.Json.Display

/-!
# Messages with places

The text of a journal message may have places for arguments, `%s` for the next one and `%%` for a
percent sign. Other kinds of places, such as `%d`, `%r` or one with a name or a width, are not
supported: a text with one of them cannot be filled. Without arguments a text stands for itself. A
single record counts for every place that asks for it first and need not be used.
-/

namespace Sitewright.Message

inductive Fault where
  | tooFewArguments
  | tooManyArguments
  /-- The text ends in a percent sign. -/
  | unfinished
  | unknownPlace (mark : Char) (position : Nat)
  deriving DecidableEq, Repr

/-- A character in a message, if it is a visible ASCII character. -/
def shownMark (mark : Char) : Char :=
  if ' ' ≤ mark && mark ≤ '~' then mark else '?'

def Fault.message : Fault → String
  | .tooFewArguments => "not enough arguments for format string"
  | .tooManyArguments => "not all arguments converted during string formatting"
  | .unfinished => "incomplete format"
  | .unknownPlace mark position =>
      "unsupported format character '" ++ String.ofList [shownMark mark] ++ "' (0x" ++
        String.ofList (Nat.toDigits 16 mark.toNat) ++ ") at index " ++ toString position

/-- Fills arguments into a text from `position` on; gives the arguments that are left over. -/
def fillFrom : (position : Nat) → List Char → List Json → Except Fault (List Char × List Json)
  | _, [], args => .ok ([], args)
  | _, ['%'], _ => .error .unfinished
  | position, '%' :: '%' :: rest, args =>
      (fillFrom (position + 2) rest args).map fun (text, left) => ('%' :: text, left)
  | _, '%' :: _ :: _, [] => .error .tooFewArguments
  | position, '%' :: 's' :: rest, arg :: args =>
      (fillFrom (position + 2) rest args).map fun (text, left) =>
        (arg.display.toList ++ text, left)
  | position, '%' :: mark :: _, _ :: _ => .error (.unknownPlace mark (position + 1))
  | position, c :: rest, args =>
      (fillFrom (position + 1) rest args).map fun (text, left) => (c :: text, left)

def isRecord : List Json → Bool
  | [.object (_ :: _)] => true
  | _ => false

def fill (text : String) (args : List Json) : Except Fault String :=
  if args.isEmpty then .ok text
  else
    match fillFrom 0 text.toList args with
    | .error fault => .error fault
    | .ok (filled, left) =>
        if left.isEmpty || isRecord args then .ok (String.ofList filled)
        else .error .tooManyArguments

end Sitewright.Message
