import Sitewright.Decimal.Binary64
import Sitewright.Project.Mismatch

/-!
# The order of stored values

Numbers are in order by their value, the truth values being 0 and 1, texts by their characters,
times by the clock, and lists by their first items that differ. Other values, and two of different
kinds, are in no order. They can still be equal.
-/

namespace Sitewright

/-- The value of a number as a fraction. -/
def Json.number? : Json → Option (Int × Nat)
  | .bool b => some (if b then 1 else 0, 1)
  | .int n => some (n, 1)
  | .float x => some x.fraction
  | _ => none

namespace Value

def sameNumber (a b : Int × Nat) : Bool :=
  a.1 * b.2 == b.1 * a.2

def equalsPlain : Json → Json → Bool
  | .null, .null => true
  | .string a, .string b => a == b
  | a, b =>
      match a.number?, b.number? with
      | some a, some b => sameNumber a b
      | _, _ => false

mutual

def equals : Value → Value → Bool
  | .stamp a, .stamp b => a.instant == b.instant
  | .json a, .json b => equalsPlain a b
  | .list items, .list others => equalItems items others
  | .map entries, .map others =>
      entries.length == others.length && equalEntries entries others
  | _, _ => false

def equalItems : List Value → List Value → Bool
  | [], [] => true
  | item :: items, other :: others => equals item other && equalItems items others
  | _, _ => false

/-- Whether all entries of a map are found in another one. -/
def equalEntries : List (String × Value) → Dict Value → Bool
  | [], _ => true
  | (key, value) :: entries, others =>
      (match Dict.get? others key with
       | some other => equals value other
       | none => false) && equalEntries entries others

end

def precedesPlain (a b : Json) : Except Mismatch Bool :=
  match a, b with
  | .string a, .string b => .ok (a < b)
  | a, b =>
      match a.number?, b.number? with
      | some x, some y => .ok (x.1 * y.2 < y.1 * x.2)
      | _, _ => .error (.noOrder a.typeName b.typeName)

mutual

def precedes : Value → Value → Except Mismatch Bool
  | .stamp a, .stamp b => .ok (a.instant < b.instant)
  | .json a, .json b => precedesPlain a b
  | .list items, .list others => precedesItems items others
  | a, b => .error (.noOrder a.typeName b.typeName)

def precedesItems : List Value → List Value → Except Mismatch Bool
  | _, [] => .ok false
  | [], _ :: _ => .ok true
  | item :: items, other :: others =>
      if equals item other then precedesItems items others else precedes item other

end

end Value

end Sitewright
