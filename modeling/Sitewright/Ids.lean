import Sitewright.Text.Quoted

/-!
# Id draws

Ids end in six characters of a random draw. The draws form an endless sequence, of which an
`IdSource` has used the first few. A search for a free id goes through the draws in order and gives
up after as many as its patience allows.
-/

namespace Sitewright

structure IdSource where
  draw : Nat → String
  used : Nat
  patience : Nat

namespace IdSource

/-- The first six characters of a draw. -/
def suffix (ids : IdSource) (position : Nat) : String :=
  String.ofList ((ids.draw position).toList.take 6)

/-- Uses the next draw. -/
def next (ids : IdSource) : String × IdSource :=
  (ids.suffix ids.used, { ids with used := ids.used + 1 })

/-- The first position from `position` on whose id is not taken, looking at `fuel` draws. -/
def firstFree? (idAt : Nat → String) (taken : List String) : (fuel position : Nat) → Option Nat
  | 0, _ => none
  | fuel + 1, position =>
      if taken.contains (idAt position) then firstFree? idAt taken fuel (position + 1)
      else some position

/-- The first free id made of `stem` and a draw; the draws up to it are used. -/
def fresh? (ids : IdSource) (stem : String) (taken : List String) : Option (String × IdSource) :=
  let idAt (position : Nat) := stem ++ ids.suffix position
  (firstFree? idAt taken ids.patience ids.used).map fun position =>
    (idAt position, { ids with used := position + 1 })

/-- The given draws, then those that count 1, 2, ... in six hexadecimal digits. -/
def ofList (given : List String) : IdSource where
  draw position :=
    (given[position]?).getD (String.ofList (Text.hex 6 (position - given.length + 1)))
  used := 0
  patience := given.length + Nat.pow 16 6

end IdSource

end Sitewright
