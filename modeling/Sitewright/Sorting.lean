/-!
# Sorting by an order that may fail

`Sorting.sort` sorts by a comparison that may answer with a failure instead; the first one that does
ends the sort. The row with which a list starts is taken as it is, or the other way round if it
goes down, and every later element is put in its place by halving.
-/

namespace Sitewright.Sorting

variable {α ε : Type}

/-- Splits off the elements at the start of a list each of which follows on from the one before. -/
def splitRow (follows : α → α → Except ε Bool) (last : α) : List α → Except ε (List α × List α)
  | [] => .ok ([], [])
  | next :: rest => do
      if ← follows last next then
        let (row, rest) ← splitRow follows next rest
        return (next :: row, rest)
      else return ([], next :: rest)

/-- The place of `x` between `low` and `high` in a sorted list, after all that are not greater. -/
def place (less : α → α → Except ε Bool) (x : α) (sorted : List α) (low high : Nat) :
    Except ε Nat :=
  if low < high then
    let middle := low + (high - low) / 2
    match sorted[middle]? with
    | none => .ok low
    | some y => do
        if ← less x y then place less x sorted low middle
        else place less x sorted (middle + 1) high
  else .ok low
termination_by high - low

/-- Puts elements in their places in a sorted list. -/
def insertAll (less : α → α → Except ε Bool) (sorted : List α) : List α → Except ε (List α)
  | [] => .ok sorted
  | x :: rest => do
      let i ← place less x sorted 0 sorted.length
      insertAll less (sorted.take i ++ x :: sorted.drop i) rest

def sort (less : α → α → Except ε Bool) : List α → Except ε (List α)
  | [] => .ok []
  | [x] => .ok [x]
  | x :: y :: rest => do
      if ← less y x then
        let (row, rest) ← splitRow (fun a b => less b a) y rest
        insertAll less (x :: y :: row).reverse rest
      else
        let (row, rest) ← splitRow (fun a b => (less b a).map (!·)) y rest
        insertAll less (x :: y :: row) rest

end Sitewright.Sorting
