import Sitewright.Time.Timestamp

/-!
# Taking turns

Several parties work on something that they share. A party takes one step when it is its turn, and
the turns come in any order: nothing keeps one party from starting before another one is done.
-/

namespace Sitewright

/-- What several parties share, and how far each of them has come. -/
structure Table (σ π : Type) where
  shared : σ
  parties : List π
  deriving Repr

namespace Table

variable {σ π : Type}

/-- The party at a place takes its next step; a place without a party changes nothing. -/
def turn (step : Timestamp → σ → π → σ × π) (table : Table σ π) (place : Nat)
    (now : Timestamp) : Table σ π :=
  match table.parties[place]? with
  | none => table
  | some party =>
      let (shared, party) := step now table.shared party
      { shared, parties := table.parties.set place party }

/-- Turns one after the other, each the place of a party and the time at which it takes its step. -/
def run (step : Timestamp → σ → π → σ × π) (table : Table σ π) :
    List (Nat × Timestamp) → Table σ π
  | [] => table
  | (place, now) :: turns => (table.turn step place now).run step turns

end Table

end Sitewright
