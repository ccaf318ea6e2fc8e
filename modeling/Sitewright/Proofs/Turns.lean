import Mathlib.Data.List.Basic
import Sitewright.Turns

/-!
# Invariants of turns

A turn changes what is shared and one of the parties as the step of this party does, and leaves the
parties before and behind it alone. So whatever every step keeps is kept by all orders of turns.
-/

namespace Sitewright.Table

variable {σ π : Type} {step : Timestamp → σ → π → σ × π}

theorem turn_cases (step : Timestamp → σ → π → σ × π) (table : Table σ π) (place : Nat)
    (now : Timestamp) :
    table.turn step place now = table ∨
      ∃ front party back, table.parties = front ++ party :: back ∧
        table.turn step place now =
          { shared := (step now table.shared party).1
            parties := front ++ (step now table.shared party).2 :: back } := by
  rw [turn]
  cases hp : table.parties[place]? with
  | none => exact .inl rfl
  | some party =>
      obtain ⟨hlt, hget⟩ := List.getElem?_eq_some_iff.mp hp
      refine .inr ⟨table.parties.take place, party, table.parties.drop (place + 1), ?_, ?_⟩
      · rw [← hget, List.getElem_cons_drop, List.take_append_drop]
      · show Table.mk _ (table.parties.set place _) = _
        rw [List.set_eq_take_append_cons_drop, if_pos hlt]

/-- What holds of every party still does when one of them has come further. -/
theorem forall_next {P : π → Prop} {front back : List π} {party next : π}
    (h : ∀ other ∈ front ++ party :: back, P other) (hn : P next) :
    ∀ other ∈ front ++ next :: back, P other := by
  rw [List.forall_mem_append, List.forall_mem_cons] at h ⊢
  exact ⟨h.1, hn, h.2.2⟩

/-- What one step of any party keeps holds after all turns. -/
theorem run_invariant {P : σ → List π → Prop}
    (hstep : ∀ now shared front party back, P shared (front ++ party :: back) →
      P (step now shared party).1 (front ++ (step now shared party).2 :: back))
    {table : Table σ π} (h : P table.shared table.parties) (turns : List (Nat × Timestamp)) :
    P (table.run step turns).shared (table.run step turns).parties := by
  induction turns generalizing table with
  | nil => exact h
  | cons turn turns ih =>
      obtain ⟨place, now⟩ := turn
      rw [run]
      apply ih
      rcases turn_cases step table place now with hsame | ⟨front, party, back, hparties, hturn⟩
      · rwa [hsame]
      · rw [hparties] at h
        rw [hturn]
        exact hstep now table.shared front party back h

theorem length_run (step : Timestamp → σ → π → σ × π) (table : Table σ π)
    (turns : List (Nat × Timestamp)) :
    (table.run step turns).parties.length = table.parties.length := by
  refine run_invariant (P := fun _ parties => parties.length = table.parties.length) ?_ rfl turns
  intro now shared front party back h
  rw [← h, List.length_append, List.length_append, List.length_cons, List.length_cons]

end Sitewright.Table
