import Mathlib.Data.List.Forall2

/-!
# Computations that can fail

A sequence of computations gives a value exactly if each of them does, and a list is gone through
successfully exactly if every item is.
-/

namespace Sitewright.Outcome

variable {α β ε : Type}

theorem exists_of_mem_right {R : α → β → Prop} {xs : List α} {ys : List β}
    (h : List.Forall₂ R xs ys) {y : β} (hm : y ∈ ys) : ∃ x ∈ xs, R x y := by
  induction h with
  | nil => cases hm
  | cons hr hrest ih =>
      rcases List.mem_cons.mp hm with rfl | hm
      · exact ⟨_, List.mem_cons_self, hr⟩
      · obtain ⟨x, hx, he⟩ := ih hm
        exact ⟨x, List.mem_cons_of_mem _ hx, he⟩

theorem bind_eq_ok_iff {x : Except ε α} {f : α → Except ε β} {b : β} :
    x >>= f = .ok b ↔ ∃ a, x = .ok a ∧ f a = .ok b := by
  cases x with
  | ok a => simp [bind, Except.bind]
  | error cause => simp [bind, Except.bind]

theorem bind_eq_error_iff {x : Except ε α} {f : α → Except ε β} {cause : ε} :
    x >>= f = .error cause ↔ x = .error cause ∨ ∃ a, x = .ok a ∧ f a = .error cause := by
  cases x with
  | ok a => simp [bind, Except.bind]
  | error cause => simp [bind, Except.bind]

theorem bind_pure_eq_ok_iff {x : Except ε α} {f : α → β} {b : β} :
    (x >>= fun a => pure (f a)) = .ok b ↔ ∃ a, x = .ok a ∧ f a = b := by
  rw [bind_eq_ok_iff]
  simp [pure, Except.pure]

theorem map_eq_ok_iff {x : Except ε α} {f : α → β} {b : β} :
    x.map f = .ok b ↔ ∃ a, x = .ok a ∧ f a = b := by
  cases x with
  | ok a => simp [Except.map]
  | error cause => simp [Except.map]

theorem exists_error_iff {x : Except ε α} : (∃ cause, x = .error cause) ↔ ¬∃ a, x = .ok a := by
  cases x with
  | ok a => simp
  | error cause => simp

theorem mapM_eq_ok_iff {f : α → Except ε β} {xs : List α} {ys : List β} :
    xs.mapM f = .ok ys ↔ List.Forall₂ (fun x y => f x = .ok y) xs ys := by
  induction xs generalizing ys with
  | nil => simp [pure, Except.pure, eq_comm]
  | cons x xs ih =>
      rw [List.mapM_cons, List.forall₂_cons_left_iff, bind_eq_ok_iff]
      constructor
      · rintro ⟨y, hy, h⟩
        obtain ⟨zs, hz, he⟩ := bind_pure_eq_ok_iff.mp h
        exact ⟨y, zs, hy, ih.mp hz, he.symm⟩
      · rintro ⟨y, zs, hy, hz, rfl⟩
        exact ⟨y, hy, bind_pure_eq_ok_iff.mpr ⟨zs, ih.mpr hz, rfl⟩⟩

theorem exists_mapM_eq_ok {f : α → Except ε β} {xs : List α} (h : ∀ x ∈ xs, ∃ y, f x = .ok y) :
    ∃ ys, xs.mapM f = .ok ys := by
  induction xs with
  | nil => exact ⟨[], rfl⟩
  | cons x xs ih =>
      obtain ⟨y, hy⟩ := h x List.mem_cons_self
      obtain ⟨ys, hys⟩ := ih fun z hz => h z (List.mem_cons_of_mem _ hz)
      exact ⟨y :: ys, mapM_eq_ok_iff.mpr (List.Forall₂.cons hy (mapM_eq_ok_iff.mp hys))⟩

theorem mapM_eq_ok_map {f : α → Except ε β} {g : α → β} {xs : List α}
    (h : ∀ x ∈ xs, f x = .ok (g x)) : xs.mapM f = .ok (xs.map g) := by
  rw [mapM_eq_ok_iff, List.forall₂_map_right_iff]
  exact List.forall₂_same.mpr h

theorem zipWith_eq_right {R : α → β → Prop} {xs : List α} {ys : List β} {g : α → β → β}
    (h : List.Forall₂ R xs ys) (hg : ∀ x y, R x y → g x y = y) : List.zipWith g xs ys = ys := by
  induction h with
  | nil => rfl
  | cons hr hrest ih => rw [List.zipWith_cons_cons, hg _ _ hr, ih]

theorem mapM_zipWith {γ : Type} {R : α → β → Prop} {xs : List α} {ys : List β} {f : γ → Except ε γ}
    {g next : α → β → γ} (h : List.Forall₂ R xs ys)
    (hg : ∀ x y, R x y → f (g x y) = .ok (next x y)) :
    (List.zipWith g xs ys).mapM f = .ok (List.zipWith next xs ys) := by
  rw [mapM_eq_ok_iff]
  induction h with
  | nil => exact List.Forall₂.nil
  | cons hr hrest ih => exact List.Forall₂.cons (hg _ _ hr) ih

end Sitewright.Outcome
