import Mathlib.Data.List.Basic
import Sitewright.Proofs.Outcome
import Sitewright.Sorting

/-!
# Sorting by a comparison that never fails

If the comparison goes by a number that every element has, `Sorting.sort` puts the elements in the
order of these numbers. The row at the start is in order, halving finds a place that leaves it so,
and no element is lost on the way. Sorting the other way round, by `List.mergeSort`, keeps elements
of one number in their order.
-/

namespace Sitewright.Sorting

variable {α ε : Type} {less : α → α → Except ε Bool} {key : α → Int} {x : α}
  {xs sorted : List α}

/-- The elements can be compared, and the comparison is that of their keys. -/
def GoesBy (less : α → α → Except ε Bool) (key : α → Int) (xs : List α) : Prop :=
  ∀ a ∈ xs, ∀ b ∈ xs, less a b = .ok (decide (key a < key b))

def Sorted (key : α → Int) (xs : List α) : Prop :=
  xs.Pairwise fun a b => key a ≤ key b

theorem GoesBy.of_perm {ys : List α} (h : GoesBy less key xs) (hp : ys.Perm xs) :
    GoesBy less key ys :=
  fun a ha b hb => h a (hp.mem_iff.mp ha) b (hp.mem_iff.mp hb)

/-- A row ends where two neighbours are not in the relation that the comparison decides. -/
theorem exists_splitRow {f : α → α → Except ε Bool} {R : α → α → Prop} [DecidableRel R]
    (last : α) (xs : List α)
    (h : ∀ a ∈ last :: xs, ∀ b ∈ last :: xs, f a b = .ok (decide (R a b))) :
    ∃ row rest, splitRow f last xs = .ok (row, rest) ∧ xs = row ++ rest ∧
      (last :: row).IsChain R := by
  induction xs generalizing last with
  | nil => exact ⟨[], [], rfl, rfl, .singleton last⟩
  | cons next xs ih =>
      have hnext := h last List.mem_cons_self next (by simp)
      by_cases hr : R last next
      · obtain ⟨row, rest, hs, rfl, hchain⟩ := ih next fun a ha b hb =>
          h a (List.mem_cons_of_mem _ ha) b (List.mem_cons_of_mem _ hb)
        refine ⟨next :: row, rest, ?_, rfl, .cons_cons hr hchain⟩
        simp [splitRow, hnext, hr, hs, bind, Except.bind, pure, Except.pure]
      · refine ⟨[], next :: xs, ?_, rfl, .singleton last⟩
        simp [splitRow, hnext, hr, bind, Except.bind, pure, Except.pure]

/-- An element of a sorted list parts it into those that are not greater and those that are not
less. -/
theorem Sorted.parts (hs : Sorted key sorted) {middle : Nat} (hm : middle < sorted.length) :
    (∀ y ∈ sorted.take (middle + 1), key y ≤ key sorted[middle]) ∧
      ∀ y ∈ sorted.drop middle, key sorted[middle] ≤ key y := by
  have hsplit : sorted.take middle ++ sorted[middle] :: sorted.drop (middle + 1) = sorted := by
    rw [← List.drop_eq_getElem_cons hm, List.take_append_drop]
  have hpair := hs
  rw [Sorted, ← hsplit, List.pairwise_append, List.pairwise_cons] at hpair
  obtain ⟨-, ⟨hafter, -⟩, hbefore⟩ := hpair
  constructor
  · intro y hy
    rw [List.take_succ_eq_append_getElem hm, List.mem_append, List.mem_singleton] at hy
    rcases hy with hy | rfl
    · exact hbefore y hy _ List.mem_cons_self
    · exact Int.le_refl _
  · intro y hy
    rw [List.drop_eq_getElem_cons hm, List.mem_cons] at hy
    rcases hy with rfl | hy
    · exact Int.le_refl _
    · exact hafter y hy

theorem exists_place (hs : Sorted key sorted) (h : GoesBy less key (x :: sorted)) (low high : Nat)
    (hle : low ≤ high) (hlength : high ≤ sorted.length)
    (hlow : ∀ y ∈ sorted.take low, key y ≤ key x)
    (hhigh : ∀ y ∈ sorted.drop high, key x ≤ key y) :
    ∃ i, place less x sorted low high = .ok i ∧ (∀ y ∈ sorted.take i, key y ≤ key x) ∧
      ∀ y ∈ sorted.drop i, key x ≤ key y := by
  fun_induction place less x sorted low high with
  | case1 low high hlt middle hnone =>
      rw [List.getElem?_eq_none_iff] at hnone
      omega
  | case2 low high hlt middle y hy ihlow ihhigh =>
      obtain ⟨hm, rfl⟩ := List.getElem?_eq_some_iff.mp hy
      obtain ⟨hbefore, hafter⟩ := hs.parts hm
      rw [h x List.mem_cons_self _ (List.mem_cons_of_mem _ (List.getElem_mem hm))]
      by_cases hx : key x < key sorted[middle]
      · simp only [hx, decide_true, bind, Except.bind, if_true]
        exact ihlow (by omega) (by omega) hlow fun y hy =>
          Int.le_trans (Int.le_of_lt hx) (hafter y hy)
      · simp only [hx, decide_false, bind, Except.bind, Bool.false_eq_true, if_false]
        exact ihhigh (by omega) hlength (fun y hy =>
          Int.le_trans (hbefore y hy) (Int.not_lt.mp hx)) hhigh
  | case3 low high hlt =>
      obtain rfl : low = high := by omega
      exact ⟨low, rfl, hlow, hhigh⟩

theorem sorted_insert {i : Nat} (hs : Sorted key sorted) (hlow : ∀ y ∈ sorted.take i, key y ≤ key x)
    (hhigh : ∀ y ∈ sorted.drop i, key x ≤ key y) :
    Sorted key (sorted.take i ++ x :: sorted.drop i) := by
  have hpair := hs
  rw [Sorted, ← List.take_append_drop i sorted, List.pairwise_append] at hpair
  obtain ⟨htake, hdrop, -⟩ := hpair
  refine List.pairwise_append.mpr ⟨htake, List.pairwise_cons.mpr ⟨hhigh, hdrop⟩, ?_⟩
  intro a ha b hb
  rcases List.mem_cons.mp hb with rfl | hb
  · exact hlow a ha
  · exact Int.le_trans (hlow a ha) (hhigh b hb)

theorem exists_insertAll (hs : Sorted key sorted) (h : GoesBy less key (xs ++ sorted)) :
    ∃ all, insertAll less sorted xs = .ok all ∧ all.Perm (xs ++ sorted) ∧ Sorted key all := by
  induction xs generalizing sorted with
  | nil => exact ⟨sorted, rfl, .refl _, hs⟩
  | cons x xs ih =>
      have hx : GoesBy less key (x :: sorted) := fun a ha b hb =>
        h a (by simp_all; tauto) b (by simp_all; tauto)
      obtain ⟨i, hi, hlow, hhigh⟩ :=
        exists_place hs hx 0 sorted.length (Nat.zero_le _) (Nat.le_refl _) (by simp) (by simp)
      have hp : (xs ++ (sorted.take i ++ x :: sorted.drop i)).Perm (x :: xs ++ sorted) := by
        have hinsert : (sorted.take i ++ x :: sorted.drop i).Perm
            (x :: (sorted.take i ++ sorted.drop i)) := List.perm_middle
        rw [List.take_append_drop] at hinsert
        exact (hinsert.append_left xs).trans List.perm_middle
      obtain ⟨all, ha, hperm, hall⟩ := ih (sorted_insert hs hlow hhigh) (h.of_perm hp)
      exact ⟨all, by simp [insertAll, hi, ha, bind, Except.bind], hperm.trans hp, hall⟩

theorem sorted_of_ascending (h : xs.IsChain fun a b => key a ≤ key b) : Sorted key xs := by
  have : IsTrans α fun a b => key a ≤ key b := ⟨fun _ _ _ => Int.le_trans⟩
  exact List.isChain_iff_pairwise.mp h

theorem sorted_reverse_of_descending (h : xs.IsChain fun a b => key b < key a) :
    Sorted key xs.reverse := by
  have : IsTrans α fun a b => key b < key a := ⟨fun _ _ _ hab hbc => Int.lt_trans hbc hab⟩
  exact List.pairwise_reverse.mpr ((List.isChain_iff_pairwise.mp h).imp Int.le_of_lt)

/-- Sorting never fails, keeps all elements and puts them in order. -/
theorem exists_sort (h : GoesBy less key xs) :
    ∃ all, sort less xs = .ok all ∧ all.Perm xs ∧ Sorted key all := by
  match xs, h with
  | [], _ => exact ⟨[], rfl, .refl _, .nil⟩
  | [x], _ => exact ⟨[x], rfl, .refl _, List.pairwise_singleton _ _⟩
  | x :: y :: rest, h =>
      have hfirst : less y x = .ok (decide (key y < key x)) := h y (by simp) x (by simp)
      by_cases hxy : key y < key x
      · obtain ⟨row, tail, hrow, rfl, hchain⟩ :=
          exists_splitRow (R := fun a b => key b < key a) y rest fun a ha b hb =>
            h b (List.mem_cons_of_mem _ hb) a (List.mem_cons_of_mem _ ha)
        have hsorted := sorted_reverse_of_descending (hchain.cons_cons hxy)
        have hp : (tail ++ (x :: y :: row).reverse).Perm (x :: y :: (row ++ tail)) :=
          ((List.reverse_perm _).append_left tail).trans List.perm_append_comm
        obtain ⟨all, ha, hperm, hall⟩ := exists_insertAll hsorted (h.of_perm hp)
        refine ⟨all, ?_, hperm.trans hp, hall⟩
        simp only [sort, hfirst, hxy, hrow, decide_true, bind, Except.bind, if_true]
        exact ha
      · obtain ⟨row, tail, hrow, rfl, hchain⟩ :=
          exists_splitRow (R := fun a b => key a ≤ key b)
            (f := fun a b => (less b a).map (!·)) y rest fun a ha b hb => by
              have hnot : (!decide (key b < key a)) = decide (key a ≤ key b) :=
                decide_not.symm.trans (decide_eq_decide.mpr Int.not_lt)
              rw [h b (List.mem_cons_of_mem _ hb) a (List.mem_cons_of_mem _ ha), ← hnot]
              rfl
        have hsorted := sorted_of_ascending (hchain.cons_cons (Int.not_lt.mp hxy))
        have hp : (tail ++ x :: y :: row).Perm (x :: y :: (row ++ tail)) :=
          List.perm_append_comm
        obtain ⟨all, ha, hperm, hall⟩ := exists_insertAll hsorted (h.of_perm hp)
        refine ⟨all, ?_, hperm.trans hp, hall⟩
        simp only [sort, hfirst, hxy, hrow, decide_false, bind, Except.bind, Bool.false_eq_true,
          if_false]
        exact ha

/-! ## The greatest first -/

theorem descending_trans (key : α → Int) (a b c : α) (hab : decide (key b ≤ key a) = true)
    (hbc : decide (key c ≤ key b) = true) : decide (key c ≤ key a) = true :=
  decide_eq_true (Int.le_trans (of_decide_eq_true hbc) (of_decide_eq_true hab))

theorem descending_total (key : α → Int) (a b : α) :
    (decide (key b ≤ key a) || decide (key a ≤ key b)) = true := by
  simpa using Int.le_total (key b) (key a)

theorem pairwise_descending (key : α → Int) (xs : List α) :
    (xs.mergeSort fun a b => key b ≤ key a).Pairwise fun a b => key b ≤ key a :=
  (List.pairwise_mergeSort (descending_trans key) (descending_total key) xs).imp of_decide_eq_true

/-- Elements of one key stay in their order. -/
theorem filter_descending (key : α → Int) (xs : List α) (n : Int) :
    (xs.mergeSort fun a b => key b ≤ key a).filter (key · = n) = xs.filter (key · = n) := by
  have hsame : ∀ x ∈ xs.filter (key · = n), key x = n :=
    fun x hm => of_decide_eq_true (List.mem_filter.mp hm).2
  -- they are in order as they are, so sorting keeps them as a sublist
  have horder : (xs.filter (key · = n)).Pairwise fun a b => decide (key b ≤ key a) = true :=
    List.pairwise_of_forall_mem_list fun a ha b hb =>
      decide_eq_true (Int.le_of_eq ((hsame b hb).trans (hsame a ha).symm))
  have hkept := (List.sublist_mergeSort (descending_trans key) (descending_total key) horder
    List.filter_sublist).filter (key · = n)
  rw [List.filter_eq_self.mpr fun x hm => decide_eq_true (hsame x hm)] at hkept
  have hlength := ((List.mergeSort_perm xs fun a b => key b ≤ key a).filter (key · = n)).length_eq
  exact (hkept.eq_of_length_le (Nat.le_of_eq hlength)).symm

end Sitewright.Sorting
