import Mathlib.Data.List.DropRight
import Sitewright.Text.Basic

/-!
# Runs of characters

The runs of a text are its longest pieces made of characters with some property, in their order.
`HasRuns` says what they are, `runs` finds them by cutting the text at all other characters. What
matters of those characters is only where they stand: they can be trimmed, repeated or replaced by
one another, and texts joined by one of them have the runs of all these texts.
-/

namespace Sitewright.Text

/-- The runs of a text one after another. A run is as long as it can be: it stands at the start or
behind a gap, and where it ends the text ends too or goes on with a gap. -/
inductive HasRuns (p : Char → Bool) : List Char → List (List Char) → Prop
  | gap {gap : List Char} (outside : ∀ c ∈ gap, p c = false) : HasRuns p gap []
  | run {gap run rest : List Char} {later : List (List Char)} (outside : ∀ c ∈ gap, p c = false)
      (nonempty : run ≠ []) (within : ∀ c ∈ run, p c = true)
      (ends : ∀ c ∈ rest.head?, p c = false) (behind : HasRuns p rest later) :
      HasRuns p (gap ++ (run ++ rest)) (run :: later)

def runs (p : Char → Bool) (text : List Char) : List (List Char) :=
  (text.splitOnP fun c => !p c).filter fun run => !run.isEmpty

variable {p : Char → Bool} {text gap run rest : List Char}

/-- The text before and the text behind such a character have their runs apart. -/
theorem runs_append_cons {c : Char} (h : p c = false) (front rest : List Char) :
    runs p (front ++ c :: rest) = runs p front ++ runs p rest := by
  rw [runs, List.splitOnP_append_cons front rest (by rw [h]; rfl), List.filter_append]
  rfl

theorem runs_of_within (hne : run ≠ []) (h : ∀ c ∈ run, p c = true) : runs p run = [run] := by
  rw [runs, List.splitOnP_eq_singleton fun c hc => by rw [h c hc]; rfl]
  simp [hne]

theorem runs_gap_append (h : ∀ c ∈ gap, p c = false) (text : List Char) :
    runs p (gap ++ text) = runs p text := by
  induction gap with
  | nil => rfl
  | cons c gap ih =>
      obtain ⟨hc, hgap⟩ := List.forall_mem_cons.mp h
      exact (runs_append_cons hc [] (gap ++ text)).trans (ih hgap)

theorem runs_of_outside (h : ∀ c ∈ gap, p c = false) : runs p gap = [] := by
  have hnone := runs_gap_append h []
  rwa [List.append_nil] at hnone

theorem runs_append_gap (h : ∀ c ∈ gap, p c = false) (text : List Char) :
    runs p (text ++ gap) = runs p text := by
  cases gap with
  | nil => rw [List.append_nil]
  | cons c gap =>
      obtain ⟨hc, hgap⟩ := List.forall_mem_cons.mp h
      rw [runs_append_cons hc, runs_of_outside hgap, List.append_nil]

theorem runs_run_append (hne : run ≠ []) (h : ∀ c ∈ run, p c = true)
    (hends : ∀ c ∈ rest.head?, p c = false) : runs p (run ++ rest) = run :: runs p rest := by
  cases rest with
  | nil => rw [List.append_nil, runs_of_within hne h]; rfl
  | cons c rest =>
      have hc : p c = false := hends c rfl
      rw [runs_append_cons hc, runs_of_within hne h]
      exact congrArg _ (runs_append_cons hc [] rest).symm

/-! ## What the runs are -/

theorem head?_dropWhile_eq_false (p : Char → Bool) (text : List Char) :
    ∀ c ∈ (text.dropWhile p).head?, p c = false := by
  intro c hc
  have hhead := List.head?_dropWhile_not p text
  rwa [Option.mem_def.mp hc] at hhead

theorem hasRuns_runs (p : Char → Bool) (text : List Char) : HasRuns p text (runs p text) := by
  induction hn : text.length using Nat.strongRecOn generalizing text with
  | ind n ih =>
      -- the gap in front, the run behind it, and the rest
      have hgap : ∀ c ∈ text.takeWhile (!p ·), p c = false := fun c hc => by
        simpa using List.mem_takeWhile_imp hc
      have htext : text.takeWhile (!p ·) ++ text.dropWhile (!p ·) = text :=
        List.takeWhile_append_dropWhile
      cases hd : text.dropWhile (!p ·) with
      | nil =>
          rw [hd, List.append_nil] at htext
          rw [htext] at hgap
          rw [runs_of_outside hgap]
          exact .gap hgap
      | cons c tail =>
          have hc : p c = true := by
            simpa using head?_dropWhile_eq_false (!p ·) text c (by simp [hd])
          have hcut : (c :: tail).takeWhile p ++ (c :: tail).dropWhile p = c :: tail :=
            List.takeWhile_append_dropWhile
          have hne : (c :: tail).takeWhile p ≠ [] := by simp [hc]
          have hwithin : ∀ d ∈ (c :: tail).takeWhile p, p d = true := fun d hd =>
            List.mem_takeWhile_imp hd
          have hends := head?_dropWhile_eq_false p (c :: tail)
          have hshort : ((c :: tail).dropWhile p).length < n := by
            have hlen := congrArg List.length htext
            rw [hd, List.length_append, List.length_cons] at hlen
            have hle := List.length_dropWhile_le p tail
            rw [List.dropWhile_cons_of_pos hc]
            omega
          rw [← htext, hd, runs_gap_append hgap, ← hcut, runs_run_append hne hwithin hends]
          exact .run hgap hne hwithin hends (ih _ hshort _ rfl)

/-- A text has one list of runs. -/
theorem hasRuns_iff {found : List (List Char)} : HasRuns p text found ↔ found = runs p text := by
  constructor
  · intro h
    induction h with
    | gap outside => exact (runs_of_outside outside).symm
    | run outside nonempty within ends behind ih =>
        rw [runs_gap_append outside, runs_run_append nonempty within ends, ih]
  · rintro rfl
    exact hasRuns_runs p text

theorem HasRuns.mem {found : List (List Char)} (h : HasRuns p text found) :
    ∀ run ∈ found, run ≠ [] ∧ ∀ c ∈ run, p c = true := by
  induction h with
  | gap outside => exact List.forall_mem_nil _
  | run outside nonempty within ends behind ih =>
      exact List.forall_mem_cons.mpr ⟨⟨nonempty, within⟩, ih⟩

theorem mem_runs (h : run ∈ runs p text) : run ≠ [] ∧ ∀ c ∈ run, p c = true :=
  (hasRuns_runs p text).mem run h

theorem runs_eq_nil_iff : runs p text = [] ↔ ∀ c ∈ text, p c = false := by
  constructor
  · intro h
    have hruns := hasRuns_runs p text
    rw [h] at hruns
    cases hruns with
    | gap outside => exact outside
  · exact runs_of_outside

/-! ## Texts with the same runs -/

theorem exists_trimWhile (q : Char → Bool) (text : List Char) :
    ∃ front back, text = front ++ (trimWhile q text ++ back) ∧ (∀ c ∈ front, q c = true) ∧
      ∀ c ∈ back, q c = true := by
  refine ⟨text.takeWhile q, (text.dropWhile q).rtakeWhile q, ?_, fun c hc =>
    List.mem_takeWhile_imp hc, fun c hc => List.mem_rtakeWhile_imp hc⟩
  have hback : trimWhile q text ++ (text.dropWhile q).rtakeWhile q = text.dropWhile q :=
    List.rdropWhile_append_rtakeWhile
  rw [hback, List.takeWhile_append_dropWhile]

/-- Trimming takes off what stands around a text that neither starts nor ends so. -/
theorem trimWhile_append {q : Char → Bool} {front core back : List Char}
    (hfront : ∀ c ∈ front, q c = true) (hback : ∀ c ∈ back, q c = true)
    (hfirst : ∀ c ∈ core.head?, q c = false) (hlast : ∀ c ∈ core.getLast?, q c = false) :
    trimWhile q (front ++ (core ++ back)) = core := by
  rw [trimWhile, List.dropWhile_append_of_pos hfront]
  cases core with
  | nil =>
      have hnone : back.dropWhile q = [] := List.dropWhile_eq_nil_iff.mpr hback
      rw [List.nil_append, hnone]
      rfl
  | cons c core =>
      have hstays : ((c :: core).reverse).dropWhile q = (c :: core).reverse := by
        cases hr : (c :: core).reverse with
        | nil => rfl
        | cons d rest =>
            have hd : q d = false := hlast d (by simp [← List.head?_reverse, hr])
            exact List.dropWhile_cons_of_neg (by simp [hd])
      have hc : ¬ q c = true := Bool.eq_false_iff.mp (hfirst c rfl)
      rw [List.cons_append, List.dropWhile_cons_of_neg hc, dropEndWhile, ← List.cons_append,
        List.reverse_append, List.dropWhile_append_of_pos (by simpa using hback), hstays,
        List.reverse_reverse]

theorem runs_trimWhile {q : Char → Bool} (h : ∀ c, q c = true → p c = false) (text : List Char) :
    runs p (trimWhile q text) = runs p text := by
  obtain ⟨front, back, htext, hfront, hback⟩ := exists_trimWhile q text
  conv => rhs; rw [htext]
  rw [runs_gap_append fun c hc => h c (hfront c hc), runs_append_gap fun c hc => h c (hback c hc)]

/-- Replacing characters outside of the runs by others that are outside of runs, too. -/
theorem runs_map {f : Char → Char} (hp : ∀ c, p (f c) = p c) (hf : ∀ c, p c = true → f c = c)
    (text : List Char) : runs p (text.map f) = runs p text := by
  have hsplit : (text.map f).splitOnP (fun c => !p c) = text.splitOnP fun c => !p c := by
    induction text with
    | nil => rfl
    | cons c text ih =>
        rw [List.map_cons, List.splitOnP_cons_eq_if_modifyHead, List.splitOnP_cons_eq_if_modifyHead,
          hp, ih]
        cases hc : p c with
        | false => rfl
        | true => rw [hf c hc]
  rw [runs, hsplit, runs]

/-! ## Joined texts -/

theorem intercalate_cons (joint piece : List Char) (pieces : List (List Char)) :
    List.intercalate joint (piece :: pieces) = piece ++ (pieces.map (joint ++ ·)).flatten := by
  induction pieces generalizing piece with
  | nil => rw [List.intercalate_singleton, List.map_nil, List.flatten_nil, List.append_nil]
  | cons next pieces ih =>
      rw [List.intercalate_cons_cons, ih, List.map_cons, List.flatten_cons, List.append_assoc,
        List.append_assoc]

theorem mem_intercalate {joint : List Char} {pieces : List (List Char)} {c : Char}
    (h : c ∈ List.intercalate joint pieces) : c ∈ joint ∨ ∃ piece ∈ pieces, c ∈ piece := by
  cases pieces with
  | nil => cases h
  | cons piece pieces =>
      rw [intercalate_cons, List.mem_append, List.mem_flatten] at h
      rcases h with hc | ⟨later, hl, hc⟩
      · exact .inr ⟨piece, List.mem_cons_self, hc⟩
      · obtain ⟨next, hn, rfl⟩ := List.mem_map.mp hl
        exact (List.mem_append.mp hc).imp_right fun hc =>
          ⟨next, List.mem_cons_of_mem _ hn, hc⟩

theorem exists_intercalate_concat (joint : List Char) {pieces : List (List Char)}
    (h : pieces ≠ []) :
    ∃ front, ∃ piece ∈ pieces, List.intercalate joint pieces = front ++ piece := by
  induction pieces with
  | nil => exact absurd rfl h
  | cons piece pieces ih =>
      cases pieces with
      | nil => exact ⟨[], piece, List.mem_cons_self, List.intercalate_singleton⟩
      | cons next pieces =>
          obtain ⟨front, last, hm, hl⟩ := ih (List.cons_ne_nil next pieces)
          refine ⟨piece ++ joint ++ front, last, List.mem_cons_of_mem _ hm, ?_⟩
          rw [List.intercalate_cons_cons, hl, List.append_assoc _ front]

/-- Joined pieces start and end as pieces do. -/
theorem within_of_intercalate {pieces : List (List Char)}
    (h : ∀ piece ∈ pieces, piece ≠ [] ∧ ∀ c ∈ piece, p c = true) (joint : List Char) :
    (∀ c ∈ (List.intercalate joint pieces).head?, p c = true) ∧
      ∀ c ∈ (List.intercalate joint pieces).getLast?, p c = true := by
  cases pieces with
  | nil => exact ⟨nofun, nofun⟩
  | cons piece pieces =>
      constructor
      · obtain ⟨hne, hpiece⟩ := h piece List.mem_cons_self
        intro c hc
        rw [intercalate_cons, List.head?_append_of_ne_nil _ hne] at hc
        exact hpiece c (List.mem_of_mem_head? hc)
      · obtain ⟨front, last, hm, hl⟩ :=
          exists_intercalate_concat joint (List.cons_ne_nil piece pieces)
        obtain ⟨hne, hlast⟩ := h last hm
        intro c hc
        rw [hl, List.getLast?_append_of_ne_nil _ hne] at hc
        exact hlast c (List.mem_of_mem_getLast? hc)

theorem runs_intercalate {c : Char} (hc : p c = false) {pieces : List (List Char)}
    (h : ∀ piece ∈ pieces, piece ≠ [] ∧ ∀ d ∈ piece, p d = true) :
    runs p (List.intercalate [c] pieces) = pieces := by
  induction pieces with
  | nil => rfl
  | cons piece pieces ih =>
      obtain ⟨⟨hne, hpiece⟩, hrest⟩ := List.forall_mem_cons.mp h
      cases pieces with
      | nil => rw [List.intercalate_singleton, runs_of_within hne hpiece]
      | cons next pieces =>
          rw [List.intercalate_cons_cons, List.append_assoc, List.singleton_append,
            runs_append_cons hc, runs_of_within hne hpiece, ih hrest, List.singleton_append]

end Sitewright.Text
