import Sitewright.Proofs.Dispatch

/-!
# Reading a dispatcher

`codeFor` reads the text of a dispatcher the way it runs: it goes through the lines and keeps those
of the first block whose test names the type, or those outside the blocks if there is none. What it
finds is the fragment for that type, whatever the registry and whatever the type.
-/

namespace Sitewright

open Template

namespace Dispatch

/-- Where a reader of a dispatcher is: outside the blocks, or behind a test that failed or held. -/
inductive Place where
  | outside
  | passing
  | chosen

def isOpening (line : List Char) : Bool :=
  "  if (type === \"".toList.isPrefixOf line

/-- The lines that a section of the type runs through, set back to where its fragment has them. -/
def run (type : String) : Place → List (List Char) → List (List Char)
  | _, [] => []
  | .outside, line :: rest =>
      if line = opening type then run type .chosen rest
      else if isOpening line then run type .passing rest
      else line.drop 2 :: run type .outside rest
  | .passing, line :: rest =>
      if line = closing then run type .outside rest else run type .passing rest
  | .chosen, line :: rest =>
      if line = closing then [] else line.drop 4 :: run type .chosen rest

/-- The code that a dispatcher has for the type, without the bare lines between the blocks. -/
def codeFor (text type : String) : String :=
  let inside := ((text.toList.splitOn '\n').drop head.length).dropLast
  String.ofList (Text.joinLines ((run type .outside inside).dropWhile List.isEmpty))

/-- The first branch for the type decides, otherwise the generic code. -/
def select (branches : List Branch) (generic type : String) : String :=
  ((branches.find? (·.kind.name = type)).map Branch.body).getD generic

variable {type : String} {branches : List Branch} {generic : String}

theorem opening_injective {type other : String} (h : opening type = opening other) :
    type = other := by
  unfold opening at h
  exact String.toList_injective (List.append_cancel_left (List.append_cancel_right h))

theorem isOpening_opening (type : String) : isOpening (opening type) = true := by
  unfold isOpening opening
  rw [List.append_assoc, List.isPrefixOf_iff_prefix]
  exact List.prefix_append _ _

/-- Code that stands four blanks further in is not taken for the end of a block. -/
theorem setIn_ne_closing (line : List Char) : Text.setIn 4 line ≠ closing := by
  intro h
  have hclosing : closing = [' ', ' ', '\x7d'] := by decide
  rw [hclosing] at h
  cases line with
  | nil => cases h
  | cons c rest => cases h

theorem run_passing (texts rest : List (List Char)) :
    run type .passing (texts.map (Text.setIn 4) ++ closing :: rest) = run type .outside rest := by
  induction texts with
  | nil => rw [List.map_nil, List.nil_append, run, if_pos rfl]
  | cons line texts ih =>
      rw [List.map_cons, List.cons_append, run, if_neg (setIn_ne_closing line), ih]

theorem run_chosen (texts rest : List (List Char)) :
    run type .chosen (texts.map (Text.setIn 4) ++ closing :: rest) = texts := by
  induction texts with
  | nil => rw [List.map_nil, List.nil_append, run, if_pos rfl]
  | cons line texts ih =>
      rw [List.map_cons, List.cons_append, run, if_neg (setIn_ne_closing line), ih,
        Text.drop_setIn]

theorem run_outside {texts : List (List Char)}
    (h : ∀ line ∈ texts, isOpening (Text.setIn 2 line) = false) :
    run type .outside (texts.map (Text.setIn 2)) = texts := by
  induction texts with
  | nil => rfl
  | cons line texts ih =>
      obtain ⟨hline, hrest⟩ := List.forall_mem_cons.mp h
      have hother : Text.setIn 2 line ≠ opening type := by
        intro he
        rw [he, isOpening_opening] at hline
        cases hline
      rw [List.map_cons, run, if_neg hother, hline, if_neg Bool.false_ne_true, Text.drop_setIn,
        ih hrest]

theorem run_block (branch : Branch) (rest : List (List Char)) :
    run type .outside (block branch ++ rest) =
      [] :: if branch.kind.name = type then branch.body.toList.splitOn '\n'
        else run type .outside rest := by
  have hbare : ([] : List Char) ≠ opening type := by
    intro he
    have := isOpening_opening type
    rw [← he] at this
    cases this
  have hlines : block branch ++ rest =
      [] :: opening branch.kind.name :: (body 4 branch.body ++ closing :: rest) := by
    rw [block, List.append_assoc]
    rfl
  rw [hlines, run, if_neg hbare, if_neg (by decide), body, run]
  by_cases htype : branch.kind.name = type
  · rw [if_pos htype, if_pos (congrArg opening htype), run_chosen, List.drop_nil]
  · have hother : opening branch.kind.name ≠ opening type := fun h => htype (opening_injective h)
    rw [if_neg htype, if_neg hother, if_pos (isOpening_opening _), run_passing, List.drop_nil]

/-! ## The fallback -/

/-- A line of text that is no test, also when it is set further in. -/
def IsPassive (line : String) : Prop :=
  IsLine line ∧ line.toList.head? ≠ some 'i'

theorem isPassive_ofList {text : List Char}
    (h : (text.all (fun c => !Text.isLineEnd c) && text.head? != some 'i') = true) :
    IsPassive (String.ofList text) := by
  rw [Bool.and_eq_true, bne_iff_ne] at h
  refine ⟨isLine_ofList h.1, ?_⟩
  rw [String.toList_ofList]
  exact h.2

theorem isPassive_append {text other : String} (h : IsPassive text) (ho : IsPassive other) :
    IsPassive (text ++ other) := by
  refine ⟨isLine_append h.1 ho.1, ?_⟩
  rw [String.toList_append, List.head?_append]
  cases ht : text.toList.head? with
  | none => exact ho.2
  | some c => exact fun he => h.2 (ht.trans he)

theorem isPassive_generic :
    ∃ texts, Fragment.generic = .ofLines texts ∧ ∀ line ∈ texts, IsPassive line := by
  refine ⟨_, rfl, ?_⟩
  repeat' with_reducible first
    | refine List.forall_mem_cons.mpr ⟨?_, ?_⟩
    | refine isPassive_append ?_ ?_
    | refine isPassive_ofList (by decide)
    | exact List.forall_mem_nil _

theorem isOpening_setIn {line : List Char} (h : line.head? ≠ some 'i') :
    isOpening (Text.setIn 2 line) = false := by
  have htest : "  if (type === \"".toList = ' ' :: ' ' :: 'i' :: "f (type === \"".toList := by
    decide
  by_contra hopen
  rw [Bool.not_eq_false] at hopen
  unfold isOpening at hopen
  rw [List.isPrefixOf_iff_prefix, htest] at hopen
  cases line with
  | nil => simp [Text.setIn] at hopen
  | cons c rest =>
      simp only [Text.setIn, List.isEmpty_cons, Bool.false_eq_true, if_false, List.replicate,
        List.cons_append, List.nil_append, List.cons_prefix_cons] at hopen
      exact h (congrArg some hopen.2.2.1.symm)

/-- The code for the types without a branch asks for no type. -/
theorem isOpening_of_fallback (h : Registry.fallback = .ok generic) :
    ∀ line ∈ generic.toList.splitOn '\n', isOpening (Text.setIn 2 line) = false := by
  obtain ⟨texts, htexts, hpassive⟩ := isPassive_generic
  have hlines := lineFeed_not_mem_toList fun text ht => (hpassive text ht).1
  have hm : (genericPath, Fragment.generic) ∈ library := by simp [library, genericPath]
  obtain ⟨source, hs, rfl⟩ := Outcome.map_eq_ok_iff.mp h
  rw [renderAt_of_mem hm, htexts, render_ofLines] at hs
  cases hs
  intro line hline
  rw [trimLineFeeds, String.toList_ofList] at hline
  have hsource := Text.mem_splitOn_of_dropEndWhile hline
  rw [toList_join_lines, Text.splitOn_unlines hlines] at hsource
  apply isOpening_setIn
  rcases List.mem_append.mp hsource with hline | hline
  · obtain ⟨text, ht, rfl⟩ := List.mem_map.mp hline
    exact (hpassive text ht).2
  · rw [List.mem_singleton.mp hline]
    exact (Option.some_ne_none 'i').symm

/-! ## The code for a type -/

theorem run_branches (h : ∀ branch ∈ branches, Text.Plain branch.body.toList)
    (rest : List (List Char)) :
    (run type .outside (branches.flatMap block ++ rest)).dropWhile List.isEmpty =
      (((branches.find? (·.kind.name = type)).map fun branch =>
        branch.body.toList.splitOn '\n').getD
          ((run type .outside rest).dropWhile List.isEmpty)) := by
  induction branches with
  | nil => rfl
  | cons branch branches ih =>
      obtain ⟨hbranch, hrest⟩ := List.forall_mem_cons.mp h
      rw [List.flatMap_cons, List.append_assoc, run_block, List.dropWhile_cons_of_pos rfl]
      by_cases htype : branch.kind.name = type
      · obtain ⟨first, code, hcode, hfirst⟩ := hbranch.splitOn
        rw [if_pos htype, List.find?_cons_of_pos (by simpa using htype), hcode,
          List.dropWhile_cons_of_neg (by rw [hfirst]; exact Bool.false_ne_true)]
        exact hcode.symm
      · rw [if_neg htype, List.find?_cons_of_neg (by simpa using htype), ih hrest]

theorem isLine_head : ∀ line ∈ head, IsLine line := by
  unfold head
  repeat' with_reducible first
    | refine List.forall_mem_cons.mpr ⟨?_, ?_⟩
    | refine isLine_ofList (by decide)
    | exact List.forall_mem_nil _

theorem lineFeed_not_mem_opening (kind : SectionKind) : '\n' ∉ opening kind.name := by
  cases kind <;> decide

theorem lineFeed_not_mem_body {width : Nat} {code : String} :
    ∀ line ∈ body width code, '\n' ∉ line := by
  intro line hm
  obtain ⟨source, hs, rfl⟩ := List.mem_map.mp hm
  exact Text.lineFeed_not_mem_setIn (Text.lineFeed_not_mem hs)

theorem lineFeed_not_mem_lines (branches : List Branch) (generic : String) :
    ∀ line ∈ lines branches generic, '\n' ∉ line := by
  have hblocks : ∀ line ∈ branches.flatMap block, '\n' ∉ line := by
    intro line hm
    obtain ⟨branch, -, hm⟩ := List.mem_flatMap.mp hm
    simp only [block, List.mem_append, List.mem_cons, List.not_mem_nil, or_false] at hm
    rcases hm with ((rfl | rfl) | hm) | rfl
    · exact List.not_mem_nil
    · exact lineFeed_not_mem_opening branch.kind
    · exact lineFeed_not_mem_body line hm
    · decide
  intro line hm
  simp only [lines, List.mem_append, List.mem_singleton] at hm
  rcases hm with (((hm | hm) | rfl) | hm) | rfl
  · exact lineFeed_not_mem_toList isLine_head line hm
  · exact hblocks line hm
  · exact List.not_mem_nil
  · exact lineFeed_not_mem_body line hm
  · decide

theorem codeFor_eq_select {text : String}
    (hb : ∀ branch ∈ branches, Text.Plain branch.body.toList)
    (hg : Registry.fallback = .ok generic)
    (ht : text.toList = Text.joinLines (lines branches generic)) (type : String) :
    codeFor text type = select branches generic type := by
  have hsplit : text.toList.splitOn '\n' = lines branches generic := by
    rw [ht, Text.splitOn_joinLines (by simp [lines]) (lineFeed_not_mem_lines branches generic)]
  have hinside : ((lines branches generic).drop head.length).dropLast =
      branches.flatMap block ++ ([] :: generic.toList.splitOn '\n').map (Text.setIn 2) := by
    rw [lines, List.append_assoc, List.append_assoc, List.append_assoc,
      List.drop_left' (List.length_map ..), ← List.append_assoc, ← List.append_assoc,
      List.dropLast_concat]
    exact List.append_assoc ..
  have hfallback : run type .outside (([] :: generic.toList.splitOn '\n').map (Text.setIn 2)) =
      [] :: generic.toList.splitOn '\n' :=
    run_outside (List.forall_mem_cons.mpr ⟨by decide, isOpening_of_fallback hg⟩)
  obtain ⟨first, rest, hgeneric, hfirst⟩ := (Registry.plain_of_fallback hg).splitOn
  have hbare : (([] :: generic.toList.splitOn '\n').dropWhile List.isEmpty) =
      generic.toList.splitOn '\n' := by
    rw [List.dropWhile_cons_of_pos rfl, hgeneric,
      List.dropWhile_cons_of_neg (by rw [hfirst]; exact Bool.false_ne_true)]
  rw [codeFor, hsplit, hinside, run_branches hb, hfallback, hbare, select]
  cases branches.find? (·.kind.name = type) with
  | none =>
      rw [Option.map_none, Option.map_none, Option.getD_none, Option.getD_none,
        Text.joinLines_splitOn, String.ofList_toList]
  | some branch =>
      rw [Option.map_some, Option.map_some, Option.getD_some, Option.getD_some,
        Text.joinLines_splitOn, String.ofList_toList]

end Dispatch

theorem SectionKind.name_of_ofName? {kind : SectionKind} {type : String}
    (h : SectionKind.ofName? type = some kind) : kind.name = type := by
  simpa using List.find?_some h

namespace Registry

variable {registry : Registry} {coverage : Coverage} {branches : List Branch}
  {generic type : String}

/-- What has no kind of its own, or not on a page of this coverage, has the generic fragment. -/
theorem fragmentPath_eq_genericPath (h : SectionKind.ofName? type = none ∨
    coverage = .degraded ∧ type ≠ SectionKind.hero.name) :
    registry.fragmentPath coverage type = genericPath := by
  rw [fragmentPath]
  rcases h with hnone | ⟨rfl, hhero⟩
  · rw [hnone]
  · cases hk : SectionKind.ofName? type with
    | none => rfl
    | some kind =>
        have hkind : kind ≠ .hero := fun he => hhero (he ▸ (SectionKind.name_of_ofName? hk).symm)
        simp [compactPaths, List.lookup_cons, beq_eq_false_iff_ne.mpr hkind]

theorem name_ne_of_genericPath (hb : registry.branches coverage = .ok branches)
    (h : registry.fragmentPath coverage type = genericPath) :
    ∀ branch ∈ branches, branch.kind.name ≠ type := by
  rintro branch hm rfl
  have hkind : branch.kind ∈ registry.branchKinds coverage :=
    (branches_eq_ok_iff.mp hb).2 ▸ List.mem_map_of_mem hm
  exact mem_branchKinds.mp hkind h

/-- The fragment for a type is the code that the branches have for it. -/
theorem fragment_eq_select (hb : registry.branches coverage = .ok branches)
    (hg : fallback = .ok generic) (type : String) :
    registry.fragment coverage type = .ok (Dispatch.select branches generic type) := by
  rw [Dispatch.select]
  cases hfind : branches.find? (·.kind.name = type) with
  | some branch =>
      have htype : branch.kind.name = type := by simpa using List.find?_some hfind
      rw [← htype]
      exact (branches_eq_ok_iff.mp hb).1 branch (List.mem_of_find?_eq_some hfind)
  | none =>
      by_cases hpath : registry.fragmentPath coverage type = genericPath
      · rw [fragment_eq_fallback hpath]
        exact hg
      · -- A type with a fragment of its own is the name of a kind, and this kind has a branch.
        cases hk : SectionKind.ofName? type with
        | none => exact absurd (fragmentPath_eq_genericPath (.inl hk)) hpath
        | some kind =>
            have htype := SectionKind.name_of_ofName? hk
            have hm : kind ∈ branches.map Branch.kind :=
              (branches_eq_ok_iff.mp hb).2 ▸ mem_branchKinds.mpr (htype ▸ hpath)
            obtain ⟨branch, hbranch, rfl⟩ := List.mem_map.mp hm
            have hnone := List.find?_eq_none.mp hfind branch hbranch
            exact absurd htype (by simpa using hnone)

theorem nodup_kinds (hb : registry.branches coverage = .ok branches) :
    (branches.map Branch.kind).Nodup := by
  rw [(branches_eq_ok_iff.mp hb).2, branchKinds]
  exact List.Nodup.filter _ (by decide)

/-- A dispatcher is its fixed lines, one block for each kind with a fragment of its own in the order
of the kinds, and the generic fragment. Read as it runs it has the fragment of each type, which is
the generic one for a type without a block. It can be written unless the fragment of some kind
cannot. -/
theorem dispatcher_agrees (registry : Registry) (coverage : Coverage) :
    (∀ text, registry.dispatcher coverage = .ok text → ∃ branches generic,
      registry.branches coverage = .ok branches ∧ fallback = .ok generic ∧
      text.toList = Text.joinLines (Dispatch.lines branches generic) ∧
      branches.map Branch.kind = SectionKind.all.filter (fun kind =>
        registry.fragmentPath coverage kind.name != genericPath) ∧
      (branches.map Branch.kind).Nodup ∧
      (∀ type, registry.fragment coverage type = .ok (Dispatch.codeFor text type) ∧
        Dispatch.codeFor text type = Dispatch.select branches generic type) ∧
      ∀ type, (SectionKind.ofName? type = none ∨ coverage = .degraded ∧ type ≠ "hero" ∨
          registry.fragmentPath coverage type = genericPath) →
        (∀ branch ∈ branches, branch.kind.name ≠ type) ∧ Dispatch.codeFor text type = generic) ∧
    ((∃ cause, registry.dispatcher coverage = .error cause) ↔
      ∃ (kind : SectionKind) (cause : Template.Error),
        registry.fragment coverage kind.name = .error cause) := by
  constructor
  · intro text htext
    obtain ⟨branches, generic, hb, hg, ht⟩ := dispatcher_eq_ok_iff.mp htext
    have hcode := Dispatch.codeFor_eq_select (plain_of_branches hb) hg ht
    have hfragment (type : String) :
        registry.fragment coverage type = .ok (Dispatch.codeFor text type) := by
      rw [hcode, fragment_eq_select hb hg]
    refine ⟨branches, generic, hb, hg, ht, (branches_eq_ok_iff.mp hb).2, nodup_kinds hb,
      fun type => ⟨hfragment type, hcode type⟩, ?_⟩
    intro type htype
    have hpath : registry.fragmentPath coverage type = genericPath := by
      rcases htype with hnone | hdegraded | hpath
      · exact fragmentPath_eq_genericPath (.inl hnone)
      · exact fragmentPath_eq_genericPath (.inr hdegraded)
      · exact hpath
    refine ⟨name_ne_of_genericPath hb hpath, ?_⟩
    have hgeneric := (hfragment type).symm.trans ((fragment_eq_fallback hpath).trans hg)
    exact Except.ok.inj hgeneric
  · rw [Outcome.exists_error_iff, exists_dispatcher_iff, not_forall]
    simp only [Outcome.exists_error_iff]

end Registry

end Sitewright
