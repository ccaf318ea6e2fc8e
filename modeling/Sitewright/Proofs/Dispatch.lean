import Sitewright.Proofs.Generation
import Sitewright.Proofs.Template.Plain

/-!
# The text of a dispatcher

A dispatcher is three fixed lines, a block for each branch with the code of its kind, and then the
code for all other types. The code keeps its lines, which are only set further in, because it comes
from fixed templates and so is a plain text.
-/

namespace Sitewright

open Template

namespace Dispatch

def opening (type : String) : List Char :=
  "  if (type === \"".toList ++ type.toList ++ "\") \x7b".toList

def closing : List Char :=
  "  \x7d".toList

def head : List String :=
  ["function renderSection(section: any) \x7b",
   "  const type = section.type;",
   "  const props = section.props || \x7b\x7d;"]

/-- The lines of some code, `width` blanks further in. -/
def body (width : Nat) (code : String) : List (List Char) :=
  (code.toList.splitOn '\n').map (Text.setIn width)

def block (branch : Branch) : List (List Char) :=
  [[], opening branch.kind.name] ++ body 4 branch.body ++ [closing]

def lines (branches : List Branch) (generic : String) : List (List Char) :=
  head.map String.toList ++ branches.flatMap block ++ [[]] ++ body 2 generic ++ ["\x7d".toList]

theorem unlines_body {code : String} (h : Text.Plain code.toList) (width : Nat) :
    Text.unlines (body width code) = Text.indent width code.toList ++ ['\n'] := by
  have hne : body width code ≠ [] := by
    simp [body]
  rw [Text.unlines_eq_joinLines hne, Text.indent_of_plain h]
  rfl

theorem htmlSafe_name (kind : SectionKind) :
    (Json.string kind.name).htmlSafe = "\"" ++ kind.name ++ "\"" := by
  cases kind <;> rfl

def blockText (branch : Branch) : String :=
  "\n  if (type === " ++ (Json.string branch.kind.name).htmlSafe ++ ") \x7b\n" ++
    String.ofList (Text.indent 4 branch.body.toList) ++ "\n  \x7d\n"

theorem toList_blockText {branch : Branch} (h : Text.Plain branch.body.toList) :
    (blockText branch).toList = Text.unlines (block branch) := by
  have hopen : "\n  if (type === ".toList ++ "\"".toList = '\n' :: "  if (type === \"".toList := by
    decide
  have htest : "\"".toList ++ ") \x7b\n".toList = "\") \x7b".toList ++ ['\n'] := by
    decide
  have hclose : "\n  \x7d\n".toList = '\n' :: (closing ++ ['\n']) := by
    decide
  rw [block, Text.unlines_append, Text.unlines_append, unlines_body h]
  unfold blockText opening
  simp only [htmlSafe_name, Text.unlines, String.toList_append, String.toList_ofList, hclose,
    List.flatMap_cons, List.flatMap_nil, List.nil_append, List.append_nil, List.append_assoc]
  rw [← List.append_assoc "\n  if (type === ".toList, hopen,
    ← List.append_assoc "\"".toList ") \x7b\n".toList, htest]
  simp only [List.append_assoc, List.cons_append, List.nil_append]

theorem toList_join_blockText {branches : List Branch}
    (h : ∀ branch ∈ branches, Text.Plain branch.body.toList) :
    (String.join (branches.map blockText)).toList = Text.unlines (branches.flatMap block) := by
  induction branches with
  | nil => rfl
  | cons branch rest ih =>
      obtain ⟨hbranch, hrest⟩ := List.forall_mem_cons.mp h
      rw [List.map_cons, String.join_cons, String.toList_append, toList_blockText hbranch, ih hrest,
        List.flatMap_cons, Text.unlines_append]

def blockParts : List Part :=
  [.text "\n  if (type === ", .literal (.attribute "branch" "kind"), .block [") \x7b"],
   .indented 4 (.attribute "branch" "body"), .block ["", "  \x7d"]]

theorem render_blockParts (context : Fields) (branch : Branch) :
    renderParts (("branch", branch.toJson) :: context) blockParts = .ok (blockText branch) := by
  have hkind : Expr.eval (("branch", branch.toJson) :: context) (.attribute "branch" "kind") =
      .ok (.string branch.kind.name) := eval_attribute rfl rfl
  have hbody : Expr.eval (("branch", branch.toJson) :: context) (.attribute "branch" "body") =
      .ok (.string branch.body) := eval_attribute rfl rfl
  unfold blockText
  simp [blockParts, renderParts, Part.render, Part.block, Expr.value, hkind, hbody, Json.indented,
    Except.map, Except.mapError, Except.bind, String.append_assoc]

/-- The parts of the template, of which all but the loop and the fallback are fixed. -/
theorem dispatcher_parts : Pages.dispatcher =
    [.block head, .each "branch" "branches" blockParts, .text "\n", .indented 2 (.var "fallback"),
     .block ["", "\x7d"]] :=
  rfl

theorem render_dispatcher (branches : List Branch) (generic : String) :
    renderAt dispatcherPath
        [("branches", .array (branches.map Branch.toJson)), ("fallback", .string generic)] =
      .ok (String.join (head.map (· ++ "\n")) ++ (String.join (branches.map blockText) ++ ("\n" ++
        (String.ofList (Text.indent 2 generic.toList) ++ "\n\x7d\n")))) := by
  have hm : (dispatcherPath, Pages.dispatcher) ∈ library := by simp [library, dispatcherPath]
  rw [renderAt_of_mem hm, dispatcher_parts]
  generalize hc : [("branches", Json.array (branches.map Branch.toJson)),
    ("fallback", .string generic)] = context
  have hhead : (Part.block head).render context = .ok (String.join (head.map (· ++ "\n"))) := by
    rw [Part.block, Part.render]
  have hloop : (branches.map Branch.toJson).mapM
      (fun value => renderParts (("branch", value) :: context) blockParts) =
      .ok (branches.map blockText) := by
    rw [List.mapM_map]
    exact Outcome.mapM_eq_ok_map fun branch _ => render_blockParts context branch
  have hblocks : (Part.each "branch" "branches" blockParts).render context =
      .ok (String.join (branches.map blockText)) := render_each (by rw [← hc]; rfl) hloop
  have hfeed : (Part.text "\n").render context = .ok "\n" := by rw [Part.render]
  have hfallback : (Part.indented 2 (.var "fallback")).render context =
      .ok (String.ofList (Text.indent 2 generic.toList)) := render_indented (by rw [← hc]; rfl) 2
  have hend : (Part.block ["", "\x7d"]).render context = .ok "\n\x7d\n" := by
    rw [Part.block, Part.render]
    rfl
  simp only [Template.render, renderParts, hhead, hblocks, hfeed, hfallback, hend, Except.map,
    String.append_empty]

theorem toList_dispatcher {branches : List Branch} {generic text : String}
    (hb : ∀ branch ∈ branches, Text.Plain branch.body.toList) (hg : Text.Plain generic.toList)
    (h : renderAt dispatcherPath [("branches", .array (branches.map Branch.toJson)),
      ("fallback", .string generic)] = .ok text) :
    text.toList = Text.unlines (lines branches generic) := by
  have hclose : "\n\x7d\n".toList = '\n' :: ("\x7d".toList ++ ['\n']) := by decide
  rw [render_dispatcher] at h
  cases h
  simp only [lines, Text.unlines_append, unlines_body hg, Text.unlines_singleton,
    String.toList_append, toList_join_lines, toList_join_blockText hb, String.toList_ofList, hclose]
  simp

end Dispatch

namespace Registry

variable {registry : Registry} {coverage : Coverage} {type text generic : String}
  {branches : List Branch}

theorem fragment_eq_ok_iff : registry.fragment coverage type = .ok text ↔
    ∃ source, renderAt (registry.fragmentPath coverage type) [] = .ok source ∧
      trimLineFeeds source = text :=
  Outcome.map_eq_ok_iff

theorem plain_trimLineFeeds {source : String} (h : Text.Plain source.toList) :
    Text.Plain (trimLineFeeds source).toList := by
  rw [trimLineFeeds, String.toList_ofList]
  exact h.dropEndWhile

theorem plain_of_fragment (h : registry.fragment coverage type = .ok text) :
    Text.Plain text.toList := by
  obtain ⟨source, hs, rfl⟩ := fragment_eq_ok_iff.mp h
  exact plain_trimLineFeeds (plain_of_renderAt_nil hs)

/-- The code for the types without a branch can always be written. -/
theorem exists_fallback : ∃ generic, fallback = .ok generic := by
  obtain ⟨source, hs⟩ := exists_renderAt_of_fixed genericPath_mem_fixedPaths []
  exact ⟨trimLineFeeds source, Outcome.map_eq_ok_iff.mpr ⟨source, hs, rfl⟩⟩

theorem plain_of_fallback (h : fallback = .ok generic) : Text.Plain generic.toList := by
  obtain ⟨source, hs, rfl⟩ := Outcome.map_eq_ok_iff.mp h
  exact plain_trimLineFeeds (plain_of_renderAt_nil hs)

theorem fragment_eq_fallback (h : registry.fragmentPath coverage type = genericPath) :
    registry.fragment coverage type = fallback := by
  rw [fragment, h, fallback]

/-! ## Branches -/

theorem branch_eq_ok_iff {kind : SectionKind} {branch : Branch} :
    registry.branch coverage kind = .ok branch ↔
      registry.fragment coverage branch.kind.name = .ok branch.body ∧ branch.kind = kind := by
  rw [Registry.branch, Outcome.map_eq_ok_iff]
  constructor
  · rintro ⟨body, hbody, rfl⟩
    exact ⟨hbody, rfl⟩
  · rintro ⟨hbody, rfl⟩
    exact ⟨branch.body, hbody, rfl⟩

theorem branches_eq_ok_iff : registry.branches coverage = .ok branches ↔
    (∀ branch ∈ branches, registry.fragment coverage branch.kind.name = .ok branch.body) ∧
      branches.map Branch.kind = registry.branchKinds coverage := by
  have hflip : List.Forall₂ (fun kind branch => registry.branch coverage kind = .ok branch)
        (registry.branchKinds coverage) branches ↔
      List.Forall₂ (fun branch kind =>
        registry.fragment coverage branch.kind.name = .ok branch.body ∧ branch.kind = kind)
        branches (registry.branchKinds coverage) := by
    simp only [branch_eq_ok_iff]
    exact ⟨List.Forall₂.flip, List.Forall₂.flip⟩
  rw [Registry.branches, Outcome.mapM_eq_ok_iff, hflip, List.forall₂_and_left,
    ← List.forall₂_eq_eq_eq, List.forall₂_map_left_iff]

theorem mem_branchKinds {kind : SectionKind} : kind ∈ registry.branchKinds coverage ↔
    registry.fragmentPath coverage kind.name ≠ genericPath := by
  rw [branchKinds, List.mem_filter, bne_iff_ne]
  exact and_iff_right (SectionKind.mem_all kind)

/-- The branches can be written if the code for every kind can. -/
theorem exists_branches_iff : (∃ branches, registry.branches coverage = .ok branches) ↔
    ∀ kind : SectionKind, ∃ text, registry.fragment coverage kind.name = .ok text := by
  constructor
  · rintro ⟨branches, hb⟩ kind
    obtain ⟨hbodies, hkinds⟩ := branches_eq_ok_iff.mp hb
    by_cases hpath : registry.fragmentPath coverage kind.name = genericPath
    · rw [fragment_eq_fallback hpath]
      exact exists_fallback
    · have hm : kind ∈ branches.map Branch.kind := hkinds ▸ mem_branchKinds.mpr hpath
      obtain ⟨branch, hbranch, rfl⟩ := List.mem_map.mp hm
      exact ⟨branch.body, hbodies branch hbranch⟩
  · intro h
    apply Outcome.exists_mapM_eq_ok
    intro kind _
    obtain ⟨text, ht⟩ := h kind
    exact ⟨⟨kind, text⟩, branch_eq_ok_iff.mpr ⟨ht, rfl⟩⟩

/-! ## The dispatcher -/

theorem plain_of_branches (h : registry.branches coverage = .ok branches) :
    ∀ branch ∈ branches, Text.Plain branch.body.toList :=
  fun branch hm => plain_of_fragment ((branches_eq_ok_iff.mp h).1 branch hm)

/-- The text that the template gives ends in a line feed, which is taken off. -/
theorem toList_trimmed {source : String} (hb : ∀ branch ∈ branches, Text.Plain branch.body.toList)
    (hg : Text.Plain generic.toList) (h : renderAt dispatcherPath
      [("branches", .array (branches.map Branch.toJson)), ("fallback", .string generic)] =
        .ok source) :
    (trimLineFeeds source).toList = Text.joinLines (Dispatch.lines branches generic) := by
  rw [trimLineFeeds, String.toList_ofList, Dispatch.toList_dispatcher hb hg h, Dispatch.lines]
  exact Text.dropEndWhile_unlines _ (by decide) (by decide)

theorem dispatcher_eq_ok_iff : registry.dispatcher coverage = .ok text ↔
    ∃ branches generic, registry.branches coverage = .ok branches ∧ fallback = .ok generic ∧
      text.toList = Text.joinLines (Dispatch.lines branches generic) := by
  rw [dispatcher, Outcome.bind_eq_ok_iff]
  constructor
  · rintro ⟨generic, hg, h⟩
    obtain ⟨branches, hb, h⟩ := Outcome.bind_eq_ok_iff.mp h
    obtain ⟨source, hs, rfl⟩ := Outcome.bind_pure_eq_ok_iff.mp h
    exact ⟨branches, generic, hb, hg,
      toList_trimmed (plain_of_branches hb) (plain_of_fallback hg) hs⟩
  · rintro ⟨branches, generic, hb, hg, ht⟩
    have hs := Dispatch.render_dispatcher branches generic
    have hsource := toList_trimmed (plain_of_branches hb) (plain_of_fallback hg) hs
    refine ⟨generic, hg, Outcome.bind_eq_ok_iff.mpr ⟨branches, hb, ?_⟩⟩
    refine Outcome.bind_pure_eq_ok_iff.mpr ⟨_, hs, ?_⟩
    exact String.toList_injective (hsource.trans ht.symm)

theorem exists_dispatcher_iff : (∃ text, registry.dispatcher coverage = .ok text) ↔
    ∀ kind : SectionKind, ∃ text, registry.fragment coverage kind.name = .ok text := by
  simp only [← exists_branches_iff, dispatcher_eq_ok_iff]
  constructor
  · rintro ⟨text, branches, generic, hb, -, -⟩
    exact ⟨branches, hb⟩
  · rintro ⟨branches, hb⟩
    obtain ⟨generic, hg⟩ := exists_fallback
    exact ⟨String.ofList (Text.joinLines (Dispatch.lines branches generic)), branches, generic, hb,
      hg, String.toList_ofList⟩

end Registry

end Sitewright
