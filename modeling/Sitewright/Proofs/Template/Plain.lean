import Sitewright.Proofs.Template
import Sitewright.Proofs.Text.Lines

/-!
# Fixed templates are plain texts

A template that can be filled in without any context shows nothing, so it is fixed text. The fixed
templates of the library are lines without any other line boundary, and their first line is never
empty: the texts that they give are plain.
-/

namespace Sitewright.Template

variable {template : Template} {path text : String}

theorem all_isText_of_render_nil (h : template.render [] = .ok text) :
    template.all Part.isText = true := by
  rw [Template.render] at h
  induction template generalizing text with
  | nil => rfl
  | cons part parts ih =>
      rw [renderParts] at h
      cases hp : part.render [] with
      | error cause => rw [hp] at h; cases h
      | ok shown =>
          rw [hp] at h
          obtain ⟨rest, hrest, -⟩ := Outcome.map_eq_ok_iff.mp h
          have hpart : part.isText = true := by
            -- Without a context all parts but fixed text ask for something in vain.
            cases part with
            | text content => rfl
            | plain expr => cases expr <;> cases hp
            | literal expr => cases expr <;> cases hp
            | indented width expr => cases expr <;> cases hp
            | each item list body =>
                simp [Part.render, Expr.value, Expr.eval, Dict.get?, Except.mapError,
                  Except.bind] at hp
          rw [List.all_cons, hpart, ih hrest]
          rfl

def IsLine (line : String) : Prop :=
  Text.IsLine line.toList

theorem lineFeed_not_mem_toList {lines : List String} (h : ∀ line ∈ lines, IsLine line) :
    ∀ line ∈ lines.map String.toList, '\n' ∉ line := by
  intro line hm
  obtain ⟨text, ht, rfl⟩ := List.mem_map.mp hm
  exact (h text ht).lineFeed_not_mem

/-- Fixed lines, each with its line feed, of which the first one is not empty. -/
def IsPlain (template : Template) : Prop :=
  ∃ first rest, template = .ofLines (first :: rest) ∧ first.toList ≠ [] ∧
    ∀ line ∈ first :: rest, IsLine line

theorem render_ofLines (lines : List String) (context : Fields) :
    (Template.ofLines lines).render context = .ok (String.join (lines.map (· ++ "\n"))) := by
  simp [Template.render, ofLines, Part.block, renderParts, Part.render, Except.map]

theorem toList_join_lines (lines : List String) :
    (String.join (lines.map (· ++ "\n"))).toList =
      Text.unlines (lines.map String.toList) := by
  simp [Text.unlines, String.toList_join, List.flatMap_map]

theorem plain_of_isPlain (h : IsPlain template) (hr : template.render [] = .ok text) :
    Text.Plain text.toList := by
  obtain ⟨first, rest, rfl, hne, hlines⟩ := h
  rw [render_ofLines] at hr
  cases hr
  rw [toList_join_lines, List.map_cons]
  apply Text.plain_unlines hne
  intro line hm
  rw [← List.map_cons] at hm
  obtain ⟨source, hsource, rfl⟩ := List.mem_map.mp hm
  exact hlines source hsource

/-! ## The library -/

theorem isLine_ofList {text : List Char} (h : text.all (fun c => !Text.isLineEnd c) = true) :
    IsLine (String.ofList text) := by
  intro c hc
  rw [String.toList_ofList] at hc
  simpa using List.all_eq_true.mp h c hc

theorem isLine_append {text other : String} (h : IsLine text) (ho : IsLine other) :
    IsLine (text ++ other) := by
  intro c hc
  rw [String.toList_append] at hc
  exact (List.mem_append.mp hc).elim (h c) (ho c)

theorem isPlain_ofLines {c : Char} {first : List Char} {rest : List String}
    (h : IsLine (String.ofList (c :: first)))
    (hrest : ∀ line ∈ rest, IsLine line) :
    IsPlain (.ofLines (String.ofList (c :: first) :: rest)) := by
  refine ⟨_, rest, rfl, ?_, List.forall_mem_cons.mpr ⟨h, hrest⟩⟩
  rw [String.toList_ofList]
  exact List.cons_ne_nil c first

set_option maxRecDepth 1024 in
theorem isPlain_of_fixed :
    ∀ entry ∈ library, entry.2.all Part.isText = true → IsPlain entry.2 := by
  rw [library]
  repeat' with_reducible refine List.forall_mem_cons.mpr ⟨fun hfixed => ?_, ?_⟩
  all_goals try cases hfixed
  all_goals try exact List.forall_mem_nil _
  all_goals
    refine isPlain_ofLines (isLine_ofList (by decide)) ?_
    repeat' with_reducible first
      | refine List.forall_mem_cons.mpr ⟨?_, ?_⟩
      | refine isLine_append ?_ ?_
      | refine isLine_ofList (by decide)
      | exact List.forall_mem_nil _

theorem plain_of_renderAt_nil (h : renderAt path [] = .ok text) : Text.Plain text.toList := by
  cases hfind : find? path with
  | none => rw [renderAt, hfind] at h; cases h
  | some template =>
      rw [renderAt, hfind] at h
      rw [find?] at hfind
      split at hfind
      · cases hfind
      · have hm := Dict.mem_of_get? hfind
        exact plain_of_isPlain (isPlain_of_fixed _ hm (all_isText_of_render_nil h)) h

end Sitewright.Template
