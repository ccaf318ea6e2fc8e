import Sitewright.Proofs.Dictionary
import Sitewright.Proofs.Outcome
import Sitewright.Template.Library

/-!
# Templates that can be filled in

A template can be filled in when the context holds everything that it shows. Each template of the
library is found by its path.
-/

namespace Sitewright.Template

variable {context : Fields} {path : String} {template : Template}

mutual

/-- What the part shows is there, a text where its lines are set further in, a list where it
loops. -/
def Part.Finds (context : Fields) : Part → Prop
  | .text _ => True
  | .plain expr => ∃ value, expr.eval context = .ok value
  | .literal expr => ∃ value, expr.eval context = .ok value
  | .indented _ expr => ∃ text, expr.eval context = .ok (.string text)
  | .each item list body =>
      ∃ items, Expr.eval context (.var list) = .ok (.array items) ∧
        ∀ value ∈ items, FindsAll ((item, value) :: context) body

def FindsAll (context : Fields) : List Part → Prop
  | [] => True
  | part :: parts => part.Finds context ∧ FindsAll context parts

end

mutual

theorem Part.exists_render (context : Fields) : (part : Part) → part.Finds context →
    ∃ text, part.render context = .ok text
  | .text content, _ => ⟨content, rfl⟩
  | .plain expr, ⟨value, hv⟩ =>
      ⟨value.display, by simp [Part.render, Expr.value, hv, Except.mapError, Except.map]⟩
  | .literal expr, ⟨value, hv⟩ => ⟨value.htmlSafe, by simp [Part.render, hv]⟩
  | .indented width expr, ⟨text, ht⟩ =>
      ⟨String.ofList (Text.indent width text.toList), by
        simp [Part.render, Expr.value, ht, Json.indented, Except.mapError, Except.bind]⟩
  | .each item list body, ⟨items, hi, hb⟩ => by
      obtain ⟨texts, ht⟩ := Outcome.exists_mapM_eq_ok fun value hm =>
        exists_renderParts ((item, value) :: context) body (hb value hm)
      refine ⟨String.join texts, ?_⟩
      simp [Part.render, Expr.value, hi, Json.elements, ht, Except.mapError, Except.bind,
        Except.map]

theorem exists_renderParts (context : Fields) : (parts : List Part) → FindsAll context parts →
    ∃ text, renderParts context parts = .ok text
  | [], _ => ⟨"", rfl⟩
  | part :: parts, ⟨hp, hr⟩ => by
      obtain ⟨text, ht⟩ := Part.exists_render context part hp
      obtain ⟨rest, hrest⟩ := exists_renderParts context parts hr
      exact ⟨text ++ rest, by simp [renderParts, ht, hrest, Except.map]⟩

end

theorem eval_var {name : String} {value : Json} (h : Dict.get? context name = some value) :
    Expr.eval context (.var name) = .ok value := by
  simp only [Expr.eval, h]

theorem eval_attribute {owner name : String} {fields : Fields} {value : Json}
    (ho : Dict.get? context owner = some (.object fields))
    (hn : Dict.get? fields name = some value) :
    Expr.eval context (.attribute owner name) = .ok value := by
  simp only [Expr.eval, ho, hn]

theorem render_each {item list : String} {body : List Part} {values : List Json}
    {texts : List String} (hl : Dict.get? context list = some (.array values))
    (ht : values.mapM (fun value => renderParts ((item, value) :: context) body) = .ok texts) :
    (Part.each item list body).render context = .ok (String.join texts) := by
  simp [Part.render, Expr.value, eval_var hl, Json.elements, ht, Except.map, Except.mapError,
    Except.bind]

theorem render_indented {name text : String} (h : Dict.get? context name = some (.string text))
    (width : Nat) : (Part.indented width (.var name)).render context =
      .ok (String.ofList (Text.indent width text.toList)) := by
  simp [Part.render, Expr.value, eval_var h, Json.indented, Except.mapError, Except.bind]

def Part.isText : Part → Bool
  | .text _ => true
  | _ => false

theorem findsAll_of_all_isText (h : template.all Part.isText = true) :
    FindsAll context template := by
  induction template with
  | nil => trivial
  | cons part parts ih =>
      rw [List.all_cons, Bool.and_eq_true] at h
      cases part with
      | text content => exact ⟨trivial, ih h.2⟩
      | _ => cases h.1

/-! ## The library -/

/-- The paths of the library are as short as they can be. -/
theorem intercalate_pathParts : ∀ path ∈ Dict.keys library,
    (pathParts path).contains ".." = false ∧ "/".intercalate (pathParts path) = path := by
  decide +kernel

theorem nodup_keys_library : (Dict.keys library).Nodup := by
  decide +kernel

theorem find?_of_mem (h : (path, template) ∈ library) : find? path = some template := by
  have hk : path ∈ Dict.keys library := List.mem_map_of_mem h
  obtain ⟨hup, hp⟩ := intercalate_pathParts path hk
  rw [find?, hup, hp]
  exact Dict.get?_of_mem nodup_keys_library h

theorem renderAt_of_mem (h : (path, template) ∈ library) (context : Fields) :
    renderAt path context = template.render context := by
  rw [renderAt, find?_of_mem h]

theorem exists_renderAt (h : (path, template) ∈ library) (hf : FindsAll context template) :
    ∃ text, renderAt path context = .ok text := by
  obtain ⟨text, ht⟩ := exists_renderParts context template hf
  exact ⟨text, (renderAt_of_mem h context).trans ht⟩

def fixedPaths : List String :=
  Dict.keys (library.filter fun entry => entry.2.all Part.isText)

theorem exists_renderAt_of_fixed (h : path ∈ fixedPaths) (context : Fields) :
    ∃ text, renderAt path context = .ok text := by
  obtain ⟨entry, hm, rfl⟩ := List.mem_map.mp h
  obtain ⟨hl, hf⟩ := List.mem_filter.mp hm
  exact exists_renderAt hl (findsAll_of_all_isText hf)

end Sitewright.Template
