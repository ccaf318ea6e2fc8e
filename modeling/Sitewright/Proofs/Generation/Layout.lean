import Sitewright.Proofs.Generation
import Sitewright.Proofs.Json.HtmlSafe
import Sitewright.Text.Basic

/-!
# The name of a site in its layout

The title in the layout of a project is a literal between two fixed texts. Whatever the name of the
site is, the literal reads as the name, and nothing within it is taken for its end.
-/

namespace Sitewright

open Template

namespace Generation

def layoutHead : String :=
  "\"use client\";\n\n" ++
  "import \"./globals.css\";\nimport type \x7b ReactNode \x7d from \"react\";\n\n" ++
  "export default function RootLayout(\x7b children \x7d: \x7b children: ReactNode \x7d) \x7b\n" ++
  "  return (\n    <html lang=\"fr\">\n      <head>\n        <title>\x7b "

def layoutTail : String :=
  " \x7d</title>\n      </head>\n      <body className=\"min-h-screen antialiased\">\n" ++
  "        <main className=\"mx-auto max-w-5xl px-4 py-10\">\x7bchildren\x7d</main>\n" ++
  "      </body>\n    </html>\n  );\n\x7d\n"

/-- A literal among fixed texts. -/
theorem render_literal {context : Fields} {name : String} {value : Json}
    (h : Dict.get? context name = some value) (front lead tail : String) :
    renderParts context [.text front, .text lead, .literal (.var name), .text tail] =
      .ok (front ++ lead ++ value.htmlSafe ++ tail) := by
  simp [renderParts, Part.render, eval_var h, Except.map, String.append_assoc]

theorem renderAt_layout (siteName : String) :
    renderAt "project/app/layout.tsx.j2" [("site_name", .string siteName)] =
      .ok (layoutHead ++ (Json.string siteName).htmlSafe ++ layoutTail) := by
  have hm : ("project/app/layout.tsx.j2", Scaffold.layout) ∈ library := by simp [library]
  rw [renderAt_of_mem hm, Template.render, Scaffold.layout, Part.block, Part.block,
    render_literal rfl]
  refine congrArg Except.ok (congrArg₂ String.append (congrArg (String.append · _) ?_) ?_)
  · decide +kernel
  · decide +kernel

end Generation

theorem Text.isLineEnd_of_isVisible {c : Char} (h : isVisible c = true) : isLineEnd c = false := by
  rw [isVisible_iff] at h
  simp only [isLineEnd, Bool.or_eq_false_iff, Bool.and_eq_false_iff, decide_eq_false_iff_not,
    beq_eq_false_iff_ne]
  omega

open Generation

/-- The layouts of all projects are the same but for the literal in their title. It is a line of
visible ASCII between double quotes without any character that means something in HTML. It reads as
the name of the site, and a reader that comes upon it stops at its last quote, whatever follows. -/
theorem Registry.layout_names_site (schema : Schema) :
    ∃ body : String,
      (∀ (registry : Registry) files, registry.generate schema = .ok files →
        Dict.get? files "app/layout.tsx" =
          some (layoutHead ++ ("\"" ++ body ++ "\"") ++ layoutTail)) ∧
      (∃ files, Registry.default.generate schema = .ok files) ∧
      (∀ c ∈ ("\"" ++ body ++ "\"").toList,
        Text.isVisible c = true ∧ Json.isMarkup c = false ∧ Text.isLineEnd c = false) ∧
      Json.read ("\"" ++ body ++ "\"") = .ok (.string schema.name) ∧
      ∀ rest, Json.readString (body.toList ++ '"' :: rest) = .done schema.name rest := by
  have hliteral : "\"" ++ String.ofList (Json.literalBody schema.name) ++ "\"" =
      (Json.string schema.name).htmlSafe := by
    have hquote : "\"".toList = ['"'] := rfl
    rw [← String.toList_inj, Json.toList_htmlSafe, String.toList_append, String.toList_append,
      hquote, String.toList_ofList, List.append_assoc, List.singleton_append]
  refine ⟨String.ofList (Json.literalBody schema.name), fun registry files h => ?_,
    exists_generate renders_default schema, fun c hc => ?_, ?_, fun rest => ?_⟩
  · rw [hliteral]
    exact boilerplate_of_generate h (by decide) (renderAt_layout schema.name)
  · rw [hliteral] at hc
    obtain ⟨hvisible, hmarkup⟩ := Json.isSafe_of_mem_htmlSafe hc
    exact ⟨hvisible, hmarkup, Text.isLineEnd_of_isVisible hvisible⟩
  · rw [hliteral, Json.read_htmlSafe]
  · rw [String.toList_ofList, Json.readString_literalBody]

end Sitewright
