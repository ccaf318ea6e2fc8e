import Sitewright.Proofs.Generation
import Sitewright.Proofs.Json.Whole
import Sitewright.Proofs.Template.Plain
import Sitewright.Proofs.Text.Runs

/-!
# Projects that can be written

A template shows texts of its own, in which no half of a surrogate pair stands, literals in ASCII,
and texts that are generated in the same way. So of the files of a project only that of the schema
may have such a half, and it has one exactly if the JSON of the schema is not whole: then no archive
of the project can be written.
-/

namespace Sitewright

/-! ## Texts -/

namespace Text

variable {text line : List Char} {c d : Char}

theorem eq_or_mem_of_mem_consFirst {pieces : List (List Char)} (hl : line ∈ consFirst c pieces)
    (hd : d ∈ line) : d = c ∨ ∃ piece ∈ pieces, d ∈ piece := by
  cases pieces with
  | nil =>
      rw [List.mem_singleton.mp hl] at hd
      exact .inl (List.mem_singleton.mp hd)
  | cons piece rest =>
      rcases List.mem_cons.mp hl with rfl | hl
      · exact (List.mem_cons.mp hd).imp_right fun hd => ⟨piece, List.mem_cons_self, hd⟩
      · exact .inr ⟨line, List.mem_cons_of_mem _ hl, hd⟩

theorem mem_of_mem_lines (hl : line ∈ lines text) (hd : d ∈ line) : d ∈ text := by
  induction text using lines.induct generalizing line with
  | case1 => cases hl
  | case2 rest ih =>
      rw [lines] at hl
      rcases List.mem_cons.mp hl with rfl | hl
      · cases hd
      · exact List.mem_cons_of_mem _ (List.mem_cons_of_mem _ (ih hl hd))
  | case3 c rest hne hend ih =>
      rw [lines.eq_3 c rest hne, if_pos hend] at hl
      rcases List.mem_cons.mp hl with rfl | hl
      · cases hd
      · exact List.mem_cons_of_mem _ (ih hl hd)
  | case4 c rest hne hend ih =>
      rw [lines.eq_3 c rest hne, if_neg hend] at hl
      rcases eq_or_mem_of_mem_consFirst hl hd with rfl | ⟨piece, hp, hd⟩
      · exact List.mem_cons_self
      · exact List.mem_cons_of_mem _ (ih hp hd)

/-- What is set further in is made of the characters that were there, blanks and line feeds. -/
theorem mem_indent {width : Nat} (h : d ∈ indent width text) : d = ' ' ∨ d = '\n' ∨ d ∈ text := by
  have hmargin (hd : d ∈ List.replicate width ' ') : d = ' ' := List.eq_of_mem_replicate hd
  have hline {line : List Char} (hl : line ∈ lines (text ++ ['\n'])) (hd : d ∈ line) :
      d = '\n' ∨ d ∈ text := by
    have hm := mem_of_mem_lines hl hd
    simpa [or_comm] using hm
  unfold indent at h
  dsimp only at h
  split at h
  · exact .inl (hmargin h)
  · rename_i first rest hlines
    rw [hlines] at hline
    rcases mem_intercalate h with hd | ⟨piece, hp, hd⟩
    · exact .inr (.inl (List.mem_singleton.mp hd))
    rcases List.mem_cons.mp hp with rfl | hp
    · exact (List.mem_append.mp hd).imp hmargin (hline List.mem_cons_self)
    obtain ⟨line, hl, rfl⟩ := List.mem_map.mp hp
    have hl' : line ∈ first :: rest := List.mem_cons_of_mem _ hl
    split at hd
    · exact .inr (hline hl' hd)
    · exact (List.mem_append.mp hd).imp hmargin (hline hl')

end Text

def Unmarked (text : String) : Prop :=
  Text.halfMark ∉ text.toList

namespace Unmarked

variable {text other : String}

theorem hasHalf_eq_false (h : Unmarked text) : Text.hasHalf text.toList = false :=
  Text.hasHalf_of_not_mem h

theorem ofList {text : List Char} (h : text.all (· ≠ Text.halfMark) = true) :
    Unmarked (String.ofList text) := by
  intro hm
  rw [String.toList_ofList] at hm
  simpa using List.all_eq_true.mp h _ hm

theorem append (h : Unmarked text) (ho : Unmarked other) : Unmarked (text ++ other) := by
  intro hm
  rw [String.toList_append] at hm
  exact (List.mem_append.mp hm).elim h ho

theorem join {texts : List String} (h : ∀ text ∈ texts, Unmarked text) :
    Unmarked (String.join texts) := by
  intro hm
  rw [String.toList_join, List.mem_flatMap] at hm
  obtain ⟨text, ht, hm⟩ := hm
  exact h text ht hm

theorem trimLineFeeds (h : Unmarked text) : Unmarked (trimLineFeeds text) := by
  intro hm
  rw [Sitewright.trimLineFeeds, String.toList_ofList] at hm
  exact h (List.mem_reverse.mp ((List.dropWhile_sublist _).subset (List.mem_reverse.mp hm)))

theorem indent (h : Unmarked text) (width : Nat) :
    Unmarked (String.ofList (Text.indent width text.toList)) := by
  intro hm
  rw [String.toList_ofList] at hm
  rcases Text.mem_indent hm with he | he | hm
  · exact absurd he (by decide)
  · exact absurd he (by decide)
  · exact h hm

theorem htmlSafe (text : String) : Unmarked (Json.string text).htmlSafe := by
  intro hm
  exact absurd (Json.isSafe_of_mem_htmlSafe hm).1 (by decide)

end Unmarked

/-! ## Templates -/

namespace Template

variable {context : Fields} {path text : String} {template : Template}

mutual

def Part.TextsUnmarked : Part → Prop
  | .text content => Unmarked content
  | .each _ _ body => AllTextsUnmarked body
  | _ => True

def AllTextsUnmarked : List Part → Prop
  | [] => True
  | part :: parts => part.TextsUnmarked ∧ AllTextsUnmarked parts

end

mutual

/-- What a part shows are texts that are unmarked unless they are shown as literals. -/
def Part.ShowsUnmarked (context : Fields) : Part → Prop
  | .text _ => True
  | .plain expr => ∃ text, expr.eval context = .ok (.string text) ∧ Unmarked text
  | .literal expr => ∃ text, expr.eval context = .ok (.string text)
  | .indented _ expr => ∃ text, expr.eval context = .ok (.string text) ∧ Unmarked text
  | .each item list body =>
      ∃ items, Expr.eval context (.var list) = .ok (.array items) ∧
        ∀ value ∈ items, AllShowUnmarked ((item, value) :: context) body

def AllShowUnmarked (context : Fields) : List Part → Prop
  | [] => True
  | part :: parts => part.ShowsUnmarked context ∧ AllShowUnmarked context parts

end

mutual

theorem Part.unmarked_render (context : Fields) : (part : Part) → part.TextsUnmarked →
    part.ShowsUnmarked context → ∀ text, part.render context = .ok text → Unmarked text
  | .text content, h, _, text, hr => by
      cases hr
      exact h
  | .plain expr, _, ⟨shown, hs, hu⟩, text, hr => by
      simp only [Part.render, Expr.value, hs, Except.mapError, Except.map] at hr
      cases hr
      exact hu
  | .literal expr, _, ⟨shown, hs⟩, text, hr => by
      simp only [Part.render, hs] at hr
      cases hr
      exact .htmlSafe shown
  | .indented width expr, _, ⟨shown, hs, hu⟩, text, hr => by
      simp only [Part.render, Expr.value, hs, Except.mapError, Except.bind, Json.indented] at hr
      cases hr
      exact hu.indent width
  | .each item list body, h, ⟨items, hi, hb⟩, text, hr => by
      simp only [Part.render, Expr.value, hi, Except.mapError, Except.bind, Json.elements] at hr
      obtain ⟨texts, ht, rfl⟩ := Outcome.map_eq_ok_iff.mp hr
      refine .join fun shown hm => ?_
      obtain ⟨value, hv, hshown⟩ := Outcome.exists_of_mem_right (Outcome.mapM_eq_ok_iff.mp ht) hm
      exact unmarked_renderParts ((item, value) :: context) body h (hb value hv) shown hshown

theorem unmarked_renderParts (context : Fields) : (parts : List Part) → AllTextsUnmarked parts →
    AllShowUnmarked context parts → ∀ text, renderParts context parts = .ok text →
      Unmarked text
  | [], _, _, text, hr => by
      cases hr
      exact nofun
  | part :: parts, ⟨hp, hps⟩, ⟨hs, hss⟩, text, hr => by
      rw [renderParts] at hr
      cases hfirst : part.render context with
      | error cause => rw [hfirst] at hr; cases hr
      | ok first =>
          rw [hfirst] at hr
          obtain ⟨rest, hrest, rfl⟩ := Outcome.map_eq_ok_iff.mp hr
          exact (Part.unmarked_render context part hp hs first hfirst).append
            (unmarked_renderParts context parts hps hss rest hrest)

end

/-! ## The library -/

theorem textsUnmarked_block {lines : List String} (h : ∀ line ∈ lines, Unmarked line) :
    (Part.block lines).TextsUnmarked := by
  refine Unmarked.join fun text hm => ?_
  obtain ⟨line, hl, rfl⟩ := List.mem_map.mp hm
  exact (h line hl).append (.ofList (by decide))

theorem allTextsUnmarked_ofLines {lines : List String} (h : ∀ line ∈ lines, Unmarked line) :
    AllTextsUnmarked (Template.ofLines lines) :=
  ⟨textsUnmarked_block h, trivial⟩

set_option maxRecDepth 1024 in
theorem allTextsUnmarked_library : ∀ entry ∈ library, AllTextsUnmarked entry.2 := by
  rw [library]
  repeat' with_reducible refine List.forall_mem_cons.mpr ⟨?_, ?_⟩
  all_goals try with_reducible exact List.forall_mem_nil _
  -- fixed lines, or one of three ways in which places stand between blocks of lines
  all_goals first
    | refine allTextsUnmarked_ofLines ?_
    | refine ⟨textsUnmarked_block ?_, ⟨.ofList (by decide), trivial, textsUnmarked_block ?_, trivial,
        textsUnmarked_block ?_, trivial⟩, .ofList (by decide), trivial, textsUnmarked_block ?_,
        trivial⟩
    | refine ⟨textsUnmarked_block ?_, trivial, textsUnmarked_block ?_, .ofList (by decide), trivial,
        textsUnmarked_block ?_, trivial⟩
    | refine ⟨textsUnmarked_block ?_, .ofList (by decide), trivial, textsUnmarked_block ?_, trivial⟩
  -- line by line, so that no text is evaluated but those of one line
  all_goals
    repeat' with_reducible first
      | refine List.forall_mem_cons.mpr ⟨?_, ?_⟩
      | refine Unmarked.append ?_ ?_
      | refine Unmarked.ofList (by decide)
      | exact List.forall_mem_nil _

theorem allShowUnmarked_of_all_isText (h : template.all Part.isText = true) :
    AllShowUnmarked context template := by
  induction template with
  | nil => trivial
  | cons part parts ih =>
      rw [List.all_cons, Bool.and_eq_true] at h
      cases part with
      | text content => exact ⟨trivial, ih h.2⟩
      | _ => cases h.1

theorem unmarked_of_renderAt (hm : (path, template) ∈ library)
    (hs : AllShowUnmarked context template) (h : renderAt path context = .ok text) :
    Unmarked text := by
  rw [renderAt_of_mem hm] at h
  exact unmarked_renderParts context template (allTextsUnmarked_library _ hm) hs text h

theorem unmarked_of_renderAt_fixed (hp : path ∈ fixedPaths) (h : renderAt path context = .ok text) :
    Unmarked text := by
  obtain ⟨⟨path, template⟩, hm, rfl⟩ := List.mem_map.mp hp
  obtain ⟨hl, hf⟩ := List.mem_filter.mp hm
  exact unmarked_of_renderAt hl (allShowUnmarked_of_all_isText hf) h

/-- What can be shown without a context is fixed text. -/
theorem unmarked_of_renderAt_nil (h : renderAt path [] = .ok text) : Unmarked text := by
  cases hfind : find? path with
  | none => rw [renderAt, hfind] at h; cases h
  | some template =>
      rw [renderAt, hfind] at h
      rw [find?] at hfind
      split at hfind
      · cases hfind
      · exact unmarked_renderParts [] template
          (allTextsUnmarked_library _ (Dict.mem_of_get? hfind))
          (allShowUnmarked_of_all_isText (all_isText_of_render_nil h)) text h

end Template

open Template

/-! ## Files -/

namespace Registry

variable {registry : Registry} {coverage : Coverage} {text : String}

theorem unmarked_fragment {type : String} (h : registry.fragment coverage type = .ok text) :
    Unmarked text := by
  obtain ⟨shown, hs, rfl⟩ := Outcome.map_eq_ok_iff.mp h
  exact (unmarked_of_renderAt_nil hs).trimLineFeeds

theorem unmarked_branches {branches : List Branch} (h : registry.branches coverage = .ok branches) :
    ∀ branch ∈ branches, Unmarked branch.body := by
  intro branch hm
  obtain ⟨kind, -, hb⟩ := Outcome.exists_of_mem_right (Outcome.mapM_eq_ok_iff.mp h) hm
  obtain ⟨body, hf, rfl⟩ := Outcome.map_eq_ok_iff.mp hb
  exact unmarked_fragment hf

theorem unmarked_dispatcher (h : registry.dispatcher coverage = .ok text) : Unmarked text := by
  obtain ⟨generic, hg, hrest⟩ := Outcome.bind_eq_ok_iff.mp h
  obtain ⟨branches, hb, hrest⟩ := Outcome.bind_eq_ok_iff.mp hrest
  obtain ⟨shown, hs, rfl⟩ := Outcome.bind_pure_eq_ok_iff.mp hrest
  have hgeneric : Unmarked generic := by
    obtain ⟨code, hc, rfl⟩ := Outcome.map_eq_ok_iff.mp hg
    exact (unmarked_of_renderAt_nil hc).trimLineFeeds
  have hm : (dispatcherPath, Pages.dispatcher) ∈ library := by simp [library, dispatcherPath]
  refine (unmarked_of_renderAt hm ?_ hs).trimLineFeeds
  refine ⟨trivial, ⟨_, eval_var rfl, ?_⟩, trivial, ⟨_, eval_var rfl, hgeneric⟩, trivial, trivial⟩
  intro value hv
  obtain ⟨branch, hbranch, rfl⟩ := List.mem_map.mp hv
  exact ⟨trivial, ⟨_, eval_attribute rfl rfl⟩, trivial,
    ⟨_, eval_attribute rfl rfl, unmarked_branches hb branch hbranch⟩, trivial, trivial⟩

end Registry

namespace Generation

variable {registry : Registry} {text : String}

theorem unmarked_homePage (h : homePage registry = .ok text) : Unmarked text := by
  obtain ⟨dispatcher, hd, hr⟩ := Outcome.bind_eq_ok_iff.mp h
  have hm : ("project/app/page.tsx.j2", Pages.homePage) ∈ library := by simp [library]
  have hmessage : Unmarked "Aucun contenu pour le moment." := .ofList (by decide)
  refine unmarked_of_renderAt hm ?_ hr
  exact ⟨trivial, ⟨_, eval_var rfl, Registry.unmarked_dispatcher hd⟩, trivial, trivial,
    ⟨_, eval_var rfl, hmessage⟩, trivial, trivial⟩

theorem unmarked_slugPage (h : slugPage registry = .ok text) : Unmarked text := by
  obtain ⟨dispatcher, hd, hr⟩ := Outcome.bind_eq_ok_iff.mp h
  have hm : ("project/app/slug_page.tsx.j2", Pages.slugPage) ∈ library := by simp [library]
  have hmessage : Unmarked "Page introuvable." := .ofList (by decide)
  refine unmarked_of_renderAt hm ?_ hr
  exact ⟨trivial, ⟨_, eval_var rfl, Registry.unmarked_dispatcher hd⟩, trivial, trivial,
    ⟨_, eval_var rfl, hmessage⟩, trivial, trivial⟩

/-- The files that depend on the name of the site show it as a literal if at all. -/
theorem unmarked_boilerplate {siteName : String} {texts : FileSet}
    (h : boilerplate.mapM (boilerplateFile siteName) = .ok texts) :
    ∀ file ∈ texts, Unmarked file.2 := by
  intro file hm
  obtain ⟨source, hs, hf⟩ := Outcome.exists_of_mem_right (Outcome.mapM_eq_ok_iff.mp h) hm
  obtain ⟨text, ht, rfl⟩ := Outcome.map_eq_ok_iff.mp hf
  rcases boilerplate_cases source hs with hfixed | rfl
  · exact unmarked_of_renderAt_fixed hfixed ht
  · have hlayout : ("project/app/layout.tsx.j2", Scaffold.layout) ∈ library := by simp [library]
    exact unmarked_of_renderAt hlayout
      ⟨trivial, trivial, ⟨_, eval_var rfl⟩, trivial, trivial⟩ ht

theorem isWritable_of_path {path : String} (hp : path ∈ paths) (text : String) :
    Archive.isWritable (path, text) = !Text.hasHalf text.toList := by
  have hpaths : ∀ path ∈ paths, Text.hasHalf path.toList = false := by decide
  rw [Archive.isWritable, hpaths path hp, Bool.false_or]

theorem isWritable_of_unmarked {path : String} (hp : path ∈ paths) (ht : Unmarked text) :
    Archive.isWritable (path, text) = true := by
  rw [isWritable_of_path hp, ht.hasHalf_eq_false, Bool.not_false]

/-- The source of a schema is as whole as its JSON, and so is its module. -/
theorem hasHalf_schemaModule (schema : Schema) :
    Text.hasHalf (moduleHead ++ schema.source ++ moduleTail).toList = !schema.toJson.isWhole := by
  have hhead : Unmarked moduleHead := .ofList (by decide)
  have htail : Text.StartsApart moduleTail.toList := by
    simp [Text.StartsApart, moduleTail]
  have hend : Unmarked moduleTail := .ofList (by decide)
  rw [String.toList_append, String.toList_append, Text.hasHalf_append _ htail,
    Text.hasHalf_append_of_not_mem hhead, hend.hasHalf_eq_false, Bool.or_false, Schema.source,
    Json.hasHalf_print]
  rfl

/-- Only the module of the schema may be in the way of writing the files of a project. -/
theorem all_isWritable_of_generate {schema : Schema} {files : FileSet}
    (h : registry.generate schema = .ok files) :
    files.all Archive.isWritable = schema.toJson.isWhole := by
  obtain ⟨texts, home, slug, ht, hhome, hslug, rfl⟩ := Registry.generate_eq_ok_iff.mp h
  have htexts : texts.all Archive.isWritable = true := by
    rw [List.all_eq_true]
    intro file hm
    have hp : file.1 ∈ paths := by
      rw [paths, ← keys_of_mapM ht]
      simp [Dict.keys, List.mem_map_of_mem hm]
    exact isWritable_of_unmarked hp (unmarked_boilerplate ht file hm)
  have hpackage : Archive.isWritable
      ("package.json", (package schema.name).print .asciiBlock) = true := by
    rw [isWritable_of_path (by decide), Json.hasHalf_print]
    rfl
  have hmodule : Archive.isWritable ("lib/websiteSchema.ts",
      moduleHead ++ schema.source ++ moduleTail) = schema.toJson.isWhole := by
    rw [isWritable_of_path (by decide), hasHalf_schemaModule, Bool.not_not]
  have hhome' := isWritable_of_unmarked (by decide : "app/page.tsx" ∈ paths)
    (unmarked_homePage hhome)
  have hslug' := isWritable_of_unmarked (by decide : "app/[slug]/page.tsx" ∈ paths)
    (unmarked_slugPage hslug)
  simp [files, htexts, hpackage, hmodule, hhome', hslug']

end Generation

/-- The archive of a generated project can be written exactly if the JSON of the schema is whole. -/
theorem Archive.written?_of_generate {registry : Registry} {schema : Schema} {files : FileSet}
    (h : registry.generate schema = .ok files) (filename : String) :
    (Archive.mk filename files).written? =
      if schema.toJson.isWhole then some ⟨filename, files⟩ else none := by
  rw [written?, Generation.all_isWritable_of_generate h]

end Sitewright
