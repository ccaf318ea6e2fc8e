import Sitewright.Proofs.Generation

/-!
# What the files of a project depend on

Whether a project can be generated is decided by the registry alone, and so are the texts of all
files but three. Two of these show the name of the site and the third one shows the schema, so
nothing else of a schema gets into any other file.
-/

namespace Sitewright

namespace Template

variable {path : String} {template : Template}

theorem render_eq_of_all_isText (h : template.all Part.isText = true) (context other : Fields) :
    template.render context = template.render other := by
  rw [Template.render, Template.render]
  induction template with
  | nil => rfl
  | cons part parts ih =>
      rw [List.all_cons, Bool.and_eq_true] at h
      cases part with
      | text content => simp only [renderParts, Part.render, ih h.2]
      | _ => cases h.1

theorem renderAt_eq_of_fixed (h : path ∈ fixedPaths) (context other : Fields) :
    renderAt path context = renderAt path other := by
  obtain ⟨entry, hm, rfl⟩ := List.mem_map.mp h
  obtain ⟨hl, hf⟩ := List.mem_filter.mp hm
  rw [renderAt_of_mem hl, renderAt_of_mem hl, render_eq_of_all_isText hf context other]

end Template

open Template

namespace Generation

variable {name other path : String} {sources texts others : FileSet}

theorem mem_fixedPaths_of_ne_layout {file : String × String} (hm : file ∈ boilerplate)
    (hne : file.1 ≠ "app/layout.tsx") : file.2 ∈ fixedPaths :=
  (boilerplate_cases file hm).resolve_right fun he => hne (congrArg Prod.fst he)

theorem boilerplateFile_eq {file : String × String} (h : file.2 ∈ fixedPaths)
    (name other : String) : boilerplateFile name file = boilerplateFile other file := by
  rw [boilerplateFile, boilerplateFile, renderAt_eq_of_fixed h]

/-- Two file sets of the same sources agree at a path if its source does. -/
theorem get?_eq_of_mapM (ht : sources.mapM (boilerplateFile name) = .ok texts)
    (ho : sources.mapM (boilerplateFile other) = .ok others)
    (h : ∀ file ∈ sources, file.1 = path → boilerplateFile name file = boilerplateFile other file) :
    Dict.get? texts path = Dict.get? others path := by
  rw [Outcome.mapM_eq_ok_iff] at ht ho
  induction ht generalizing others with
  | nil =>
      cases ho
      rfl
  | @cons file text _ _ hfile hrest ih =>
      obtain ⟨text', others, hfile', hrest', rfl⟩ := List.forall₂_cons_left_iff.mp ho
      rw [Dict.get?_cons, Dict.get?_cons, path_of_boilerplateFile hfile,
        path_of_boilerplateFile hfile']
      by_cases hp : path = file.1
      · have hsame := h file List.mem_cons_self hp.symm
        rw [hfile, hfile'] at hsame
        rw [if_pos hp, if_pos hp, Except.ok.inj hsame]
      · rw [if_neg hp, if_neg hp]
        exact ih hrest' fun file hm => h file (List.mem_cons_of_mem _ hm)

/-- The texts of the pages being given, two projects differ at most in the file of the schema, and
in those that show the name of the site if that is not the same. -/
theorem get?_files_eq {schema other : Schema} {texts others : FileSet}
    (ht : boilerplate.mapM (boilerplateFile schema.name) = .ok texts)
    (ho : boilerplate.mapM (boilerplateFile other.name) = .ok others) (home slug : String)
    (hschema : path ≠ "lib/websiteSchema.ts")
    (hname : schema.name = other.name ∨ path ≠ "package.json" ∧ path ≠ "app/layout.tsx") :
    Dict.get? (files schema texts home slug) path =
      Dict.get? (files other others home slug) path := by
  have hpackage : Dict.get? [("package.json", (package schema.name).print .asciiBlock)] path =
      Dict.get? [("package.json", (package other.name).print .asciiBlock)] path := by
    rcases hname with hn | ⟨hp, -⟩
    · rw [hn]
    · rw [Dict.get?_cons, Dict.get?_cons, if_neg hp, if_neg hp]
  have htexts : Dict.get? texts path = Dict.get? others path := by
    refine get?_eq_of_mapM ht ho fun file hm hp => ?_
    rcases hname with hn | ⟨-, hlayout⟩
    · rw [hn]
    · exact boilerplateFile_eq (mem_fixedPaths_of_ne_layout hm (hp ▸ hlayout)) _ _
  rw [files, files]
  simp only [Dict.get?_append, hpackage, htexts, Dict.get?_cons, if_neg hschema]

end Generation

namespace Registry

open Generation

variable {registry : Registry} {schema other : Schema} {texts files others : FileSet}
  {cause : Template.Error}

theorem generate_eq_bind (h : boilerplate.mapM (boilerplateFile schema.name) = .ok texts) :
    registry.generate schema = (homePage registry).bind fun home =>
      (slugPage registry).bind fun slug => .ok (Generation.files schema texts home slug) := by
  simp only [generate, h, schemaModule_eq]
  rfl

/-- What goes wrong is told by the registry alone. -/
theorem generate_eq_error_iff : registry.generate schema = .error cause ↔
    homePage registry = .error cause ∨
      (∃ home, homePage registry = .ok home) ∧ slugPage registry = .error cause := by
  obtain ⟨texts, ht⟩ := exists_boilerplate schema.name
  rw [generate_eq_bind ht]
  cases homePage registry with
  | error fault => simp [Except.bind]
  | ok home => cases slugPage registry <;> simp [Except.bind]

theorem generate_eq_error_congr (schema other : Schema) (cause : Template.Error) :
    registry.generate schema = .error cause ↔ registry.generate other = .error cause := by
  rw [generate_eq_error_iff, generate_eq_error_iff]

theorem get?_of_generate (hf : registry.generate schema = .ok files)
    (ho : registry.generate other = .ok others) {path : String}
    (hschema : path ≠ "lib/websiteSchema.ts")
    (hname : schema.name = other.name ∨ path ≠ "package.json" ∧ path ≠ "app/layout.tsx") :
    Dict.get? files path = Dict.get? others path := by
  obtain ⟨texts, home, slug, ht, hhome, hslug, rfl⟩ := generate_eq_ok_iff.mp hf
  obtain ⟨texts', home', slug', ht', hhome', hslug', rfl⟩ := generate_eq_ok_iff.mp ho
  -- Both projects have the same pages, since these are made by the registry alone.
  cases hhome.symm.trans hhome'
  cases hslug.symm.trans hslug'
  exact get?_files_eq ht ht' home slug hschema hname

/-- Two schemas fail to be generated in the same way or give files of the same eleven paths. These
are the same but for the file of the schema and, where the names of the sites differ, the package
and the layout. The default registry gives files for every schema, and a journal never refuses the
report on them. -/
theorem generate_reveals (registry : Registry) (schema other : Schema) :
    (∀ cause, registry.generate schema = .error cause ↔ registry.generate other = .error cause) ∧
    (∃ files, default.generate schema = .ok files) ∧
    ∀ files others, registry.generate schema = .ok files → registry.generate other = .ok others →
      (∀ journal : Journal, ∃ next, journal.add (schema.generationReport files) = .ok next) ∧
      Dict.keys files = paths ∧ Dict.keys others = paths ∧ paths.length = 11 ∧ paths.Nodup ∧
      (∀ path, path ∉ ["package.json", "app/layout.tsx", "lib/websiteSchema.ts"] →
        Dict.get? files path = Dict.get? others path) ∧
      (schema.name = other.name → ∀ path, path ≠ "lib/websiteSchema.ts" →
        Dict.get? files path = Dict.get? others path) := by
  refine ⟨generate_eq_error_congr schema other, exists_generate renders_default schema, ?_⟩
  intro files others hf ho
  refine ⟨fun journal => ?_, keys_of_generate hf, keys_of_generate ho, rfl, by decide, ?_, ?_⟩
  · have hfree : reservedField? (schema.generationReport files).fields = none := rfl
    cases hh : journal.hears (schema.generationReport files).level <;>
      exact ⟨_, by simp only [Journal.add, hh, hfree]; rfl⟩
  · intro path hp
    simp only [List.mem_cons, List.not_mem_nil, or_false, not_or] at hp
    obtain ⟨hpackage, hlayout, hschema⟩ := hp
    exact get?_of_generate hf ho hschema (.inr ⟨hpackage, hlayout⟩)
  · intro hn path hschema
    exact get?_of_generate hf ho hschema (.inl hn)

end Registry

end Sitewright
