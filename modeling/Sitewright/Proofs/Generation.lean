import Sitewright.Archive
import Sitewright.Proofs.Template

/-!
# Generated projects are complete

Generation succeeds for every schema if the registry has code for every kind of section, as the
default one does. The files have fixed paths, so an archive holds all of them as they are, and the
source of the schema stands in one of them between two fixed texts.
-/

namespace Sitewright

open Template

def Registry.Renders (registry : Registry) : Prop :=
  ∀ kind, ∃ text, renderAt (registry.definition kind).fragment [] = .ok text

theorem Registry.fragment_mem_fixedPaths (kind : SectionKind) :
    (Registry.default.definition kind).fragment ∈ fixedPaths := by
  cases kind <;> decide

theorem Registry.renders_default : Registry.default.Renders :=
  fun kind => exists_renderAt_of_fixed (fragment_mem_fixedPaths kind) []

/-! ## Dispatch -/

namespace Registry

variable {registry : Registry}

theorem compactPath_mem_fixedPaths (kind : SectionKind) :
    (compactPaths.lookup kind).getD genericPath ∈ fixedPaths := by
  cases kind <;> decide

/-- The generic code is the compact code of most kinds. -/
theorem genericPath_mem_fixedPaths : genericPath ∈ fixedPaths :=
  compactPath_mem_fixedPaths .features

theorem exists_fragment (h : registry.Renders) (coverage : Coverage) (type : String) :
    ∃ text, registry.fragment coverage type = .ok text := by
  have hr : ∃ text, renderAt (registry.fragmentPath coverage type) [] = .ok text := by
    unfold fragmentPath
    cases SectionKind.ofName? type with
    | none => exact exists_renderAt_of_fixed genericPath_mem_fixedPaths []
    | some kind =>
        cases coverage with
        | full => exact h kind
        | degraded => exact exists_renderAt_of_fixed (compactPath_mem_fixedPaths kind) []
  obtain ⟨text, ht⟩ := hr
  exact ⟨trimLineFeeds text, by rw [fragment, ht]; rfl⟩

theorem exists_branches (h : registry.Renders) (coverage : Coverage) :
    ∃ branches, registry.branches coverage = .ok branches := by
  apply Outcome.exists_mapM_eq_ok
  intro kind hm
  obtain ⟨text, ht⟩ := exists_fragment h coverage kind.name
  exact ⟨⟨kind, text⟩, by rw [branch, ht]; rfl⟩

theorem findsAll_dispatcher (branches : List Branch) (fallback : String) :
    FindsAll [("branches", .array (branches.map Branch.toJson)), ("fallback", .string fallback)]
      Pages.dispatcher := by
  refine ⟨trivial, ⟨_, eval_var rfl, ?_⟩, trivial, ⟨_, eval_var rfl⟩, trivial, trivial⟩
  intro value hm
  obtain ⟨branch, -, rfl⟩ := List.mem_map.mp hm
  exact ⟨trivial, ⟨_, eval_attribute rfl rfl⟩, trivial, ⟨_, eval_attribute rfl rfl⟩, trivial,
    trivial⟩

theorem exists_dispatcher (h : registry.Renders) (coverage : Coverage) :
    ∃ text, registry.dispatcher coverage = .ok text := by
  obtain ⟨generic, hg⟩ := exists_renderAt_of_fixed genericPath_mem_fixedPaths []
  obtain ⟨branches, hb⟩ := exists_branches h coverage
  have hm : (dispatcherPath, Pages.dispatcher) ∈ library := by simp [library, dispatcherPath]
  obtain ⟨text, ht⟩ := exists_renderAt hm (findsAll_dispatcher branches (trimLineFeeds generic))
  have hf : fallback = .ok (trimLineFeeds generic) := by rw [fallback, hg]; rfl
  refine ⟨trimLineFeeds text, ?_⟩
  refine Outcome.bind_eq_ok_iff.mpr ⟨_, hf, ?_⟩
  refine Outcome.bind_eq_ok_iff.mpr ⟨branches, hb, ?_⟩
  exact Outcome.bind_pure_eq_ok_iff.mpr ⟨text, ht, rfl⟩

end Registry

/-! ## Files -/

namespace Generation

variable {registry : Registry} {schema : Schema}

def moduleHead : String :=
  "// Generated by Site Builder\nexport const websiteSchema = "

def moduleTail : String :=
  " as const;\n\nexport type WebsiteSchema = typeof websiteSchema;\n"

theorem schemaModule_eq (schema : Schema) :
    schemaModule schema = .ok (moduleHead ++ schema.source ++ moduleTail) := by
  have hm : ("project/lib/websiteSchema.ts.j2", Pages.schemaModule) ∈ library := by simp [library]
  have hhead : moduleHead = "// Generated by Site Builder\n" ++ "export const websiteSchema = " :=
    rfl
  rw [schemaModule, renderAt_of_mem hm, hhead, String.append_assoc, String.append_assoc]
  simp [Template.render, Pages.schemaModule, Part.block, renderParts, Part.render, Expr.value,
    Expr.eval, Dict.get?, Json.display, Except.map, Except.mapError, moduleTail]

/-- The layout is the one file of the boilerplate that shows the name of the site. -/
theorem boilerplate_cases : ∀ file ∈ boilerplate,
    file.2 ∈ fixedPaths ∨ file = ("app/layout.tsx", "project/app/layout.tsx.j2") := by
  decide

theorem exists_boilerplate (siteName : String) :
    ∃ files, boilerplate.mapM (boilerplateFile siteName) = .ok files := by
  apply Outcome.exists_mapM_eq_ok
  intro file hm
  have hr : ∃ text, renderAt file.2 [("site_name", .string siteName)] = .ok text := by
    rcases boilerplate_cases file hm with hf | rfl
    · exact exists_renderAt_of_fixed hf _
    · have hlayout : ("project/app/layout.tsx.j2", Scaffold.layout) ∈ library := by simp [library]
      exact exists_renderAt hlayout ⟨trivial, trivial, ⟨_, eval_var rfl⟩, trivial, trivial⟩
  obtain ⟨text, ht⟩ := hr
  exact ⟨(file.1, text), by rw [boilerplateFile, ht]; rfl⟩

theorem exists_homePage (h : registry.Renders) : ∃ text, homePage registry = .ok text := by
  obtain ⟨dispatcher, hd⟩ := Registry.exists_dispatcher h .full
  have hm : ("project/app/page.tsx.j2", Pages.homePage) ∈ library := by simp [library]
  have hf : FindsAll [("dispatcher", .string dispatcher),
      ("empty_message", .string "Aucun contenu pour le moment.")] Pages.homePage :=
    ⟨trivial, ⟨_, eval_var rfl⟩, trivial, trivial, ⟨_, eval_var rfl⟩, trivial, trivial⟩
  obtain ⟨text, ht⟩ := exists_renderAt hm hf
  exact ⟨text, Outcome.bind_eq_ok_iff.mpr ⟨dispatcher, hd, ht⟩⟩

theorem exists_slugPage (h : registry.Renders) : ∃ text, slugPage registry = .ok text := by
  obtain ⟨dispatcher, hd⟩ := Registry.exists_dispatcher h .degraded
  have hm : ("project/app/slug_page.tsx.j2", Pages.slugPage) ∈ library := by simp [library]
  have hf : FindsAll [("dispatcher", .string dispatcher),
      ("not_found_message", .string "Page introuvable.")] Pages.slugPage :=
    ⟨trivial, ⟨_, eval_var rfl⟩, trivial, trivial, ⟨_, eval_var rfl⟩, trivial, trivial⟩
  obtain ⟨text, ht⟩ := exists_renderAt hm hf
  exact ⟨text, Outcome.bind_eq_ok_iff.mpr ⟨dispatcher, hd, ht⟩⟩

def files (schema : Schema) (boilerplate : FileSet) (homePage slugPage : String) : FileSet :=
  [("package.json", (package schema.name).print .asciiBlock)] ++ boilerplate ++
    [("app/page.tsx", homePage), ("app/[slug]/page.tsx", slugPage),
     ("lib/websiteSchema.ts", moduleHead ++ schema.source ++ moduleTail)]

def paths : List String :=
  ["package.json"] ++ Dict.keys boilerplate ++
    ["app/page.tsx", "app/[slug]/page.tsx", "lib/websiteSchema.ts"]

theorem path_of_boilerplateFile {siteName : String} {source file : String × String}
    (h : boilerplateFile siteName source = .ok file) : file.1 = source.1 := by
  unfold boilerplateFile at h
  cases ht : renderAt source.2 [("site_name", .string siteName)] with
  | error cause => simp [ht, Except.map] at h
  | ok content =>
      rw [ht] at h
      cases h
      rfl

theorem keys_of_mapM {siteName : String} {sources texts : FileSet}
    (h : sources.mapM (boilerplateFile siteName) = .ok texts) :
    Dict.keys texts = Dict.keys sources := by
  have hf := Outcome.mapM_eq_ok_iff.mp h
  clear h
  induction hf with
  | nil => rfl
  | cons hr hrest ih => exact congrArg₂ List.cons (path_of_boilerplateFile hr) ih

end Generation

namespace Registry

open Generation

variable {registry : Registry} {schema : Schema} {files : FileSet}

theorem generate_eq_ok_iff : registry.generate schema = .ok files ↔
    ∃ texts home slug, boilerplate.mapM (boilerplateFile schema.name) = .ok texts ∧
      homePage registry = .ok home ∧ slugPage registry = .ok slug ∧
      files = Generation.files schema texts home slug := by
  simp only [generate, schemaModule_eq, Outcome.bind_eq_ok_iff]
  constructor
  · rintro ⟨texts, ht, home, hh, slug, hs, _, hm, he⟩
    cases hm
    cases he
    exact ⟨texts, home, slug, ht, hh, hs, rfl⟩
  · rintro ⟨texts, home, slug, ht, hh, hs, rfl⟩
    exact ⟨texts, ht, home, hh, slug, hs, _, rfl, rfl⟩

theorem exists_generate (h : registry.Renders) (schema : Schema) :
    ∃ files, registry.generate schema = .ok files := by
  obtain ⟨texts, ht⟩ := exists_boilerplate schema.name
  obtain ⟨home, hhome⟩ := exists_homePage h
  obtain ⟨slug, hslug⟩ := exists_slugPage h
  exact ⟨_, generate_eq_ok_iff.mpr ⟨texts, home, slug, ht, hhome, hslug, rfl⟩⟩

theorem keys_of_generate (h : registry.generate schema = .ok files) :
    Dict.keys files = paths := by
  obtain ⟨texts, home, slug, ht, -, -, rfl⟩ := generate_eq_ok_iff.mp h
  have hk := keys_of_mapM ht
  rw [Generation.files, paths, Dict.keys, List.map_append, List.map_append]
  exact congrArg (fun keys => ["package.json"] ++ keys ++ _) hk

theorem get?_of_mem_generate (h : registry.generate schema = .ok files) {path text : String}
    (hm : (path, text) ∈ files) : Dict.get? files path = some text := by
  have hn : (Dict.keys files).Nodup := by
    rw [keys_of_generate h]
    simp [paths, boilerplate, Dict.keys]
  exact Dict.get?_of_mem hn hm

theorem package_of_generate (h : registry.generate schema = .ok files) :
    Dict.get? files "package.json" = some ((package schema.name).print .asciiBlock) := by
  apply get?_of_mem_generate h
  obtain ⟨texts, home, slug, -, -, -, rfl⟩ := generate_eq_ok_iff.mp h
  simp [Generation.files]

/-- The files that depend on nothing but the name of the site are as their templates have them. -/
theorem boilerplate_of_generate (h : registry.generate schema = .ok files)
    {path template text : String} (hm : (path, template) ∈ boilerplate)
    (ht : renderAt template [("site_name", .string schema.name)] = .ok text) :
    Dict.get? files path = some text := by
  apply get?_of_mem_generate h
  obtain ⟨texts, home, slug, hb, -, -, rfl⟩ := generate_eq_ok_iff.mp h
  obtain ⟨file, hf, (hfile : boilerplateFile schema.name (path, template) = .ok file)⟩ :=
    Outcome.exists_of_mem_right (Outcome.mapM_eq_ok_iff.mp hb).flip hm
  have hpath : file = (path, text) := by
    rw [boilerplateFile, ht] at hfile
    exact (Except.ok.inj hfile).symm
  rw [← hpath]
  simp [Generation.files, hf]

/-- The source of the schema stands in a file of its own. -/
theorem schemaModule_of_generate (h : registry.generate schema = .ok files) :
    Dict.get? files "lib/websiteSchema.ts" = some (moduleHead ++ schema.source ++ moduleTail) := by
  apply get?_of_mem_generate h
  obtain ⟨texts, home, slug, -, -, -, rfl⟩ := generate_eq_ok_iff.mp h
  simp [Generation.files]

end Registry

/-! ## Archives -/

namespace Archive

theorem entries?_eq_some {files : FileSet}
    (h : ∀ path ∈ Dict.keys files, path ≠ "" ∧ entryName path = path) :
    entries? files = some files := by
  induction files with
  | nil => rfl
  | cons file files ih =>
      obtain ⟨hne, hname⟩ := h file.1 List.mem_cons_self
      have hrest := ih fun path hp => h path (List.mem_cons_of_mem _ hp)
      unfold entries? at hrest ⊢
      simp [List.mapM_cons, hne, hname, hrest]

theorem entryName_paths :
    ∀ path ∈ Generation.paths, path ≠ "" ∧ entryName path = path := by
  decide

/-- The archive of a generated project holds the files as they are. -/
theorem package?_of_generate {registry : Registry} {schema : Schema} {files : FileSet}
    (h : registry.generate schema = .ok files) :
    package? schema files = some ⟨filenameFor schema.name, files⟩ := by
  have hk := Registry.keys_of_generate h
  rw [package?, entries?_eq_some (hk ▸ entryName_paths), Option.map_some]

end Archive

end Sitewright
