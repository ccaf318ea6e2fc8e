import Sitewright.Prompt
import Sitewright.Proofs.Generation
import Sitewright.Proofs.Json.RoundTrip
import Sitewright.Proofs.Schema.RoundTrip

/-!
# The text of a schema inside other texts

The source of a schema stands in a file of the generated project, between two texts that are the
same for all schemas, and at the end of the prompt for its contents. Reading it gives the JSON of
the schema back, entry by entry, so no two schemas have the same source: whatever the texts of a
schema contain, nothing of it is taken for a part of what stands around it.
-/

namespace Sitewright

/-! ## Different schemas differ as JSON

JSON has no infinite numbers, so only those of a schema may get lost. -/

theorem List.map_eq_map_of_imp {α β γ : Type} {f : α → β} {g : α → γ} {xs ys : List α}
    (h : xs.map f = ys.map f) (hfg : ∀ x y, f x = f y → g x = g y) : xs.map g = ys.map g := by
  rw [← List.forall₂_eq_eq_eq, List.forall₂_map_left_iff, List.forall₂_map_right_iff] at h ⊢
  exact h.imp hfg

theorem Section.dumped_eq_of_toJson_eq {s other : Section} (h : s.toJson = other.toJson) :
    s.dumped = other.dumped := by
  simp only [Section.toJson, Json.object.injEq, List.cons_append, List.nil_append, List.cons.injEq,
    Prod.mk.injEq, Json.string.injEq, true_and] at h
  obtain ⟨hid, htype, hprops, hextra⟩ := h
  rw [dumped, dumped, hid, htype, hprops, hextra]

theorem Page.dumped_eq_of_toJson_eq {page other : Page} (h : page.toJson = other.toJson) :
    page.dumped = other.dumped := by
  simp only [Page.toJson, Json.object.injEq, Json.array.injEq, List.cons_append, List.nil_append,
    List.cons.injEq, Prod.mk.injEq, Json.string.injEq, true_and] at h
  obtain ⟨hslug, htitle, hsections, hextra⟩ := h
  have hs := List.map_eq_map_of_imp hsections fun _ _ => Section.dumped_eq_of_toJson_eq
  rw [dumped, dumped, hslug, htitle, hs, hextra]

theorem Colors.dumped_eq_of_toJson_eq {colors other : Colors} (h : colors.toJson = other.toJson) :
    colors.dumped = other.dumped := by
  simp only [Colors.toJson, Json.object.injEq, List.cons_append, List.nil_append, List.cons.injEq,
    Prod.mk.injEq, Json.string.injEq, true_and] at h
  obtain ⟨hprimary, hsecondary, hextra⟩ := h
  rw [dumped, dumped, hprimary, hsecondary, hextra]

theorem Website.dumped_eq_of_toJson_eq {website other : Website}
    (h : website.toJson = other.toJson) : website.dumped = other.dumped := by
  simp only [Website.toJson, Json.object.injEq, Json.array.injEq, List.cons_append, List.nil_append,
    List.cons.injEq, Prod.mk.injEq, Json.string.injEq, true_and] at h
  obtain ⟨hname, hcolors, hpages, hextra⟩ := h
  have hp := List.map_eq_map_of_imp hpages fun _ _ => Page.dumped_eq_of_toJson_eq
  rw [dumped, dumped, hname, Colors.dumped_eq_of_toJson_eq hcolors, hp, hextra]

theorem Schema.dumped_eq_of_toJson_eq {schema other : Schema} (h : schema.toJson = other.toJson) :
    schema.dumped = other.dumped := by
  simp only [Schema.toJson, Schema.fields, Json.object.injEq, List.cons.injEq, Prod.mk.injEq,
    true_and] at h
  obtain ⟨hwebsite, hextra⟩ := h
  rw [dumped, dumped, Website.dumped_eq_of_toJson_eq hwebsite, hextra]

/-! ## The source -/

theorem Prompt.lines_append_singleton {texts : List String} (h : texts ≠ []) (last : String) :
    lines (texts ++ [last]) = lines texts ++ "\n" ++ last := by
  rw [lines, String.intercalate_append_of_ne_nil h (List.cons_ne_nil last []),
    String.intercalate_singleton, lines]

namespace Schema

open Generation

variable {limit : Option Nat} {schema other : Schema}

theorem exists_contentPrompt_eq (schema : Schema) :
    ∃ front, schema.contentPrompt = front ++ schema.source := by
  have hsplit (front rest : List String) (last : String) (hf : front ≠ []) :
      ∃ text, Prompt.lines (front ++ (rest ++ [last])) = text ++ last := by
    have hne : front ++ rest ≠ [] := List.append_ne_nil_of_left_ne_nil hf rest
    exact ⟨_, by rw [← List.append_assoc, Prompt.lines_append_singleton hne]⟩
  rw [contentPrompt]
  exact hsplit _ ["", _, _, _, "", _] schema.source (by simp)

theorem readWithin_source (h : schema.toJson.ReadableWithin limit) :
    Json.readWithin limit schema.source = .ok schema.toJson :=
  Json.readWithin_print rfl h

theorem dumped_eq_of_source_eq (h : schema.toJson.ReadableWithin limit)
    (ho : other.toJson.ReadableWithin limit) (he : other.source = schema.source) :
    other.dumped = schema.dumped := by
  have hr := readWithin_source ho
  rw [he, readWithin_source h] at hr
  exact dumped_eq_of_toJson_eq (Except.ok.inj hr).symm

theorem IsFinite.eq_of_dumped_eq (hf : schema.IsFinite) (ho : other.IsFinite)
    (h : other.dumped = schema.dumped) : other = schema := by
  rw [← ho, ← hf, h]

/-- The file of the schema shows the source, whatever the registry writes into the others. -/
theorem source_eq_of_generate {registry another : Registry} {files others : FileSet}
    (h : registry.generate schema = .ok files) (ho : another.generate other = .ok others)
    (he : Dict.get? others "lib/websiteSchema.ts" = Dict.get? files "lib/websiteSchema.ts") :
    other.source = schema.source := by
  rw [Registry.schemaModule_of_generate h, Registry.schemaModule_of_generate ho] at he
  have htexts := Option.some.inj he
  rw [String.append_left_inj, String.append_right_inj] at htexts
  exact htexts

/-- The source of a schema is embedded as it is and loses nothing: between two fixed texts in its
file of a generated project, and at the end of the prompt. It reads as the JSON of the schema,
whatever limit the reader puts on integers, none included, as long as the schema keeps to it; and
schemas with the same source, or with the same file, are the same if all their numbers are finite.
For any others at most the infinite numbers differ. -/
theorem source_embedded (h : schema.toJson.ReadableWithin limit) :
    (∃ files, Registry.default.generate schema = .ok files) ∧
    (∀ (registry : Registry) files, registry.generate schema = .ok files →
      Dict.get? files "lib/websiteSchema.ts" =
        some (moduleHead ++ schema.source ++ moduleTail)) ∧
    (∃ front, schema.contentPrompt = front ++ schema.source) ∧
    Json.readWithin limit schema.source = .ok schema.toJson ∧
    (∀ other : Schema, other.toJson.ReadableWithin limit → other.source = schema.source →
      other.dumped = schema.dumped ∧ (schema.IsFinite → other.IsFinite → other = schema)) ∧
    ∀ (other : Schema) (registry another : Registry) (files others : FileSet),
      other.toJson.ReadableWithin limit →
      registry.generate schema = .ok files → another.generate other = .ok others →
      Dict.get? others "lib/websiteSchema.ts" = Dict.get? files "lib/websiteSchema.ts" →
        other.dumped = schema.dumped ∧ (schema.IsFinite → other.IsFinite → other = schema) := by
  have hsame : ∀ other : Schema, other.toJson.ReadableWithin limit →
      other.source = schema.source →
      other.dumped = schema.dumped ∧ (schema.IsFinite → other.IsFinite → other = schema) := by
    intro other ho he
    have hd := dumped_eq_of_source_eq h ho he
    exact ⟨hd, fun hf hof => hf.eq_of_dumped_eq hof hd⟩
  refine ⟨Registry.exists_generate Registry.renders_default schema,
    fun _ _ hg => Registry.schemaModule_of_generate hg, exists_contentPrompt_eq schema,
    readWithin_source h, hsame, ?_⟩
  intro other registry another files others ho hg hother he
  exact hsame other ho (source_eq_of_generate hg hother he)

/-- Texts with markers of templates, quotes and line feeds, and beside them an integer, a numeral
with a point, an empty object and a null. -/
def markers (count : Int) : Schema where
  website :=
    { name := "\x7b\x7b site_name \x7d\x7d"
      colors := Colors.default
      pages :=
        [{ slug := "home"
           title := "\"\n as const;\\"
           sections := [⟨"a", "hero", [("count", .int count), ("empty", .object [])], []⟩]
           extra := [("note", .null)] }] }
  extra := [("one", .int 1), ("point", .float (Decimal.mk false 10 (-1)).rounded)]

theorem source_embedded_markers : (markers (10 ^ 4300)).toJson.ReadableWithin none ∧
    (∃ front, (markers (10 ^ 4300)).contentPrompt = front ++ (markers (10 ^ 4300)).source) ∧
    Json.readWithin none (markers (10 ^ 4300)).source = .ok (markers (10 ^ 4300)).toJson := by
  have h (count : Int) : (markers count).toJson.ReadableWithin none := by
    have hfinite : (Decimal.mk false 10 (-1)).rounded.isInfinite = false := by decide +kernel
    simp [markers, Schema.toJson, Schema.fields, Website.toJson, Colors.toJson, Colors.default,
      Page.toJson, Section.toJson, Json.dumped, Json.dumpedFields, Json.ReadableWithin,
      Json.ReadableFields, Json.ReadableItems, Json.admits, Dict.keys, Decimal.rounded_rounded,
      hfinite]
  exact ⟨h _, (source_embedded (h _)).2.2.1, (source_embedded (h _)).2.2.2.1⟩

end Schema

end Sitewright
