import Sitewright.Proofs.Editor.Sections
import Sitewright.Proofs.Enrichment.Passes

/-!
# Enrichment section by section

Under stable rules enrichment is a map over the sections of a schema, by a function of the name of
the website and the section alone. As it keeps ids, it commutes with the edits that add a page or
remove a section.
-/

namespace Sitewright

namespace Registry

variable {registry : Registry} {f : String → Section → Section}

/-- Enrichment of any section is the application of a function. -/
theorem exists_sectionMap (hr : registry.Stable) :
    ∃ f : String → Section → Section, ∀ name s, registry.enrichSection name s = .ok (f name s) := by
  choose f hf using fun name s => exists_enrichSection hr name s
  exact ⟨f, fun name s => (hf name s).1⟩

theorem enrich_eq_mapSections (hf : ∀ name s, registry.enrichSection name s = .ok (f name s))
    (schema : Schema) : registry.enrich schema = .ok (schema.mapSections (f schema.name)) := by
  refine enrich_eq_ok_iff.mpr ⟨_, Outcome.mapM_eq_ok_map fun page _ => ?_, rfl⟩
  exact enrichPage_eq_ok_iff.mpr ⟨_, Outcome.mapM_eq_ok_map fun s _ => hf schema.name s, rfl⟩

/-- An edit commutes with enrichment if it commutes with the map of the sections and keeps the name
of the website. -/
theorem edit_bind_enrich (hf : ∀ name s, registry.enrichSection name s = .ok (f name s))
    (edit : Schema → Except SiteError Schema) {schema : Schema}
    (hname : ∀ edited, edit schema = .ok edited → edited.name = schema.name)
    (hmap : edit (schema.mapSections (f schema.name)) =
      (edit schema).map (Schema.mapSections (f schema.name))) :
    edit schema >>= registry.enrich = registry.enrich schema >>= edit := by
  have hright : registry.enrich schema >>= edit =
      (edit schema).map (Schema.mapSections (f schema.name)) := by
    rw [enrich_eq_mapSections hf]
    exact hmap
  rw [hright]
  cases he : edit schema with
  | error cause => rfl
  | ok edited =>
      change registry.enrich edited = .ok (edited.mapSections (f schema.name))
      rw [enrich_eq_mapSections hf, hname edited he]

/-- Under the default rules it is all one whether a section is removed, or a page added, before
enrichment or after it, also where that cannot be done. And what enrichment makes of a section is
the same at every place of every schema with the same name. -/
theorem enrich_commutes_with_edits :
    (∀ (schema : Schema) (slug id : String),
      schema.removeSection slug id >>= Registry.default.enrich =
        Registry.default.enrich schema >>= fun enriched => enriched.removeSection slug id) ∧
    (∀ (schema : Schema) (title : String),
      schema.addPage title >>= Registry.default.enrich =
        Registry.default.enrich schema >>= fun enriched => enriched.addPage title) ∧
    ∀ schema other : Schema, schema.name = other.name → ∃ enriched enriched',
      Registry.default.enrich schema = .ok enriched ∧
      Registry.default.enrich other = .ok enriched' ∧
      ∀ (page place page' place' : Nat) (s : Section),
        schema.sectionAt? page place = some s → other.sectionAt? page' place' = some s →
          ∃ later, enriched.sectionAt? page place = some later ∧
            enriched'.sectionAt? page' place' = some later := by
  obtain ⟨f, hf⟩ := exists_sectionMap stable_default
  have hid (name : String) (s : Section) : (f name s).id = s.id :=
    congrArg (·.1) (heading_enrichSection (hf name s))
  refine ⟨?_, ?_, ?_⟩
  · intro schema slug id
    exact edit_bind_enrich hf (fun given => given.removeSection slug id)
      (fun edited => Schema.name_of_removeSection)
      (Schema.removeSection_mapSections (hid schema.name) schema slug id)
  · intro schema title
    exact edit_bind_enrich hf (fun given => given.addPage title)
      (fun edited => Schema.name_of_addPage) (Schema.addPage_mapSections (f schema.name) schema title)
  · intro schema other hname
    refine ⟨_, _, enrich_eq_mapSections hf schema, enrich_eq_mapSections hf other, ?_⟩
    intro page place page' place' s hs hs'
    refine ⟨f schema.name s, ?_, ?_⟩
    · rw [Schema.sectionAt?_mapSections, hs, Option.map_some]
    · rw [Schema.sectionAt?_mapSections, hs', Option.map_some, hname]

end Registry

end Sitewright
