import Sitewright.Proofs.Checked
import Sitewright.Proofs.Dictionary
import Sitewright.Proofs.Json.Dumped
import Sitewright.Schema.Decode

/-!
# Schemas as JSON and back

A schema is tidy if at no level an entry of `extra` bears the name of a declared entry, and all keys
there are whole. Every schema that is read is tidy, and a tidy schema written as JSON reads as itself
but for its infinite numbers, in whose place it has null.
-/

namespace Sitewright

structure Section.Tidy (s : Section) : Prop where
  extra : Fields.Extra Section.keys s.extra

structure Page.Tidy (page : Page) : Prop where
  sections : ∀ s ∈ page.sections, s.Tidy
  extra : Fields.Extra Page.keys page.extra

structure Colors.Tidy (colors : Colors) : Prop where
  extra : Fields.Extra Colors.keys colors.extra

structure Website.Tidy (website : Website) : Prop where
  colors : website.colors.Tidy
  pages : ∀ page ∈ website.pages, page.Tidy
  extra : Fields.Extra Website.keys website.extra

structure Schema.Tidy (schema : Schema) : Prop where
  website : schema.website.Tidy
  extra : Fields.Extra Schema.keys schema.extra

theorem Section.propsOfJson_eq_ok_iff {value : Json} {props : Fields} :
    Section.propsOfJson value = .ok props ↔ value = .null ∧ props = [] ∨ value = .object props := by
  cases value <;>
    simp [Section.propsOfJson, Checked.dictionary, Checked.valid, Checked.fail, Checked.invalid,
      eq_comm]

theorem Section.ofFields_eq_ok_iff {fields : Fields} {s : Section} :
    Section.ofFields fields = .ok s ↔
      Dict.get? fields "id" = some (.string s.id) ∧
      Dict.get? fields "type" = some (.string s.type) ∧
      ((∃ value, Dict.get? fields "props" = some value ∧ Section.propsOfJson value = .ok s.props) ∨
        Dict.get? fields "props" = none ∧ s.props = []) ∧
      s.extra = Dict.without Section.keys fields := by
  obtain ⟨id, type, props, extra⟩ := s
  simp only [Section.ofFields, Checked.record₄_eq_ok_iff, Checked.required_eq_ok_iff,
    Checked.optional_eq_ok_iff, Checked.text_eq_ok_iff, Checked.pure_eq_ok_iff, Section.mk.injEq]
  simp [eq_comm]

theorem Page.ofFields_eq_ok_iff {fields : Fields} {page : Page} :
    Page.ofFields fields = .ok page ↔
      Dict.get? fields "slug" = some (.string page.slug) ∧
      Dict.get? fields "title" = some (.string page.title) ∧
      ((∃ values, Dict.get? fields "sections" = some (.array values) ∧
          List.Forall₂ (fun value s => Section.ofJson value = .ok s) values page.sections) ∨
        Dict.get? fields "sections" = none ∧ page.sections = []) ∧
      page.extra = Dict.without Page.keys fields := by
  obtain ⟨slug, title, sections, extra⟩ := page
  simp only [Page.ofFields, Checked.record₄_eq_ok_iff, Checked.required_eq_ok_iff,
    Checked.optional_eq_ok_iff, Checked.text_eq_ok_iff, Checked.list_eq_ok_iff,
    Checked.pure_eq_ok_iff, Page.mk.injEq]
  simp [eq_comm]

theorem Colors.ofFields_eq_ok_iff {fields : Fields} {colors : Colors} :
    Colors.ofFields fields = .ok colors ↔
      (Dict.get? fields "primary" = some (.string colors.primary) ∨
        Dict.get? fields "primary" = none ∧ colors.primary = Colors.default.primary) ∧
      (Dict.get? fields "secondary" = some (.string colors.secondary) ∨
        Dict.get? fields "secondary" = none ∧ colors.secondary = Colors.default.secondary) ∧
      colors.extra = Dict.without Colors.keys fields := by
  obtain ⟨primary, secondary, extra⟩ := colors
  simp only [Colors.ofFields, Checked.record₃_eq_ok_iff, Checked.optional_eq_ok_iff,
    Checked.text_eq_ok_iff, Checked.pure_eq_ok_iff, Colors.mk.injEq]
  simp [eq_comm]

theorem Website.ofFields_eq_ok_iff {fields : Fields} {website : Website} :
    Website.ofFields fields = .ok website ↔
      Dict.get? fields "name" = some (.string website.name) ∧
      ((∃ value, Dict.get? fields "colors" = some value ∧ Colors.ofJson value = .ok website.colors) ∨
        Dict.get? fields "colors" = none ∧ website.colors = Colors.default) ∧
      ((∃ values, Dict.get? fields "pages" = some (.array values) ∧
          List.Forall₂ (fun value page => Page.ofJson value = .ok page) values website.pages) ∨
        Dict.get? fields "pages" = none ∧ website.pages = []) ∧
      website.extra = Dict.without Website.keys fields := by
  obtain ⟨name, colors, pages, extra⟩ := website
  simp only [Website.ofFields, Checked.record₄_eq_ok_iff, Checked.required_eq_ok_iff,
    Checked.optional_eq_ok_iff, Checked.text_eq_ok_iff, Checked.list_eq_ok_iff,
    Checked.pure_eq_ok_iff, Website.mk.injEq]
  simp [eq_comm]

theorem Schema.ofFields_eq_ok_iff {fields : Fields} {schema : Schema} :
    Schema.ofFields fields = .ok schema ↔
      (∃ value, Dict.get? fields "website" = some value ∧
        Website.ofJson value = .ok schema.website) ∧
      schema.extra = Dict.without Schema.keys fields := by
  obtain ⟨website, extra⟩ := schema
  simp only [Schema.ofFields, Checked.record₂_eq_ok_iff, Checked.required_eq_ok_iff,
    Checked.pure_eq_ok_iff, Schema.mk.injEq]
  simp [eq_comm]

/-! ## Without infinite numbers -/

theorem Fields.Extra.dumped {declared : List String} {extra : Fields}
    (h : Fields.Extra declared extra) : Fields.Extra declared (Json.dumpedFields extra) := by
  refine ⟨?_, by simpa using h.whole⟩
  rw [Json.dumpedFields_eq_map, Dict.Avoids, List.forall_mem_map]
  exact h.avoids

def Section.dumped (s : Section) : Section :=
  { s with props := Json.dumpedFields s.props, extra := Json.dumpedFields s.extra }

def Page.dumped (page : Page) : Page :=
  { page with
    sections := page.sections.map Section.dumped
    extra := Json.dumpedFields page.extra }

def Colors.dumped (colors : Colors) : Colors :=
  { colors with extra := Json.dumpedFields colors.extra }

def Website.dumped (website : Website) : Website :=
  { website with
    colors := website.colors.dumped
    pages := website.pages.map Page.dumped
    extra := Json.dumpedFields website.extra }

def Schema.dumped (schema : Schema) : Schema :=
  ⟨schema.website.dumped, Json.dumpedFields schema.extra⟩

def Schema.IsFinite (schema : Schema) : Prop :=
  schema.dumped = schema

@[simp] theorem Section.toJson_dumped (s : Section) : s.dumped.toJson = s.toJson := by
  simp [toJson, dumped]

@[simp] theorem Page.toJson_dumped (page : Page) : page.dumped.toJson = page.toJson := by
  simp [toJson, dumped]

@[simp] theorem Colors.toJson_dumped (colors : Colors) : colors.dumped.toJson = colors.toJson := by
  simp [toJson, dumped]

@[simp] theorem Website.toJson_dumped (website : Website) :
    website.dumped.toJson = website.toJson := by
  simp [toJson, dumped]

@[simp] theorem Schema.fields_dumped (schema : Schema) : schema.dumped.fields = schema.fields := by
  simp [fields, dumped]

@[simp] theorem Schema.toJson_dumped (schema : Schema) : schema.dumped.toJson = schema.toJson := by
  rw [toJson, fields_dumped, toJson]

theorem Section.dumped_dumped (s : Section) : s.dumped.dumped = s.dumped := by
  simp [dumped]

theorem Page.dumped_dumped (page : Page) : page.dumped.dumped = page.dumped := by
  simp [dumped, Section.dumped_dumped]

theorem Schema.finite_dumped (schema : Schema) : schema.dumped.IsFinite := by
  simp [IsFinite, dumped, Website.dumped, Colors.dumped, Page.dumped_dumped]

/-! ## Tidy schemas read as themselves -/

theorem Section.ofJson_toJson {s : Section} (h : s.Tidy) :
    Section.ofJson s.toJson = .ok s.dumped := by
  rw [ofJson, toJson, Checked.openRecord_append h.extra.dumped (by simp [keys])]
  refine Section.ofFields_eq_ok_iff.mpr
    ⟨?_, ?_, Or.inl ⟨.object (Json.dumpedFields s.props), ?_, ?_⟩, ?_⟩
  · simp [Dict.get?_cons, dumped]
  · simp [Dict.get?_cons, dumped]
  · simp [Dict.get?_cons]
  · exact Section.propsOfJson_eq_ok_iff.mpr (Or.inr rfl)
  · exact (h.extra.dumped.without_append (by simp [keys])).symm

theorem Page.ofJson_toJson {page : Page} (h : page.Tidy) :
    Page.ofJson page.toJson = .ok page.dumped := by
  rw [ofJson, toJson, Checked.openRecord_append h.extra.dumped (by simp [keys])]
  refine Page.ofFields_eq_ok_iff.mpr
    ⟨?_, ?_, Or.inl ⟨page.sections.map Section.toJson, ?_, ?_⟩, ?_⟩
  · simp [Dict.get?_cons, dumped]
  · simp [Dict.get?_cons, dumped]
  · simp [Dict.get?_cons]
  · rw [dumped, List.forall₂_map_left_iff, List.forall₂_map_right_iff]
    exact List.forall₂_same.mpr fun s hs => Section.ofJson_toJson (h.sections s hs)
  · exact (h.extra.dumped.without_append (by simp [keys])).symm

theorem Colors.ofJson_toJson {colors : Colors} (h : colors.Tidy) :
    Colors.ofJson colors.toJson = .ok colors.dumped := by
  rw [ofJson, toJson, Checked.openRecord_append h.extra.dumped (by simp [keys])]
  refine Colors.ofFields_eq_ok_iff.mpr ⟨Or.inl ?_, Or.inl ?_, ?_⟩
  · simp [Dict.get?_cons, dumped]
  · simp [Dict.get?_cons, dumped]
  · exact (h.extra.dumped.without_append (by simp [keys])).symm

theorem Website.ofJson_toJson {website : Website} (h : website.Tidy) :
    Website.ofJson website.toJson = .ok website.dumped := by
  rw [ofJson, toJson, Checked.openRecord_append h.extra.dumped (by simp [keys])]
  refine Website.ofFields_eq_ok_iff.mpr
    ⟨?_, Or.inl ⟨website.colors.toJson, ?_, Colors.ofJson_toJson h.colors⟩,
      Or.inl ⟨website.pages.map Page.toJson, ?_, ?_⟩, ?_⟩
  · simp [Dict.get?_cons, dumped]
  · simp [Dict.get?_cons]
  · simp [Dict.get?_cons]
  · rw [dumped, List.forall₂_map_left_iff, List.forall₂_map_right_iff]
    exact List.forall₂_same.mpr fun page hp => Page.ofJson_toJson (h.pages page hp)
  · exact (h.extra.dumped.without_append (by simp [keys])).symm

theorem Schema.ofJson_toJson {schema : Schema} (h : schema.Tidy) :
    Schema.ofJson schema.toJson = .ok schema.dumped := by
  have hf : ∀ entry ∈ [("website", schema.website.toJson)], entry.1 ∈ keys := by simp [keys]
  rw [ofJson, toJson, fields, ← List.singleton_append, Checked.openRecord_append h.extra.dumped hf]
  refine Schema.ofFields_eq_ok_iff.mpr
    ⟨⟨schema.website.toJson, ?_, Website.ofJson_toJson h.website⟩, ?_⟩
  · simp [Dict.get?_cons]
  · exact (h.extra.dumped.without_append hf).symm

/-! ## What is read is tidy -/

theorem Section.tidy_of_ofJson {value : Json} {s : Section} (h : Section.ofJson value = .ok s) :
    s.Tidy := by
  obtain ⟨fields, -, hx, hf⟩ := Checked.openRecord_eq_ok_iff.mp h
  obtain ⟨-, -, -, he⟩ := Section.ofFields_eq_ok_iff.mp hf
  exact ⟨he ▸ hx⟩

theorem Page.tidy_of_ofJson {value : Json} {page : Page} (h : Page.ofJson value = .ok page) :
    page.Tidy := by
  obtain ⟨fields, -, hx, hf⟩ := Checked.openRecord_eq_ok_iff.mp h
  obtain ⟨-, -, hs, he⟩ := Page.ofFields_eq_ok_iff.mp hf
  refine ⟨?_, he ▸ hx⟩
  rcases hs with ⟨values, -, hv⟩ | ⟨-, hn⟩
  · intro s hm
    obtain ⟨value, -, hr⟩ := Outcome.exists_of_mem_right hv hm
    exact Section.tidy_of_ofJson hr
  · simp [hn]

theorem Colors.tidy_default : Colors.default.Tidy :=
  ⟨Fields.extra_nil _⟩

theorem Colors.tidy_of_ofJson {value : Json} {colors : Colors}
    (h : Colors.ofJson value = .ok colors) : colors.Tidy := by
  obtain ⟨fields, -, hx, hf⟩ := Checked.openRecord_eq_ok_iff.mp h
  obtain ⟨-, -, he⟩ := Colors.ofFields_eq_ok_iff.mp hf
  exact ⟨he ▸ hx⟩

theorem Website.tidy_of_ofJson {value : Json} {website : Website}
    (h : Website.ofJson value = .ok website) : website.Tidy := by
  obtain ⟨fields, -, hx, hf⟩ := Checked.openRecord_eq_ok_iff.mp h
  obtain ⟨-, hc, hs, he⟩ := Website.ofFields_eq_ok_iff.mp hf
  refine ⟨?_, ?_, he ▸ hx⟩
  · rcases hc with ⟨value, -, hv⟩ | ⟨-, hn⟩
    · exact Colors.tidy_of_ofJson hv
    · exact hn ▸ Colors.tidy_default
  · rcases hs with ⟨values, -, hv⟩ | ⟨-, hn⟩
    · intro page hm
      obtain ⟨value, -, hr⟩ := Outcome.exists_of_mem_right hv hm
      exact Page.tidy_of_ofJson hr
    · simp [hn]

theorem Schema.tidy_of_ofJson {value : Json} {schema : Schema}
    (h : Schema.ofJson value = .ok schema) : schema.Tidy := by
  obtain ⟨fields, -, hx, hf⟩ := Checked.openRecord_eq_ok_iff.mp h
  obtain ⟨⟨value, -, hw⟩, he⟩ := Schema.ofFields_eq_ok_iff.mp hf
  exact ⟨Website.tidy_of_ofJson hw, he ▸ hx⟩

/-! ## Tidy schemas without infinite numbers -/

theorem Section.Tidy.dumped {s : Section} (h : s.Tidy) : s.dumped.Tidy :=
  ⟨h.extra.dumped⟩

theorem Page.Tidy.dumped {page : Page} (h : page.Tidy) : page.dumped.Tidy := by
  refine ⟨?_, h.extra.dumped⟩
  simp only [Page.dumped, List.forall_mem_map]
  exact fun s hs => (h.sections s hs).dumped

theorem Schema.Tidy.dumped {schema : Schema} (h : schema.Tidy) : schema.dumped.Tidy := by
  refine ⟨⟨⟨h.website.colors.extra.dumped⟩, ?_, h.website.extra.dumped⟩, h.extra.dumped⟩
  simp only [Schema.dumped, Website.dumped, List.forall_mem_map]
  exact fun page hp => (h.website.pages page hp).dumped

/-! ## Reading after the numbers are gone

The JSON without its infinite numbers reads as the schema without them. -/

theorem Checked.forall₂_dumped {α : Type} {check : Json → Checked α} {dumped : α → α}
    {values : List Json} {items : List α}
    (h : List.Forall₂ (fun value item => check value = .ok item) values items)
    (hd : ∀ value item, check value = .ok item → check value.dumped = .ok (dumped item)) :
    List.Forall₂ (fun value item => check value = .ok item) (Json.dumpedItems values)
      (items.map dumped) := by
  rw [Json.dumpedItems_eq_map, List.forall₂_map_left_iff, List.forall₂_map_right_iff]
  exact h.imp hd

theorem Section.ofJson_dumped {value : Json} {s : Section} (h : Section.ofJson value = .ok s) :
    Section.ofJson value.dumped = .ok s.dumped := by
  obtain ⟨fields, rfl, hx, hf⟩ := Checked.openRecord_eq_ok_iff.mp h
  obtain ⟨hid, htype, hprops, he⟩ := Section.ofFields_eq_ok_iff.mp hf
  rw [Json.dumped, ofJson, Checked.openRecord_eq_ok_iff]
  refine ⟨_, rfl, Json.without_dumpedFields keys fields ▸ hx.dumped,
    Section.ofFields_eq_ok_iff.mpr ?_⟩
  simp only [Json.get?_dumpedFields, Json.without_dumpedFields, hid, htype]
  refine ⟨rfl, rfl, ?_, by rw [dumped, he]⟩
  rcases hprops with ⟨found, hg, hr⟩ | ⟨hn, hp⟩
  · refine Or.inl ⟨found.dumped, by rw [hg, Option.map_some], ?_⟩
    rcases Section.propsOfJson_eq_ok_iff.mp hr with ⟨rfl, hp⟩ | rfl
    · exact Section.propsOfJson_eq_ok_iff.mpr (Or.inl ⟨rfl, by rw [dumped, hp, Json.dumpedFields]⟩)
    · exact Section.propsOfJson_eq_ok_iff.mpr (Or.inr rfl)
  · exact Or.inr ⟨by rw [hn, Option.map_none], by rw [dumped, hp, Json.dumpedFields]⟩

theorem Page.ofJson_dumped {value : Json} {page : Page} (h : Page.ofJson value = .ok page) :
    Page.ofJson value.dumped = .ok page.dumped := by
  obtain ⟨fields, rfl, hx, hf⟩ := Checked.openRecord_eq_ok_iff.mp h
  obtain ⟨hslug, htitle, hsections, he⟩ := Page.ofFields_eq_ok_iff.mp hf
  rw [Json.dumped, ofJson, Checked.openRecord_eq_ok_iff]
  refine ⟨_, rfl, Json.without_dumpedFields keys fields ▸ hx.dumped,
    Page.ofFields_eq_ok_iff.mpr ?_⟩
  simp only [Json.get?_dumpedFields, Json.without_dumpedFields, hslug, htitle]
  refine ⟨rfl, rfl, ?_, by rw [dumped, he]⟩
  rcases hsections with ⟨values, hg, hr⟩ | ⟨hn, hs⟩
  · exact Or.inl ⟨Json.dumpedItems values, by rw [hg, Option.map_some, Json.dumped],
      Checked.forall₂_dumped hr fun _ _ => Section.ofJson_dumped⟩
  · exact Or.inr ⟨by rw [hn, Option.map_none], by rw [dumped, hs, List.map_nil]⟩

theorem Colors.ofJson_dumped {value : Json} {colors : Colors}
    (h : Colors.ofJson value = .ok colors) : Colors.ofJson value.dumped = .ok colors.dumped := by
  obtain ⟨fields, rfl, hx, hf⟩ := Checked.openRecord_eq_ok_iff.mp h
  obtain ⟨hprimary, hsecondary, he⟩ := Colors.ofFields_eq_ok_iff.mp hf
  rw [Json.dumped, ofJson, Checked.openRecord_eq_ok_iff]
  refine ⟨_, rfl, Json.without_dumpedFields keys fields ▸ hx.dumped,
    Colors.ofFields_eq_ok_iff.mpr ?_⟩
  simp only [Json.get?_dumpedFields, Json.without_dumpedFields]
  refine ⟨?_, ?_, by rw [dumped, he]⟩
  · exact hprimary.imp (fun hg => by rw [hg]; rfl) fun ⟨hn, hd⟩ => ⟨by rw [hn]; rfl, hd⟩
  · exact hsecondary.imp (fun hg => by rw [hg]; rfl) fun ⟨hn, hd⟩ => ⟨by rw [hn]; rfl, hd⟩

theorem Website.ofJson_dumped {value : Json} {website : Website}
    (h : Website.ofJson value = .ok website) : Website.ofJson value.dumped = .ok website.dumped := by
  obtain ⟨fields, rfl, hx, hf⟩ := Checked.openRecord_eq_ok_iff.mp h
  obtain ⟨hname, hcolors, hpages, he⟩ := Website.ofFields_eq_ok_iff.mp hf
  rw [Json.dumped, ofJson, Checked.openRecord_eq_ok_iff]
  refine ⟨_, rfl, Json.without_dumpedFields keys fields ▸ hx.dumped,
    Website.ofFields_eq_ok_iff.mpr ?_⟩
  simp only [Json.get?_dumpedFields, Json.without_dumpedFields, hname]
  refine ⟨rfl, ?_, ?_, by rw [dumped, he]⟩
  · rcases hcolors with ⟨found, hg, hr⟩ | ⟨hn, hc⟩
    · exact Or.inl ⟨found.dumped, by rw [hg, Option.map_some], Colors.ofJson_dumped hr⟩
    · exact Or.inr ⟨by rw [hn, Option.map_none], by rw [dumped, hc]; rfl⟩
  · rcases hpages with ⟨values, hg, hr⟩ | ⟨hn, hp⟩
    · exact Or.inl ⟨Json.dumpedItems values, by rw [hg, Option.map_some, Json.dumped],
        Checked.forall₂_dumped hr fun _ _ => Page.ofJson_dumped⟩
    · exact Or.inr ⟨by rw [hn, Option.map_none], by rw [dumped, hp, List.map_nil]⟩

theorem Schema.ofJson_dumped {value : Json} {schema : Schema}
    (h : Schema.ofJson value = .ok schema) : Schema.ofJson value.dumped = .ok schema.dumped := by
  obtain ⟨fields, rfl, hx, hf⟩ := Checked.openRecord_eq_ok_iff.mp h
  obtain ⟨⟨found, hg, hw⟩, he⟩ := Schema.ofFields_eq_ok_iff.mp hf
  rw [Json.dumped, ofJson, Checked.openRecord_eq_ok_iff]
  refine ⟨_, rfl, Json.without_dumpedFields keys fields ▸ hx.dumped,
    Schema.ofFields_eq_ok_iff.mpr ?_⟩
  simp only [Json.get?_dumpedFields, Json.without_dumpedFields]
  exact ⟨⟨found.dumped, by rw [hg, Option.map_some], Website.ofJson_dumped hw⟩,
    by rw [dumped, he]⟩

theorem Schema.finite_of_ofJson {value : Json} {schema : Schema} (hv : value.IsFinite)
    (h : Schema.ofJson value = .ok schema) : schema.IsFinite := by
  have hd := Schema.ofJson_dumped h
  rw [Json.dumped_of_finite value hv, h] at hd
  exact (Except.ok.inj hd).symm

end Sitewright
