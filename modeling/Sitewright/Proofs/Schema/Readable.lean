import Sitewright.Proofs.Editor.Edits
import Sitewright.Proofs.Json.Readable
import Sitewright.Proofs.Schema.RoundTrip
import Sitewright.Proofs.Synthesis

/-!
# Schemas that can be read back

A schema that is read from readable JSON is readable itself. Edits keep it so as long as the props
they bring along are readable, and what the default registry puts into sections is.
-/

namespace Sitewright

/-! ## Parts of records -/

theorem Json.Readable.of_get? {fields : Fields} {key : String} {value : Json}
    (h : (Json.object fields).Readable) (hg : Dict.get? fields key = some value) :
    value.Readable :=
  (Json.readable_object.mp h).2 _ (Dict.mem_of_get? hg)

theorem Json.Readable.without {fields : Fields} (h : (Json.object fields).Readable)
    (keys : List String) : (Json.object (Dict.without keys fields)).Readable := by
  rw [Json.readable_object] at h ⊢
  refine ⟨?_, fun entry hm => h.2 entry (List.mem_filter.mp hm).1⟩
  rw [Dict.keys_without]
  exact h.1.filter _

theorem Json.Readable.set {fields : Fields} (h : (Json.object fields).Readable) (key : String)
    {value : Json} (hv : value.Readable) : (Json.object (Dict.set key value fields)).Readable := by
  rw [Json.readable_object] at h ⊢
  refine ⟨Dict.nodup_keys_set h.1 value, ?_⟩
  intro entry hm
  rcases Dict.mem_set hm with rfl | hm
  · exact hv
  · exact h.2 entry hm

theorem Json.Readable.overlay {base top : Fields} (hb : (Json.object base).Readable)
    (ht : (Json.object top).Readable) : (Json.object (Dict.overlay base top)).Readable := by
  rw [Json.readable_object] at hb ht ⊢
  refine ⟨Dict.nodup_keys_overlay hb.1 top, ?_⟩
  intro entry hm
  rcases Dict.mem_overlay hm with hm | hm
  · exact hb.2 entry hm
  · exact ht.2 entry hm

/-- A record of declared entries in front and others behind that it may keep. -/
theorem Json.Readable.append {declared : List String} {front extra : Fields}
    (hf : (Json.object front).Readable) (he : (Json.object extra).Readable)
    (hd : ∀ entry ∈ front, entry.1 ∈ declared) (hx : Fields.Extra declared extra) :
    (Json.object (front ++ extra)).Readable := by
  rw [Json.readable_object] at hf he ⊢
  refine ⟨?_, ?_⟩
  · rw [Dict.keys_append, List.nodup_append]
    refine ⟨hf.1, he.1, ?_⟩
    intro key hk other ho heq
    obtain ⟨entry, hm, rfl⟩ := List.mem_map.mp hk
    obtain ⟨later, hl, rfl⟩ := List.mem_map.mp ho
    exact hx.avoids later hl (heq ▸ hd entry hm)
  · intro entry hm
    rcases List.mem_append.mp hm with hm | hm
    · exact hf.2 entry hm
    · exact he.2 entry hm

/-! ## Schemas -/

structure Section.Readable (s : Section) : Prop where
  props : (Json.object s.props).Readable
  extra : (Json.object s.extra).Readable

structure Page.Readable (page : Page) : Prop where
  sections : ∀ s ∈ page.sections, s.Readable
  extra : (Json.object page.extra).Readable

structure Colors.Readable (colors : Colors) : Prop where
  extra : (Json.object colors.extra).Readable

structure Website.Readable (website : Website) : Prop where
  colors : website.colors.Readable
  pages : ∀ page ∈ website.pages, page.Readable
  extra : (Json.object website.extra).Readable

structure Schema.Readable (schema : Schema) : Prop where
  website : schema.website.Readable
  extra : (Json.object schema.extra).Readable

theorem Section.readable_toJson {s : Section} (h : s.Readable) (ht : s.Tidy) :
    s.toJson.Readable := by
  have hp : (Json.object (Json.dumpedFields s.props)).Readable := Json.readable_dumped _ h.props
  refine Json.Readable.append ?_ (Json.readable_dumped _ h.extra) ?_ ht.extra.dumped
  · rw [Json.readable_object]
    simp only [List.forall_mem_cons]
    exact ⟨by simp [Dict.keys], by simp, by simp, hp, by simp⟩
  · simp [keys]

theorem Page.readable_toJson {page : Page} (h : page.Readable) (ht : page.Tidy) :
    page.toJson.Readable := by
  have hs : (Json.array (page.sections.map Section.toJson)).Readable := by
    rw [Json.readable_array, List.forall_mem_map]
    exact fun s hs => Section.readable_toJson (h.sections s hs) (ht.sections s hs)
  refine Json.Readable.append ?_ (Json.readable_dumped _ h.extra) ?_ ht.extra.dumped
  · simp only [Json.readable_object, List.forall_mem_cons]
    exact ⟨by simp [Dict.keys], by simp, by simp, hs, by simp⟩
  · simp [keys]

theorem Colors.readable_toJson {colors : Colors} (h : colors.Readable) (ht : colors.Tidy) :
    colors.toJson.Readable := by
  refine Json.Readable.append ?_ (Json.readable_dumped _ h.extra) ?_ ht.extra.dumped
  · simp only [Json.readable_object, List.forall_mem_cons]
    exact ⟨by simp [Dict.keys], by simp, by simp, by simp⟩
  · simp [keys]

theorem Website.readable_toJson {website : Website} (h : website.Readable) (ht : website.Tidy) :
    website.toJson.Readable := by
  have hp : (Json.array (website.pages.map Page.toJson)).Readable := by
    rw [Json.readable_array, List.forall_mem_map]
    exact fun page hp => Page.readable_toJson (h.pages page hp) (ht.pages page hp)
  refine Json.Readable.append ?_ (Json.readable_dumped _ h.extra) ?_ ht.extra.dumped
  · simp only [Json.readable_object, List.forall_mem_cons]
    exact ⟨by simp [Dict.keys], by simp, Colors.readable_toJson h.colors ht.colors, hp, by simp⟩
  · simp [keys]

theorem Schema.readable_toJson {schema : Schema} (h : schema.Readable) (ht : schema.Tidy) :
    schema.toJson.Readable := by
  have hd : ∀ entry ∈ [("website", schema.website.toJson)], entry.1 ∈ keys := by simp [keys]
  refine Json.Readable.append ?_ (Json.readable_dumped _ h.extra) hd ht.extra.dumped
  simp only [Json.readable_object, List.forall_mem_cons]
  exact ⟨by simp [Dict.keys], Website.readable_toJson h.website ht.website, by simp⟩

theorem Section.Readable.dumped {s : Section} (h : s.Readable) : s.dumped.Readable :=
  ⟨Json.readable_dumped _ h.props, Json.readable_dumped _ h.extra⟩

theorem Page.Readable.dumped {page : Page} (h : page.Readable) : page.dumped.Readable := by
  refine ⟨?_, Json.readable_dumped _ h.extra⟩
  simp only [Page.dumped, List.forall_mem_map]
  exact fun s hs => (h.sections s hs).dumped

theorem Schema.Readable.dumped {schema : Schema} (h : schema.Readable) : schema.dumped.Readable := by
  refine ⟨⟨⟨Json.readable_dumped _ h.website.colors.extra⟩, ?_,
    Json.readable_dumped _ h.website.extra⟩, Json.readable_dumped _ h.extra⟩
  simp only [Schema.dumped, Website.dumped, List.forall_mem_map]
  exact fun page hp => (h.website.pages page hp).dumped

/-! ## What is read from readable JSON -/

theorem Section.readable_of_ofJson {value : Json} {s : Section} (hv : value.Readable)
    (h : Section.ofJson value = .ok s) : s.Readable := by
  obtain ⟨fields, rfl, -, hf⟩ := Checked.openRecord_eq_ok_iff.mp h
  obtain ⟨-, -, hp, he⟩ := Section.ofFields_eq_ok_iff.mp hf
  refine ⟨?_, he ▸ hv.without _⟩
  rcases hp with ⟨props, hg, hr⟩ | ⟨-, hn⟩
  · rcases Section.propsOfJson_eq_ok_iff.mp hr with ⟨-, hn⟩ | rfl
    · simp [hn]
    · exact hv.of_get? hg
  · simp [hn]

theorem Page.readable_of_ofJson {value : Json} {page : Page} (hv : value.Readable)
    (h : Page.ofJson value = .ok page) : page.Readable := by
  obtain ⟨fields, rfl, -, hf⟩ := Checked.openRecord_eq_ok_iff.mp h
  obtain ⟨-, -, hs, he⟩ := Page.ofFields_eq_ok_iff.mp hf
  refine ⟨?_, he ▸ hv.without _⟩
  rcases hs with ⟨values, hg, hr⟩ | ⟨-, hn⟩
  · intro s hm
    obtain ⟨item, hi, ho⟩ := Outcome.exists_of_mem_right hr hm
    exact Section.readable_of_ofJson (Json.readable_array.mp (hv.of_get? hg) item hi) ho
  · simp [hn]

theorem Colors.readable_default : Colors.default.Readable :=
  ⟨by simp [Colors.default]⟩

theorem Colors.readable_of_ofJson {value : Json} {colors : Colors} (hv : value.Readable)
    (h : Colors.ofJson value = .ok colors) : colors.Readable := by
  obtain ⟨fields, rfl, -, hf⟩ := Checked.openRecord_eq_ok_iff.mp h
  obtain ⟨-, -, he⟩ := Colors.ofFields_eq_ok_iff.mp hf
  exact ⟨he ▸ hv.without _⟩

theorem Website.readable_of_ofJson {value : Json} {website : Website} (hv : value.Readable)
    (h : Website.ofJson value = .ok website) : website.Readable := by
  obtain ⟨fields, rfl, -, hf⟩ := Checked.openRecord_eq_ok_iff.mp h
  obtain ⟨-, hc, hp, he⟩ := Website.ofFields_eq_ok_iff.mp hf
  refine ⟨?_, ?_, he ▸ hv.without _⟩
  · rcases hc with ⟨colors, hg, hr⟩ | ⟨-, hn⟩
    · exact Colors.readable_of_ofJson (hv.of_get? hg) hr
    · exact hn ▸ Colors.readable_default
  · rcases hp with ⟨values, hg, hr⟩ | ⟨-, hn⟩
    · intro page hm
      obtain ⟨item, hi, ho⟩ := Outcome.exists_of_mem_right hr hm
      exact Page.readable_of_ofJson (Json.readable_array.mp (hv.of_get? hg) item hi) ho
    · simp [hn]

theorem Schema.readable_of_ofJson {value : Json} {schema : Schema} (hv : value.Readable)
    (h : Schema.ofJson value = .ok schema) : schema.Readable := by
  obtain ⟨fields, rfl, -, hf⟩ := Checked.openRecord_eq_ok_iff.mp h
  obtain ⟨⟨website, hg, hw⟩, he⟩ := Schema.ofFields_eq_ok_iff.mp hf
  exact ⟨Website.readable_of_ofJson (hv.of_get? hg) hw, he ▸ hv.without _⟩

/-! ## Edits -/

structure Registry.Readable (registry : Registry) : Prop where
  defaults : ∀ kind, (Json.object (registry.definition kind).defaultProps).Readable
  synthesis : ∀ kind, (Json.object (registry.definition kind).synthesisProps).Readable

/-- The edits that bring only readable props along. Enrichment is left to the rules. -/
def Edit.Readable : Edit → Prop
  | .updateProps _ _ partialProps => (Json.object partialProps).Readable
  | .enrich => False
  | _ => True

theorem Page.Readable.of_change {registry : Registry} {edit : Edit} {page later : Page}
    (h : page.Readable) (hreg : registry.Readable) (he : edit.Readable)
    (hc : edit.Change registry page later) : later.Readable := by
  cases hc with
  | same => exact h
  | @appended _ _ _ kind _ _ _ s created =>
      obtain ⟨-, -, hprops, hextra⟩ := Registry.createSection_eq_ok created
      have hmade : s.Readable := ⟨hprops ▸ hreg.defaults kind, by simp [hextra]⟩
      refine ⟨?_, h.extra⟩
      intro other hm
      rcases List.mem_append.mp hm with hm | hm
      · exact h.sections other hm
      · exact List.mem_singleton.mp hm ▸ hmade
  | removed => exact ⟨fun s hm => h.sections s (List.mem_filter.mp hm).1, h.extra⟩
  | @updated _ id partialProps _ =>
      refine ⟨?_, h.extra⟩
      intro s hm
      obtain ⟨original, ho, rfl⟩ := List.mem_map.mp hm
      have hr := h.sections original ho
      by_cases hid : (original.id == id) = true
      · rw [if_pos hid]
        exact ⟨hr.props.overlay he, hr.extra⟩
      · rw [if_neg hid]
        exact hr
  | enriched enriches => cases he

theorem Edit.readable_of_apply {registry : Registry} {state next : Edit.State} {edit : Edit}
    {made : Option Section} (hreg : registry.Readable) (he : edit.Readable)
    (h : edit.apply registry state = .ok (next, made)) (hs : state.schema.Readable) :
    next.schema.Readable := by
  obtain ⟨hw, hpages⟩ := changes_of_apply h
  rw [hw]
  refine ⟨⟨hs.website.colors, ?_, hs.website.extra⟩, hs.extra⟩
  intro page hm
  rcases hpages page hm with ⟨title, -, rfl⟩ | ⟨original, ho, hc⟩
  · exact ⟨by simp, by simp⟩
  · exact (hs.website.pages original ho).of_change hreg he hc

/-! ## Synthesis -/

section FillName

variable {limit : Option Nat}

mutual

theorem Json.readable_fillName (name : String) :
    (value : Json) → value.ReadableWithin limit → (value.fillName name).ReadableWithin limit
  | .null, _ => trivial
  | .bool _, _ => trivial
  | .int _, h => h
  | .float _, h => h
  | .string _, _ => trivial
  | .array items, h => readableItems_fillNameItems name items h
  | .object fields, h =>
      ⟨(keys_fillNameFields name fields).symm ▸ h.1, readableFields_fillNameFields name fields h.2⟩

theorem readableItems_fillNameItems (name : String) : (items : List Json) →
    Json.ReadableItems limit items → Json.ReadableItems limit (fillNameItems name items)
  | [], _ => trivial
  | item :: items, h =>
      ⟨Json.readable_fillName name item h.1, readableItems_fillNameItems name items h.2⟩

theorem readableFields_fillNameFields (name : String) : (fields : List (String × Json)) →
    Json.ReadableFields limit fields → Json.ReadableFields limit (fillNameFields name fields)
  | [], _ => trivial
  | (_, value) :: fields, h =>
      ⟨Json.readable_fillName name value h.1, readableFields_fillNameFields name fields h.2⟩

end

end FillName

theorem SitePlan.readable_of_defaultSchema {plan : SitePlan} {name : String}
    {ids next : IdSource} {schema : Schema} (hreg : plan.registry.Readable)
    (h : plan.defaultSchema name ids = .ok (schema, next)) : schema.Readable := by
  obtain ⟨⟨hero, rest⟩, hb, hr⟩ := Outcome.bind_eq_ok_iff.mp h
  obtain ⟨colors, hc, he⟩ := Outcome.bind_pure_eq_ok_iff.mp hr
  cases he
  obtain ⟨-, -, hprops, hextra⟩ := Registry.createSection_eq_ok hb
  have hcolors : colors.Readable := ⟨by simp [extra_of_chooseColors hc]⟩
  refine ⟨⟨hcolors, ?_, by simp⟩, by simp⟩
  intro page hm
  rw [List.mem_singleton.mp hm]
  refine ⟨?_, by simp⟩
  intro s hs
  rw [List.mem_singleton.mp hs]
  refine ⟨?_, by simp [hextra]⟩
  have hfill : (Json.object hero.props).Readable :=
    hprops ▸ Json.readable_fillName name (.object _) (hreg.synthesis .hero)
  exact hfill.set _ (Json.readable_string _)

theorem Registry.readable_default : Registry.default.Readable where
  defaults kind := by
    cases kind <;>
      simp [Dict.keys, Registry.default, SectionKind.defaultDefinition, SectionDefinition.hero,
        SectionDefinition.features, SectionDefinition.services, SectionDefinition.testimonials,
        SectionDefinition.pricing, SectionDefinition.faq, SectionDefinition.cta,
        SectionDefinition.contact, SectionDefinition.gallery, textFields, textRecords,
        highlightedPlan, Json.ofStrings]
  synthesis kind := by
    cases kind <;>
      simp [Dict.keys, Registry.default, SectionKind.defaultDefinition, SectionDefinition.hero,
        SectionDefinition.features, SectionDefinition.services, SectionDefinition.testimonials,
        SectionDefinition.pricing, SectionDefinition.faq, SectionDefinition.cta,
        SectionDefinition.contact, SectionDefinition.gallery, textFields, textRecords,
        highlightedPlan, Json.ofStrings]

end Sitewright
