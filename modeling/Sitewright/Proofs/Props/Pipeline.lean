import Sitewright.Proofs.Enrichment.Passes
import Sitewright.Proofs.Props.Shape
import Sitewright.Proofs.Synthesis

/-!
# Shapes through the pipeline

A schema is shaped if the props of all its sections of known kinds have the shape of the kind. The
data of a registry are shaped if its props are and if its rules write only what the shapes ask for:
texts under the keys of texts, and lists of items of the right shape. Under such a registry
synthesis makes shaped schemas and edits keep them so, however many there are.
-/

namespace Sitewright

/-! ## Shaped schemas -/

def Section.Shaped (s : Section) : Prop :=
  ∀ kind, s.kind? = some kind → ∃ checked, kind.checkProps (.object s.props) = .ok checked

def Page.Shaped (page : Page) : Prop :=
  ∀ s ∈ page.sections, s.Shaped

def Schema.Shaped (schema : Schema) : Prop :=
  ∀ page ∈ schema.pages, page.Shaped

theorem Section.shaped_of_type {s : Section} {kind : SectionKind} (ht : s.type = kind.name)
    (h : kind.propsShape.Admits (.object s.props)) : s.Shaped := by
  intro other hk
  rw [kind?, ht, SectionKind.ofName?_name] at hk
  cases hk
  exact h

/-! ## Rules that keep a shape -/

def Shape.AsksText (shape : Shape) (key : String) : Prop :=
  ∀ field ∈ shape.fields, field.1 = key → field.2 = .text

theorem Shape.Admits.set_text {shape : Shape} {entries : Fields} {key : String}
    (h : shape.Admits (.object entries)) (hk : shape.AsksText key) (text : String) :
    shape.Admits (.object (Dict.set key (.string text) entries)) := by
  apply h.set
  intro field hf hkey
  rw [hk field hf hkey]
  exact Shape.admits_string text

structure ListRule.Fits (rule : ListRule) (item : Shape) : Prop where
  fallback : ∀ value ∈ rule.fallback, item.Admits value
  fill : ∀ key ∈ rule.fillKey, item.AsksText key

structure EnrichmentRule.Fits (rule : EnrichmentRule) (shape : Shape) : Prop where
  texts : ∀ text ∈ rule.textDefaults, shape.AsksText text.1
  list : ∀ list ∈ rule.listRule, ∀ field ∈ shape.fields, field.1 = list.key →
    ∃ item, field.2 = .sequence item ∧ list.Fits item

namespace ListRule

variable {rule : ListRule} {item : Shape} {key : String}

theorem admits_fillItem (hk : item.AsksText key) {index : Nat} {value filled : Json}
    (h : item.Admits value) (hf : rule.fillItem key index value = .ok filled) :
    item.Admits filled := by
  cases value with
  | object fields =>
      obtain ⟨-, rfl⟩ | ⟨-, phrase, -, rfl⟩ := fillItem_object_cases hf
      · exact h
      · exact h.set_text hk phrase
  | null | bool | int | float | string | array =>
      cases hf
      exact h

theorem admits_fillItems (hk : item.AsksText key) {start : Nat} {values filled : List Json}
    (h : ∀ value ∈ values, item.Admits value)
    (hf : rule.fillItems key start values = .ok filled) : ∀ value ∈ filled, item.Admits value := by
  intro value hm
  obtain ⟨entry, he, hi⟩ := Outcome.exists_of_mem_right (forall₂_of_fillItems hf) hm
  exact admits_fillItem hk (h _ (List.fst_mem_of_mem_zipIdx he)) hi

theorem admits_fill (hr : rule.Fits item) {current : Option Json} {filled : List Json}
    (hc : ∀ value, current = some value → value = .null ∨ (Shape.sequence item).Admits value)
    (hf : rule.fill current = .ok filled) : (Shape.sequence item).Admits (.array filled) := by
  refine Shape.admits_sequence_iff.mpr ⟨filled, rfl, ?_⟩
  unfold fill at hf
  split at hf
  · rename_i first rest
    have hitems : ∀ value ∈ first :: rest, item.Admits value := by
      rcases hc _ rfl with hnull | ha
      · cases hnull
      · obtain ⟨values, hv, hall⟩ := Shape.admits_sequence_iff.mp ha
        cases hv
        exact hall
    obtain ⟨-, rfl⟩ | ⟨key, hkey, hfilled⟩ := fill_items_cases hf
    · exact hitems
    · exact admits_fillItems (hr.fill key hkey) hitems hfilled
  · cases hf
    exact hr.fallback

end ListRule

namespace EnrichmentRule

variable {rule : EnrichmentRule} {shape : Shape} {props : Fields}

theorem admits_enrichedText (rule : EnrichmentRule) (name key default : String)
    {current : Option Json}
    (hc : ∀ value, current = some value → value = .null ∨ Shape.text.Admits value) :
    Shape.text.Admits (rule.enrichedText name key default current) := by
  unfold enrichedText
  cases rule.appendedClauses.lookup key with
  | some clause => exact Shape.admits_string _
  | none =>
      by_cases hb : Json.isBlank current = true
      · rw [if_pos hb]
        exact Shape.admits_string _
      · rw [if_neg hb]
        cases current with
        | none => exact absurd rfl hb
        | some value =>
            rcases hc value rfl with rfl | ha
            · exact absurd rfl hb
            · exact ha

theorem admits_applyTexts (rule : EnrichmentRule) (name : String) {texts : List (String × String)}
    (ht : ∀ text ∈ texts, shape.AsksText text.1) (h : shape.Admits (.object props))
    {later : Fields} (ha : rule.applyTexts name texts props = .ok later) :
    shape.Admits (.object later) := by
  induction texts generalizing props with
  | nil =>
      cases ha
      exact h
  | cons text texts ih =>
      obtain ⟨key, default⟩ := text
      rw [List.forall_mem_cons] at ht
      rw [applyTexts] at ha
      split at ha
      · cases ha
      refine ih ht.2 ?_ ha
      apply h.set
      intro field hf hkey
      have hentry := h.entry hf
      rw [Shape.AdmitsField, hkey, ht.1 field hf hkey] at hentry
      rw [ht.1 field hf hkey]
      exact rule.admits_enrichedText name key default hentry

theorem admits_apply (hr : rule.Fits shape) (name : String) {later : Fields}
    (h : shape.Admits (.object props)) (ha : rule.apply name props = .ok later) :
    shape.Admits (.object later) := by
  obtain ⟨texts, hw, ha⟩ : ∃ texts, rule.applyTexts name rule.textDefaults props = .ok texts ∧
      rule.applyList texts = .ok later := by
    unfold apply at ha
    split at ha
    · exact ⟨_, by assumption, ha⟩
    · cases ha
  have htexts := rule.admits_applyTexts name hr.texts h hw
  rw [applyList] at ha
  cases hl : rule.listRule with
  | none =>
      simp only [hl, Except.ok.injEq] at ha
      exact ha ▸ htexts
  | some list =>
      simp only [hl] at ha
      split at ha
      · rename_i items hitems
        cases ha
        apply htexts.set
        intro field hf hkey
        obtain ⟨item, he, hlist⟩ := hr.list list hl field hf hkey
        have hentry := htexts.entry hf
        rw [Shape.AdmitsField, hkey, he] at hentry
        rw [he]
        exact ListRule.admits_fill hlist hentry hitems
      · cases ha

end EnrichmentRule

/-! ## Registries -/

structure Registry.Shaped (registry : Registry) : Prop where
  defaults : ∀ kind : SectionKind,
    kind.propsShape.Admits (.object (registry.definition kind).defaultProps)
  synthesis : ∀ kind : SectionKind,
    kind.propsShape.Admits (.object (registry.definition kind).synthesisProps)
  rules : ∀ kind : SectionKind, (registry.definition kind).enrichment.Fits kind.propsShape

namespace Registry

variable {registry : Registry} {name : String}

theorem shaped_default : Registry.default.Shaped where
  defaults kind := by cases kind <;> exact ⟨_, rfl⟩
  synthesis kind := by cases kind <;> exact ⟨_, rfl⟩
  rules kind := by
    cases kind <;> constructor <;>
      simp [-Prod.forall, Registry.default, SectionKind.defaultDefinition, SectionDefinition.hero,
        SectionDefinition.features, SectionDefinition.services, SectionDefinition.testimonials,
        SectionDefinition.pricing, SectionDefinition.faq, SectionDefinition.cta,
        SectionDefinition.contact, SectionDefinition.gallery, SectionKind.propsShape,
        Shape.AsksText, Shape.fields]
    case services.list | testimonials.list | pricing.list | faq.list =>
      refine ⟨List.forall_mem_singleton.mpr ⟨_, rfl⟩, ?_⟩
      simp [-Prod.forall, Shape.serviceItem, Shape.testimonialItem, Shape.faqItem, Shape.AsksText,
        Shape.fields]
    case features.list | gallery.list =>
      refine ⟨List.forall_mem_cons.mpr ⟨⟨_, rfl⟩, List.forall_mem_singleton.mpr ⟨_, rfl⟩⟩, ?_⟩
      simp [-Prod.forall, Shape.featureItem, Shape.galleryImage, Shape.AsksText, Shape.fields]

theorem shaped_enrichSection (hr : registry.Shaped) {s enriched : Section} (h : s.Shaped)
    (he : registry.enrichSection name s = .ok enriched) : enriched.Shaped := by
  obtain ⟨-, rfl⟩ | ⟨kind, props, hk, ha, rfl⟩ := enrichSection_cases he
  · exact h
  · intro other hother
    cases hk.symm.trans hother
    exact EnrichmentRule.admits_apply (hr.rules kind) name (h kind hk) ha

theorem shaped_enrich (hr : registry.Shaped) {schema enriched : Schema} (h : schema.Shaped)
    (he : registry.enrich schema = .ok enriched) : enriched.Shaped := by
  intro page hp s hs
  obtain ⟨original, ho, hpage⟩ := Outcome.exists_of_mem_right (pages_enrich he) hp
  obtain ⟨sections, hsections, rfl⟩ := enrichPage_eq_ok_iff.mp hpage
  obtain ⟨given, hg, hsection⟩ :=
    Outcome.exists_of_mem_right (Outcome.mapM_eq_ok_iff.mp hsections) hs
  exact shaped_enrichSection hr (h original ho given hg) hsection

end Registry

/-! ## Edits -/

/-- The edits that keep shapes: props that are set have the shape of the kind of every section that
they are set on, with one entry for each key. -/
def Edit.Fits (schema : Schema) : Edit → Prop
  | .updateProps slug id partialProps => (Dict.keys partialProps).Nodup ∧
      ∀ page ∈ schema.pages, page.slug = slug → ∀ s ∈ page.sections, s.id = id →
        ∀ kind, s.kind? = some kind →
          ∃ checked, kind.checkProps (.object partialProps) = .ok checked
  | _ => True

theorem Schema.Shaped.mapPages {schema : Schema} {slug : String} {change : Page → Page}
    (h : schema.Shaped)
    (hc : ∀ page ∈ schema.pages, page.slug = slug → page.Shaped → (change page).Shaped) :
    (schema.mapPages slug change).Shaped := by
  intro page hm
  rw [pages_mapPages] at hm
  obtain ⟨original, ho, rfl⟩ := List.mem_map.mp hm
  by_cases hs : original.slug = slug
  · rw [if_pos hs]
    exact hc original ho hs (h original ho)
  · rw [if_neg hs]
    exact h original ho

namespace Edit

variable {registry : Registry} {state next : State} {made : Option Section}

theorem shaped_of_apply (hr : registry.Shaped) {edit : Edit}
    (h : edit.apply registry state = .ok (next, made)) (hf : edit.Fits state.schema)
    (hs : state.schema.Shaped) : next.schema.Shaped := by
  cases edit with
  | addPage title =>
      obtain ⟨-, -, he⟩ := Schema.addPage_eq_ok_iff.mp (apply_addPage_eq_ok h).1
      rw [he]
      intro page hm
      rcases List.mem_append.mp hm with hm | hm
      · exact hs page hm
      · rw [List.mem_singleton.mp hm]
        exact fun s hempty => nomatch hempty
  | addSection slug type =>
      obtain ⟨s, ha, -⟩ := apply_addSection_eq_ok h
      obtain ⟨kind, found, -, -, hc, he⟩ := Schema.addSection_eq_ok ha
      obtain ⟨-, htype, hprops, -⟩ := Registry.createSection_eq_ok hc
      have hmade : s.Shaped := Section.shaped_of_type htype (hprops ▸ hr.defaults kind)
      rw [he]
      refine hs.mapPages fun page _ _ hpage => ?_
      intro other hm
      rcases List.mem_append.mp hm with hm | hm
      · exact hpage other hm
      · exact List.mem_singleton.mp hm ▸ hmade
  | removeSection slug id =>
      obtain ⟨found, -, -, he⟩ :=
        Schema.changeSection_eq_ok_iff.mp (apply_removeSection_eq_ok h).1
      rw [he]
      exact hs.mapPages fun page _ _ hpage s hm => hpage s (List.mem_filter.mp hm).1
  | updateProps slug id partialProps =>
      obtain ⟨found, -, -, he⟩ :=
        Schema.changeSection_eq_ok_iff.mp (apply_updateProps_eq_ok h).1
      obtain ⟨hn, hpartial⟩ := hf
      rw [he]
      refine hs.mapPages fun page hp hslug hpage => ?_
      intro s hm
      obtain ⟨original, ho, rfl⟩ := List.mem_map.mp hm
      by_cases hid : original.id = id
      · rw [if_pos (beq_iff_eq.mpr hid)]
        intro kind hk
        exact Shape.Admits.overlay (hpage original ho kind hk) hn
          (hpartial page hp hslug original ho hid kind hk)
      · rw [if_neg (by simpa using hid)]
        exact hpage original ho
  | enrich => exact Registry.shaped_enrich hr hs (apply_enrich_eq_ok h).1

def RunFits (registry : Registry) : State → List Edit → Prop
  | _, [] => True
  | state, edit :: edits =>
      (∀ result, edit.apply registry state = .ok result → edit.Fits state.schema) ∧
        RunFits registry (step registry state edit) edits

theorem shaped_run (hr : registry.Shaped) {state : State} {edits : List Edit}
    (hs : state.schema.Shaped) (hf : RunFits registry state edits) :
    (run registry state edits).schema.Shaped := by
  induction edits generalizing state with
  | nil => exact hs
  | cons edit edits ih =>
      rw [run, List.foldl_cons]
      refine ih ?_ hf.2
      cases ha : edit.apply registry state with
      | error cause => simpa only [step, ha] using hs
      | ok result => simpa only [step, ha] using shaped_of_apply hr ha (hf.1 result ha) hs

end Edit

/-! ## Synthesis -/

namespace SitePlan

variable {plan : SitePlan} {name : String} {ids next : IdSource}

theorem shaped_of_buildSection (hr : plan.registry.Shaped) {kind : SectionKind}
    {taken : List String} {made : Section}
    (h : plan.buildSection name kind taken ids = .ok (made, next)) : made.Shaped := by
  obtain ⟨-, htype, hprops, -⟩ := Registry.createSection_eq_ok h
  refine Section.shaped_of_type htype ?_
  rw [hprops]
  exact Shape.admits_fillName name _ (hr.synthesis kind)

theorem shaped_of_buildSections (hr : plan.registry.Shaped) {kinds : List SectionKind}
    {built sections : List Section} (hb : ∀ s ∈ built, s.Shaped)
    (h : plan.buildSections name kinds built ids = .ok (sections, next)) :
    ∀ s ∈ sections, s.Shaped := by
  induction kinds generalizing built ids with
  | nil =>
      cases h
      exact hb
  | cons kind kinds ih =>
      obtain ⟨made, rest, hs, h⟩ := buildSections_cons h
      refine ih ?_ h
      intro s hm
      rcases List.mem_append.mp hm with hm | hm
      · exact hb s hm
      · exact List.mem_singleton.mp hm ▸ shaped_of_buildSection hr hs

theorem shaped_of_buildPages (hr : plan.registry.Shaped) {slugs : List String} {pages : List Page}
    (h : plan.buildPages name slugs ids = .ok (pages, next)) : ∀ page ∈ pages, page.Shaped := by
  induction slugs generalizing pages ids with
  | nil =>
      cases h
      simp
  | cons slug slugs ih =>
      obtain ⟨page, rest, others, hp, ho, rfl⟩ := buildPages_cons h
      obtain ⟨sections, hs, rfl⟩ := buildPage_eq_ok_iff.mp hp
      rw [List.forall_mem_cons]
      exact ⟨shaped_of_buildSections hr (by simp) hs, ih ho⟩

theorem shaped_of_synthesize (hr : plan.registry.Shaped) {brief : Brief} {schema : Schema}
    (h : plan.synthesize brief ids = .ok (schema, next)) : schema.Shaped := by
  obtain ⟨pages, colors, hp, -, rfl⟩ := synthesize_eq_ok h
  exact shaped_of_buildPages hr hp

theorem shaped_of_defaultSchema (hr : plan.registry.Shaped) {schema : Schema}
    (h : plan.defaultSchema name ids = .ok (schema, next)) : schema.Shaped := by
  obtain ⟨⟨hero, rest⟩, hb, hrest⟩ := Outcome.bind_eq_ok_iff.mp h
  obtain ⟨colors, -, he⟩ := Outcome.bind_pure_eq_ok_iff.mp hrest
  cases he
  intro page hm s hs
  rw [List.mem_singleton.mp hm] at hs
  rw [List.mem_singleton.mp hs]
  have htype := (Registry.createSection_eq_ok hb).2.1
  have hkind : hero.kind? = some .hero := by rw [Section.kind?, htype, SectionKind.ofName?_name]
  have hasks : SectionKind.hero.propsShape.AsksText "subheadline" := by
    simp [-Prod.forall, SectionKind.propsShape, Shape.AsksText, Shape.fields]
  have hprops : SectionKind.hero.propsShape.Admits (.object hero.props) :=
    shaped_of_buildSection hr hb .hero hkind
  exact Section.shaped_of_type htype (hprops.set_text hasks welcomeText)

end SitePlan

/-! ## The pipeline of the default registry -/

/-- By the default registry every brief and every name give a shaped schema, enrichment succeeds on
a shaped schema and gives one, and so does every edit that can be made, if the props that it sets
have the shape of the sections that it sets them on. So a run of such edits never leaves the shaped
schemas. -/
theorem Edit.run_keeps_shapes :
    (∀ (brief : Brief) (ids : IdSource), 0 < ids.patience → ∃ schema next,
      (SitePlan.default .default).synthesize brief ids = .ok (schema, next) ∧ schema.Shaped) ∧
    (∀ (name : String) (ids : IdSource), 0 < ids.patience → ∃ schema next,
      (SitePlan.default .default).defaultSchema name ids = .ok (schema, next) ∧ schema.Shaped) ∧
    (∀ schema : Schema, schema.Shaped → ∃ enriched,
      Registry.default.enrich schema = .ok enriched ∧ enriched.Shaped) ∧
    (∀ (edit : Edit) (state next : State) (made : Option Section), state.schema.Shaped →
      edit.Fits state.schema → edit.apply .default state = .ok (next, made) →
        next.schema.Shaped) ∧
    ∀ (start : State) (edits : List Edit), start.schema.Shaped → RunFits .default start edits →
      (run .default start edits).schema.Shaped := by
  have hr := Registry.shaped_default
  refine ⟨?_, ?_, ?_, ?_, fun start edits hs hf => shaped_run hr hs hf⟩
  · intro brief ids hp
    obtain ⟨schema, next, h⟩ := SitePlan.exists_synthesize_default .default brief hp
    exact ⟨schema, next, h, SitePlan.shaped_of_synthesize hr h⟩
  · intro name ids hp
    obtain ⟨schema, next, h⟩ := SitePlan.exists_defaultSchema_default .default name hp
    exact ⟨schema, next, h, SitePlan.shaped_of_defaultSchema hr h⟩
  · intro schema hs
    obtain ⟨enriched, h⟩ := exists_enrich Registry.stable_default schema
    exact ⟨enriched, h, Registry.shaped_enrich hr hs h⟩
  · intro edit state next made hs hf h
    exact shaped_of_apply hr h hf hs

end Sitewright
