import Sitewright.Proofs.Enrichment.Passes

/-!
# What enrichment keeps

Enrichment touches nothing but the props of sections of known kinds, and of these only the entries
that the rule of the kind is about. A text that is not blank stays unless it gets a clause, a list
that has items keeps them in their places, and an item gains at most its fill entry.
-/

namespace Sitewright

/-! ## Related schemas -/

structure Page.Related (R : Section → Section → Prop) (page later : Page) : Prop where
  heading : later.heading = page.heading
  sections : List.Forall₂ R page.sections later.sections

structure Schema.Related (R : Section → Section → Prop) (schema later : Schema) : Prop where
  frame : later = schema.withPages later.pages
  pages : List.Forall₂ (Page.Related R) schema.pages later.pages

theorem Registry.related_of_enrich {registry : Registry} {schema enriched : Schema}
    {R : Section → Section → Prop}
    (hR : ∀ s later, registry.enrichSection schema.name s = .ok later → R s later)
    (h : registry.enrich schema = .ok enriched) : schema.Related R enriched := by
  refine ⟨enrich_eq_withPages h, (pages_enrich h).imp fun page later hp => ?_⟩
  obtain ⟨sections, hs, rfl⟩ := enrichPage_eq_ok_iff.mp hp
  exact ⟨rfl, (Outcome.mapM_eq_ok_iff.mp hs).imp hR⟩

/-! ## Items -/

namespace ListRule

variable {rule : ListRule} {index : Nat}

/-- The phrase for the item at a position: the first one for the first item, the last one for all
others. -/
def phraseAt? (rule : ListRule) (index : Nat) : Option String :=
  if index = 0 then rule.fillPhrases.head? else rule.fillPhrases.getLast?

inductive Fills (rule : ListRule) (index : Nat) : Json → Json → Prop
  | plain {item : Json} (plain : ∀ fields, item ≠ .object fields) : Fills rule index item item
  | kept {fields : Fields}
      (given : ∀ key ∈ rule.fillKey, Json.isBlank (Dict.get? fields key) = false) :
      Fills rule index (.object fields) (.object fields)
  | filled {fields later : Fields} {key phrase : String} (asked : rule.fillKey = some key)
      (blank : Json.isBlank (Dict.get? fields key) = true)
      (phrased : rule.phraseAt? index = some phrase)
      (entry : Dict.get? later key = some (.string phrase))
      (others : Dict.Extends [key] fields later) :
      Fills rule index (.object fields) (.object later)

def FillsAll (rule : ListRule) (start : Nat) (items later : List Json) : Prop :=
  List.Forall₂ (fun entry item => rule.Fills entry.2 entry.1 item) (items.zipIdx start) later

theorem phraseAt?_of_phraseFor (hl : rule.fillPhrases.length ≤ 2) {phrase : String}
    (h : rule.phraseFor index = .ok phrase) : rule.phraseAt? index = some phrase := by
  unfold phraseFor at h
  unfold phraseAt?
  match hp : rule.fillPhrases, hl with
  | [], _ => simp [hp] at h
  | [only], _ => simpa [hp] using h
  | [first, other], _ =>
      by_cases hi : index = 0
      · simpa [hp, hi] using h
      · simpa [hp, hi] using h

theorem fills_of_fillItem (hl : rule.fillPhrases.length ≤ 2) {key : String}
    (hk : rule.fillKey = some key) {item later : Json}
    (h : rule.fillItem key index item = .ok later) : rule.Fills index item later := by
  cases item with
  | object fields =>
      obtain ⟨hb, rfl⟩ | ⟨hb, phrase, hp, rfl⟩ := fillItem_object_cases h
      · refine .kept fun other hm => ?_
        cases hk.symm.trans hm
        exact hb
      · exact .filled hk hb (phraseAt?_of_phraseFor hl hp) (Dict.get?_set_self ..)
          (Dict.extends_set ..)
  | null | bool | int | float | string | array =>
      cases h
      exact .plain nofun

/-- Without a fill entry to ask for, every item stays. -/
theorem fillsAll_self (hk : rule.fillKey = none) (start : Nat) (items : List Json) :
    rule.FillsAll start items items := by
  have hself (place : Nat) (item : Json) : rule.Fills place item item := by
    cases item with
    | object fields => exact .kept (by simp [hk])
    | null | bool | int | float | string | array => exact .plain nofun
  induction items generalizing start with
  | nil => exact .nil
  | cons item items ih => exact .cons (hself start item) (ih (start + 1))

theorem fillsAll_of_fill (hl : rule.fillPhrases.length ≤ 2) {item : Json} {items later : List Json}
    (h : rule.fill (some (.array (item :: items))) = .ok later) :
    rule.FillsAll 0 (item :: items) later := by
  obtain ⟨hk, rfl⟩ | ⟨key, hk, hf⟩ := fill_items_cases h
  · exact fillsAll_self hk 0 _
  · exact (forall₂_of_fillItems hf).imp fun entry item hi => fills_of_fillItem hl hk hi

theorem eq_of_fills (hk : rule.fillKey = none) {item later : Json}
    (h : rule.Fills index item later) : later = item := by
  cases h with
  | plain _ | kept _ => rfl
  | filled asked => cases hk.symm.trans asked

theorem eq_of_fillsAll (hk : rule.fillKey = none) {start : Nat} {items later : List Json}
    (h : rule.FillsAll start items later) : later = items := by
  induction items generalizing start later with
  | nil => cases h; rfl
  | cons item items ih =>
      obtain ⟨first, rest, hf, hr, rfl⟩ := List.forall₂_cons_left_iff.mp h
      rw [eq_of_fills hk hf, ih hr]

end ListRule

/-! ## Props -/

namespace EnrichmentRule

variable {rule : EnrichmentRule} {name : String} {props later : Fields}

/-- What a pass leaves of the props. Of the entries that the rule is about it keeps the texts that
are there and get no clause, and the items of a list that has some. -/
structure Keeps (rule : EnrichmentRule) (props later : Fields) : Prop where
  others : Dict.Extends rule.keys props later
  texts : ∀ key ∈ rule.textDefaults.map (·.1), rule.appendedClauses.lookup key = none →
    Json.isBlank (Dict.get? props key) = false → Dict.get? later key = Dict.get? props key
  items : ∀ list ∈ rule.listRule, ∀ item items,
    Dict.get? props list.key = some (.array (item :: items)) →
      ∃ filled, Dict.get? later list.key = some (.array filled) ∧
        list.FillsAll 0 (item :: items) filled

theorem textAfter_of_not_blank {key : String} {current : Option Json}
    (hc : rule.appendedClauses.lookup key = none) (hb : Json.isBlank current = false)
    (passes : Nat) (default : String) :
    some (rule.textAfter name passes key default current) = current := by
  cases current with
  | none => cases hb
  | some value => simp only [textAfter, hc, given_of_not_blank hb]

/-- What a pass leaves under the key of a text. -/
theorem get?_text_of_apply (hs : rule.Stable) (h : rule.apply name props = .ok later)
    {key default : String} (hm : (key, default) ∈ rule.textDefaults) :
    Dict.get? later key = some (rule.textAfter name 1 key default (Dict.get? props key)) := by
  obtain ⟨tail, ht, -⟩ := exists_listEntry hs props
  cases (apply_eq_propsAfter hs ht).symm.trans h
  have hw : (key, rule.textAfter name 1 key default (Dict.get? props key)) ∈
      rule.written name 1 props tail :=
    List.mem_append_left tail (List.mem_map.mpr ⟨_, hm, rfl⟩)
  exact get?_propsAfter hs ht hw

/-- What a pass leaves under the key of the list. -/
theorem exists_items_of_apply (hs : rule.Stable) (h : rule.apply name props = .ok later)
    {list : ListRule} (hl : rule.listRule = some list) :
    ∃ items, list.fill (Dict.get? props list.key) = .ok items ∧
      Dict.get? later list.key = some (.array items) := by
  obtain ⟨tail, ht, -⟩ := exists_listEntry hs props
  cases (apply_eq_propsAfter hs ht).symm.trans h
  have hentry := ht
  simp only [listEntry, hl] at hentry
  obtain ⟨items, hf, rfl⟩ := Outcome.map_eq_ok_iff.mp hentry
  have hw : (list.key, Json.array items) ∈
      rule.written name 1 props [(list.key, .array items)] :=
    List.mem_append_right _ (List.mem_singleton_self _)
  exact ⟨items, hf, get?_propsAfter hs ht hw⟩

theorem extends_of_apply (hs : rule.Stable) (h : rule.apply name props = .ok later) :
    Dict.Extends rule.keys props later := by
  obtain ⟨tail, ht, -⟩ := exists_listEntry hs props
  cases (apply_eq_propsAfter hs ht).symm.trans h
  rw [← keys_written ht name 1 props]
  exact Dict.extends_overlay (nodup_written hs ht name 1) props

theorem keeps_of_apply (hs : rule.Stable)
    (hp : ∀ list ∈ rule.listRule, list.fillPhrases.length ≤ 2)
    (h : rule.apply name props = .ok later) : rule.Keeps props later := by
  refine ⟨extends_of_apply hs h, ?_, ?_⟩
  · intro key hm hc hb
    obtain ⟨⟨key, default⟩, hd, rfl⟩ := List.mem_map.mp hm
    rw [get?_text_of_apply hs h hd, textAfter_of_not_blank hc hb]
  · intro list hl item items hg
    obtain ⟨filled, hf, hget⟩ := exists_items_of_apply hs h hl
    rw [hg] at hf
    exact ⟨filled, hget, ListRule.fillsAll_of_fill (hp list hl) hf⟩

end EnrichmentRule

/-! ## Sections -/

/-- A section of an unknown kind stays as it is, and of any other one only the props change, by the
rule of the kind. -/
def Section.KeptBy (registry : Registry) (s later : Section) : Prop :=
  match s.kind? with
  | none => later = s
  | some kind =>
      ∃ props, later = { s with props } ∧
        (registry.definition kind).enrichment.Keeps s.props props

theorem Section.keptBy_of_enrichSection {registry : Registry} (hr : registry.Stable)
    (hp : ∀ kind, ∀ list ∈ (registry.definition kind).enrichment.listRule,
      list.fillPhrases.length ≤ 2)
    {name : String} {s later : Section} (h : registry.enrichSection name s = .ok later) :
    s.KeptBy registry later := by
  obtain ⟨hk, rfl⟩ | ⟨kind, props, hk, ha, rfl⟩ := Registry.enrichSection_cases h
  · simp only [KeptBy, hk]
  · simp only [KeptBy, hk]
    exact ⟨props, rfl, EnrichmentRule.keeps_of_apply (hr kind) (hp kind) ha⟩

/-- The plans of a pricing section that has some are left alone. -/
def Section.KeepsPlans (s later : Section) : Prop :=
  s.kind? = some .pricing → ∀ plan plans,
    Dict.get? s.props "plans" = some (.array (plan :: plans)) →
      Dict.get? later.props "plans" = Dict.get? s.props "plans"

theorem Section.KeptBy.keepsPlans {s later : Section} (h : s.KeptBy .default later) :
    s.KeepsPlans later := by
  intro hk plan plans hg
  simp only [KeptBy, hk] at h
  obtain ⟨props, rfl, hkeeps⟩ := h
  obtain ⟨filled, hf, hfills⟩ := hkeeps.items _ rfl plan plans hg
  rw [ListRule.eq_of_fillsAll rfl hfills] at hf
  exact hf.trans hg.symm

theorem Registry.length_fillPhrases_default (kind : SectionKind) :
    ∀ list ∈ (Registry.default.definition kind).enrichment.listRule,
      list.fillPhrases.length ≤ 2 := by
  cases kind <;> decide

/-- A pass under the default rules succeeds and loses nothing: the schema stays as it is but for its
sections, these keep their places and headings, and their props keep what the rules do not fill. -/
theorem Registry.enrich_loses_nothing (schema : Schema) :
    ∃ enriched, Registry.default.enrich schema = .ok enriched ∧
      schema.Related (fun s later => s.KeptBy .default later ∧ s.KeepsPlans later) enriched := by
  obtain ⟨enriched, he⟩ := exists_enrich stable_default schema
  refine ⟨enriched, he, related_of_enrich (fun s later hs => ?_) he⟩
  have hkept := Section.keptBy_of_enrichSection stable_default length_fillPhrases_default hs
  exact ⟨hkept, hkept.keepsPlans⟩

end Sitewright
