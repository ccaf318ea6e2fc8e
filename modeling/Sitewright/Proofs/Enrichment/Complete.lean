import Sitewright.Proofs.Enrichment.Kept

/-!
# Enriched content has no gaps

A rule is gapless if it is stable, its clauses belong to its texts and its fallback has items. What
it leaves behind is complete: no text is blank, a text with a clause ends in it, and the list has
items of which none lacks its fill entry. The default rules are gapless.
-/

namespace Sitewright

/-! ## Lists -/

namespace ListRule

variable {rule : ListRule}

structure Complete (rule : ListRule) (items : List Json) : Prop where
  inhabited : items ≠ []
  filled : ∀ key ∈ rule.fillKey, ∀ fields, Json.object fields ∈ items →
    Json.isBlank (Dict.get? fields key) = false

theorem not_isBlank_of_fillItem (hs : rule.Stable) {key : String} (hk : rule.fillKey = some key)
    {index : Nat} {item : Json} {fields : Fields}
    (h : rule.fillItem key index item = .ok (.object fields)) :
    Json.isBlank (Dict.get? fields key) = false := by
  cases item with
  | object given =>
      obtain ⟨hb, he⟩ | ⟨-, phrase, hp, he⟩ := fillItem_object_cases h
      · cases he
        exact hb
      · cases he
        have hsome : rule.fillKey.isSome := by rw [hk]; rfl
        obtain ⟨known, hknown, hne⟩ := hs.phrases hsome index
        cases hknown.symm.trans hp
        rw [Dict.get?_set_self]
        exact EnrichmentRule.not_isBlank_string hne
  | null | bool | int | float | string | array => cases h

theorem complete_of_fill_items (hs : rule.Stable) {item : Json} {items filled : List Json}
    (h : rule.fill (some (.array (item :: items))) = .ok filled) : rule.Complete filled := by
  obtain ⟨hk, rfl⟩ | ⟨key, hk, hf⟩ := fill_items_cases h
  · exact ⟨List.cons_ne_nil _ _, by simp [hk]⟩
  · have hfilled := forall₂_of_fillItems hf
    refine ⟨List.ne_nil_of_length_eq_add_one hfilled.length_eq.symm, ?_⟩
    intro other ho fields hm
    cases hk.symm.trans ho
    obtain ⟨entry, -, hi⟩ := Outcome.exists_of_mem_right hfilled hm
    exact not_isBlank_of_fillItem hs hk hi

/-- Where there are no items, those of the fallback are put in. -/
theorem complete_of_fill (hs : rule.Stable) (hne : rule.fallback ≠ []) {current : Option Json}
    {filled : List Json} (h : rule.fill current = .ok filled) : rule.Complete filled := by
  have hfallback : rule.Complete rule.fallback := by
    obtain ⟨item, items, he⟩ := List.exists_cons_of_ne_nil hne
    have hf := hs.fallback
    rw [he] at hf
    rw [he]
    exact complete_of_fill_items hs hf
  unfold fill at h
  split at h
  · exact complete_of_fill_items hs h
  · cases h
    exact hfallback

end ListRule

/-! ## Props -/

namespace EnrichmentRule

variable {rule : EnrichmentRule} {name : String} {props later : Fields}

structure Complete (rule : EnrichmentRule) (props : Fields) : Prop where
  texts : ∀ key ∈ rule.textDefaults.map (·.1), Json.isBlank (Dict.get? props key) = false
  clauses : ∀ entry ∈ rule.appendedClauses, ∃ text,
    Dict.get? props entry.1 = some (.string text) ∧ entry.2.toList <:+ text.toList
  items : ∀ list ∈ rule.listRule, ∃ items,
    Dict.get? props list.key = some (.array items) ∧ list.Complete items

/-- A stable rule whose clauses are those of its texts, and whose fallback has items. -/
structure Gapless (rule : EnrichmentRule) : Prop where
  stable : rule.Stable
  clauses : ∀ entry ∈ rule.appendedClauses, entry.1 ∈ rule.textDefaults.map (·.1) ∧
    rule.appendedClauses.lookup entry.1 = some entry.2 ∧
    Text.startsSolid entry.2.toList = true
  fallback : ∀ list ∈ rule.listRule, list.fallback ≠ []

theorem not_isBlank_textAfter (hs : rule.Stable) {default : String}
    (hd : startsPlain default.toList = true) (passes : Nat) (key : String)
    (current : Option Json) :
    Json.isBlank (some (rule.textAfter name (passes + 1) key default current)) = false := by
  unfold textAfter
  cases hc : rule.appendedClauses.lookup key with
  | none => exact not_isBlank_given hd current
  | some clause =>
      have hsolid := hs.clauses (key, clause) (Dict.mem_of_get? hc)
      exact not_isBlank_string (grown_ne_empty hsolid _ passes)

theorem complete_of_apply (hg : rule.Gapless) (h : rule.apply name props = .ok later) :
    rule.Complete later := by
  constructor
  · intro key hm
    obtain ⟨⟨key, default⟩, hd, rfl⟩ := List.mem_map.mp hm
    rw [get?_text_of_apply hg.stable h hd]
    exact not_isBlank_textAfter hg.stable (hg.stable.defaults _ hd) 0 key _
  · intro entry hm
    obtain ⟨htext, hlookup, hsolid⟩ := hg.clauses entry hm
    obtain ⟨⟨key, default⟩, hd, hkey⟩ := List.mem_map.mp htext
    obtain rfl : key = entry.1 := hkey
    have hget := get?_text_of_apply hg.stable h hd
    simp only [textAfter, hlookup, grown_one] at hget
    exact ⟨_, hget, suffix_appendClause hsolid (hg.stable.clauses entry hm) _⟩
  · intro list hl
    obtain ⟨items, hf, hget⟩ := exists_items_of_apply hg.stable h hl
    exact ⟨items, hget, ListRule.complete_of_fill (hg.stable.list list hl) (hg.fallback list hl) hf⟩

end EnrichmentRule

theorem Registry.gapless_default (kind : SectionKind) :
    (Registry.default.definition kind).enrichment.Gapless where
  stable := stable_default kind
  clauses := by cases kind <;> decide
  fallback := by cases kind <;> rintro list ⟨⟩ <;> exact List.cons_ne_nil _ _

/-! ## Sections -/

def Section.Complete (registry : Registry) (s : Section) : Prop :=
  ∀ kind, s.kind? = some kind → (registry.definition kind).enrichment.Complete s.props

theorem Section.complete_of_enrichSection {registry : Registry}
    (hg : ∀ kind, (registry.definition kind).enrichment.Gapless) {name : String}
    {s later : Section} (h : registry.enrichSection name s = .ok later) :
    later.Complete registry := by
  intro kind hk
  obtain ⟨hnone, rfl⟩ | ⟨known, props, hknown, ha, rfl⟩ := Registry.enrichSection_cases h
  · cases hnone.symm.trans hk
  · cases hknown.symm.trans hk
    exact EnrichmentRule.complete_of_apply (hg kind) ha

/-- A hero without a headline gets one in which the name of the website stands as it is. -/
def Section.Greets (name : String) (s later : Section) : Prop :=
  s.kind? = some .hero → Json.isBlank (Dict.get? s.props "headline") = true →
    Dict.get? later.props "headline" = some (.string
      ("Bienvenue sur " ++ name ++ " — une solution claire et moderne pour ton projet."))

theorem appendClause_greeting (name : String) :
    appendClause (fillDefault name "Bienvenue sur {website_name}")
        "— une solution claire et moderne pour ton projet." =
      "Bienvenue sur " ++ name ++ " — une solution claire et moderne pour ton projet." := by
  have hdefault : "Bienvenue sur {website_name}" =
      "Bienvenue sur " ++ "{website_name}" ++ "" := by decide
  have hclause : " — une solution claire et moderne pour ton projet.".toList =
      ' ' :: "— une solution claire et moderne pour ton projet.".toList := by decide
  have hbefore : Text.startsSolid "Bienvenue sur ".toList = true := by decide
  have hafter : Text.endsSolid " — une solution claire et moderne pour ton projet.".toList =
      true := by decide
  rw [hdefault, fillDefault_eq (by decide) (by decide), String.append_empty,
    appendClause, ← hclause, ← String.toList_inj, String.toList_ofList, ← String.toList_append]
  apply Text.strip_of_solid
  · rw [String.toList_append, String.toList_append, List.append_assoc]
    exact Text.startsSolid_append hbefore _
  · rw [String.toList_append]
    exact Text.endsSolid_append hafter _

theorem Section.greets_of_enrichSection {name : String} {s later : Section}
    (h : Registry.default.enrichSection name s = .ok later) : s.Greets name later := by
  intro hk hb
  obtain ⟨hnone, -⟩ | ⟨kind, props, hkind, ha, rfl⟩ := Registry.enrichSection_cases h
  · cases hnone.symm.trans hk
  · cases hkind.symm.trans hk
    have hm : ("headline", "Bienvenue sur {website_name}") ∈
        (Registry.default.definition .hero).enrichment.textDefaults := List.mem_cons_self
    have hget := EnrichmentRule.get?_text_of_apply (Registry.stable_default .hero) ha hm
    rw [hget, EnrichmentRule.textAfter_one, EnrichmentRule.enrichedText, if_pos hb]
    exact congrArg (fun text => some (Json.string text)) (appendClause_greeting name)

/-- A pass under the default rules leaves no gap: every section of a known kind has all its texts,
those with a clause end in it, and its list has items of which none lacks its fill entry. A name
that is put into a headline stands there as it is. -/
theorem Registry.enrich_leaves_no_gap (schema : Schema) :
    ∃ enriched, Registry.default.enrich schema = .ok enriched ∧
      schema.Related (fun s later => later.Complete .default ∧ s.Greets schema.name later)
        enriched := by
  obtain ⟨enriched, he⟩ := exists_enrich stable_default schema
  refine ⟨enriched, he, related_of_enrich (fun s later hs => ?_) he⟩
  exact ⟨Section.complete_of_enrichSection gapless_default hs, Section.greets_of_enrichSection hs⟩

end Sitewright
