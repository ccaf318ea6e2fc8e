import Sitewright.Proofs.Dictionary
import Sitewright.Proofs.Editor.Edits
import Sitewright.Proofs.Enrichment.Texts
import Sitewright.Registry.Defaults

/-!
# Repeated enrichment

A rule is stable if a second pass finds all that the first one has filled in: its defaults can be
filled in, and these, its fallback and its phrases are not blank. Under such a rule a pass is an overlay of the props, further
passes change the texts with a clause alone, and these can be told from the original at once. The
default rules are stable, and only that of heroes has clauses.
-/

namespace Sitewright

variable {name : String} {props : Fields}

/-! ## Lists -/

namespace ListRule

variable {rule : ListRule}

/-- Every item can get a phrase that is not blank, and the fallback lacks none. -/
structure Stable (rule : ListRule) : Prop where
  phrases : rule.fillKey.isSome → ∀ index, ∃ phrase, rule.phraseFor index = .ok phrase ∧ phrase ≠ ""
  fallback : rule.fill (some (.array rule.fallback)) = .ok rule.fallback

/-- Behind the first item all items get the same phrase. -/
theorem phraseFor_succ (rule : ListRule) (index : Nat) :
    rule.phraseFor (index + 1) = rule.phraseFor 1 := by
  simp [phraseFor]

/-- An object stays as it is, or gets a phrase if its fill entry is blank. -/
theorem fillItem_object_cases {key : String} {index : Nat} {fields : Fields} {filled : Json}
    (h : rule.fillItem key index (.object fields) = .ok filled) :
    Json.isBlank (Dict.get? fields key) = false ∧ filled = .object fields ∨
      Json.isBlank (Dict.get? fields key) = true ∧ ∃ phrase, rule.phraseFor index = .ok phrase ∧
        filled = .object (Dict.set key (.string phrase) fields) := by
  unfold fillItem at h
  by_cases hb : Json.isBlank (Dict.get? fields key) = true
  · simp only [hb, if_true] at h
    cases hp : rule.phraseFor index with
    | error cause => simp [hp] at h
    | ok phrase =>
        simp only [hp, Except.ok.injEq] at h
        exact .inr ⟨hb, phrase, rfl, h.symm⟩
  · simp only [hb, Bool.false_eq_true, if_false, Except.ok.injEq] at h
    exact .inl ⟨Bool.eq_false_iff.mpr hb, h.symm⟩

/-- Items are filled one by one, each for its position. -/
theorem forall₂_of_fillItems {key : String} {start : Nat} {items filled : List Json}
    (h : rule.fillItems key start items = .ok filled) :
    List.Forall₂ (fun entry later => rule.fillItem key entry.2 entry.1 = .ok later)
      (items.zipIdx start) filled := by
  induction items generalizing start filled with
  | nil =>
      cases h
      exact .nil
  | cons item items ih =>
      rw [fillItems] at h
      cases hi : rule.fillItem key start item with
      | error cause => simp [hi] at h
      | ok first =>
          cases hr : rule.fillItems key (start + 1) items with
          | error cause => simp [hi, hr] at h
          | ok rest =>
              simp only [hi, hr, Except.ok.injEq] at h
              subst h
              exact .cons hi (ih hr)

/-- Where there are items, they stay if no fill entry is asked for, and are filled if one is. -/
theorem fill_items_cases {item : Json} {items filled : List Json}
    (h : rule.fill (some (.array (item :: items))) = .ok filled) :
    rule.fillKey = none ∧ filled = item :: items ∨
      ∃ key, rule.fillKey = some key ∧ rule.fillItems key 0 (item :: items) = .ok filled := by
  unfold fill at h
  cases hk : rule.fillKey with
  | none =>
      simp only [hk, Except.ok.injEq] at h
      exact .inl ⟨rfl, h.symm⟩
  | some key =>
      simp only [hk] at h
      exact .inr ⟨key, rfl, h⟩

theorem exists_fillItem (hs : rule.Stable) {key : String} (hk : rule.fillKey = some key)
    (index : Nat) (item : Json) :
    ∃ filled, rule.fillItem key index item = .ok filled ∧
      ∀ place, rule.fillItem key place filled = .ok filled := by
  have hsome : rule.fillKey.isSome := by rw [hk]; rfl
  cases item with
  | object fields =>
      by_cases hb : Json.isBlank (Dict.get? fields key) = true
      · obtain ⟨phrase, hp, hne⟩ := hs.phrases hsome index
        refine ⟨.object (Dict.set key (.string phrase) fields), by simp [fillItem, hb, hp], ?_⟩
        intro place
        simp [fillItem, Json.isBlank, hne]
      · exact ⟨.object fields, by simp [fillItem, hb], fun place => by simp [fillItem, hb]⟩
  | null | bool | int | float | string | array => exact ⟨_, rfl, fun _ => rfl⟩

theorem exists_fillItems (hs : rule.Stable) {key : String} (hk : rule.fillKey = some key)
    (index : Nat) (items : List Json) :
    ∃ filled, rule.fillItems key index items = .ok filled ∧
      filled.length = items.length ∧
      ∀ place, rule.fillItems key place filled = .ok filled := by
  induction items generalizing index with
  | nil => exact ⟨[], rfl, rfl, fun _ => rfl⟩
  | cons item items ih =>
      obtain ⟨first, hf, hfirst⟩ := exists_fillItem hs hk index item
      obtain ⟨rest, hr, hlength, hrest⟩ := ih (index + 1)
      refine ⟨first :: rest, by simp [fillItems, hf, hr], by simp [hlength], ?_⟩
      intro place
      simp [fillItems, hfirst, hrest]

/-- A list can be filled, and is left alone by then. -/
theorem exists_fill (hs : rule.Stable) (current : Option Json) :
    ∃ items, rule.fill current = .ok items ∧ rule.fill (some (.array items)) = .ok items := by
  have hfallback : ∃ items, .ok rule.fallback = (.ok items : Except SiteError (List Json)) ∧
      rule.fill (some (.array items)) = .ok items := ⟨_, rfl, hs.fallback⟩
  cases current with
  | none => exact hfallback
  | some value =>
      cases value with
      | array items =>
          cases items with
          | nil => exact hfallback
          | cons item items =>
              cases hk : rule.fillKey with
              | none => exact ⟨item :: items, by simp [fill, hk], by simp [fill, hk]⟩
              | some key =>
                  obtain ⟨filled, hf, hlength, hagain⟩ := exists_fillItems hs hk 0 (item :: items)
                  cases filled with
                  | nil => cases hlength
                  | cons first rest =>
                      exact ⟨first :: rest, by simp [fill, hk, hf], by simp [fill, hk, hagain]⟩
      | null | bool | int | float | string | object => exact hfallback

end ListRule

/-! ## Rules -/

namespace EnrichmentRule

variable {rule : EnrichmentRule} {tail : Fields}

def keys (rule : EnrichmentRule) : List String :=
  rule.textDefaults.map (·.1) ++ (rule.listRule.map (·.key)).toList

/-- A pass can write all that it has to, none of it is blank, and no key is written twice. -/
structure Stable (rule : EnrichmentRule) : Prop where
  keys : rule.keys.Nodup
  fillable : ∀ entry ∈ rule.textDefaults, Format.fault? entry.2 = none
  defaults : ∀ entry ∈ rule.textDefaults, startsPlain entry.2.toList = true
  clauses : ∀ entry ∈ rule.appendedClauses, Text.endsSolid entry.2.toList = true
  list : ∀ list ∈ rule.listRule, list.Stable

def given (name default : String) (current : Option Json) : Json :=
  if Json.isBlank current then .string (fillDefault name default) else current.getD .null

/-- The value of the text `key` after so many passes, of which there is at least one. -/
def textAfter (rule : EnrichmentRule) (name : String) (passes : Nat) (key default : String)
    (current : Option Json) : Json :=
  match rule.appendedClauses.lookup key with
  | some clause => .string (grown (given name default current).display clause passes)
  | none => given name default current

def textsAfter (rule : EnrichmentRule) (name : String) (passes : Nat) (props : Fields)
    (texts : List (String × String)) : Fields :=
  texts.map fun entry =>
    (entry.1, rule.textAfter name passes entry.1 entry.2 (Dict.get? props entry.1))

def written (rule : EnrichmentRule) (name : String) (passes : Nat) (props tail : Fields) : Fields :=
  rule.textsAfter name passes props rule.textDefaults ++ tail

def listEntry (rule : EnrichmentRule) (props : Fields) : Except SiteError Fields :=
  match rule.listRule with
  | none => .ok []
  | some list => (list.fill (Dict.get? props list.key)).map fun items => [(list.key, .array items)]

theorem textAfter_one (rule : EnrichmentRule) (name key default : String) (current : Option Json) :
    rule.textAfter name 1 key default current = rule.enrichedText name key default current := by
  unfold textAfter enrichedText given
  cases rule.appendedClauses.lookup key with
  | none => rfl
  | some clause => simp only [grown_one]

theorem given_of_not_blank {value : Json} (h : Json.isBlank (some value) = false)
    (name default : String) : given name default (some value) = value := by
  simp [given, h]

theorem not_isBlank_string {text : String} (h : text ≠ "") :
    Json.isBlank (some (.string text)) = false := by
  simpa [Json.isBlank] using h

theorem not_isBlank_given {default : String} (h : startsPlain default.toList = true)
    (current : Option Json) : Json.isBlank (some (given name default current)) = false := by
  unfold given
  cases hb : Json.isBlank current with
  | true => exact not_isBlank_string (fillDefault_ne_empty h name)
  | false =>
      cases current with
      | none => cases hb
      | some value => exact hb

/-- One more pass over a text appends one more clause, and does nothing to a text without one. -/
theorem enrichedText_textAfter (hs : rule.Stable) {key default : String}
    (hd : startsPlain default.toList = true) (passes : Nat) (current : Option Json) :
    rule.enrichedText name key default
        (some (rule.textAfter name (passes + 1) key default current)) =
      rule.textAfter name (passes + 2) key default current := by
  rw [← textAfter_one]
  unfold textAfter
  cases hc : rule.appendedClauses.lookup key with
  | none => exact given_of_not_blank (not_isBlank_given hd current) name default
  | some clause =>
      have hsolid : Text.endsSolid clause.toList = true :=
        hs.clauses (key, clause) (Dict.mem_of_get? hc)
      have hne := not_isBlank_string
        (grown_ne_empty hsolid (given name default current).display passes)
      simp only [given_of_not_blank hne, grown_one]
      exact congrArg Json.string (appendClause_grown hsolid _ passes)

theorem keys_textsAfter (rule : EnrichmentRule) (name : String) (passes : Nat) (props : Fields)
    (texts : List (String × String)) :
    Dict.keys (rule.textsAfter name passes props texts) = texts.map (·.1) := by
  simp [Dict.keys, textsAfter]

theorem keys_listEntry (h : rule.listEntry props = .ok tail) :
    Dict.keys tail = (rule.listRule.map (·.key)).toList := by
  unfold listEntry at h
  cases hl : rule.listRule with
  | none =>
      rw [hl] at h
      cases h
      rfl
  | some list =>
      rw [hl] at h
      cases hf : list.fill (Dict.get? props list.key) with
      | error cause => simp [hf, Except.map] at h
      | ok items =>
          simp only [hf, Except.map, Except.ok.injEq] at h
          subst h
          rfl

theorem keys_written (h : rule.listEntry props = .ok tail) (name : String) (passes : Nat)
    (original : Fields) : Dict.keys (rule.written name passes original tail) = rule.keys := by
  rw [keys, ← keys_textsAfter rule name passes original, ← keys_listEntry h, written, Dict.keys,
    Dict.keys, Dict.keys, List.map_append]

theorem defaultFault?_of_fillable {default : String} (h : Format.fault? default = none)
    (current : Option Json) : defaultFault? default current = none := by
  rw [defaultFault?, h, ite_self]

theorem applyTexts_eq_overlay {texts : List (String × String)} (hn : (texts.map (·.1)).Nodup)
    (hf : ∀ entry ∈ texts, Format.fault? entry.2 = none) (rule : EnrichmentRule) (name : String)
    (props : Fields) :
    rule.applyTexts name texts props = .ok (Dict.overlay props (texts.map fun entry =>
      (entry.1, rule.enrichedText name entry.1 entry.2 (Dict.get? props entry.1)))) := by
  induction texts generalizing props with
  | nil => rfl
  | cons entry rest ih =>
      obtain ⟨key, default⟩ := entry
      obtain ⟨hk, hrest⟩ := List.nodup_cons.mp hn
      obtain ⟨hfirst, hothers⟩ := List.forall_mem_cons.mp hf
      rw [applyTexts, defaultFault?_of_fillable hfirst]
      simp only
      rw [ih hrest hothers, List.map_cons, Dict.overlay_cons]
      apply congrArg Except.ok
      apply congrArg (Dict.overlay _)
      apply List.map_congr_left
      intro other ho
      have hne : other.1 ≠ key := fun he => hk (List.mem_map.mpr ⟨other, ho, he⟩)
      rw [Dict.get?_set_of_ne hne]

/-- A pass is an overlay of the props. -/
theorem apply_eq_overlay (hs : rule.Stable) (name : String) (props : Fields) :
    rule.apply name props = (rule.listEntry props).map fun tail =>
      Dict.overlay props (rule.written name 1 props tail) := by
  obtain ⟨hn, -, hdisjoint⟩ := List.nodup_append.mp hs.keys
  have htexts : rule.applyTexts name rule.textDefaults props =
      .ok (Dict.overlay props (rule.textsAfter name 1 props rule.textDefaults)) := by
    simp only [applyTexts_eq_overlay hn hs.fillable, textsAfter, textAfter_one]
  simp only [apply, htexts]
  unfold applyList listEntry
  cases hl : rule.listRule with
  | none => simp [Except.map, written]
  | some list =>
      have hk : list.key ∉ Dict.keys (rule.textsAfter name 1 props rule.textDefaults) := by
        intro hm
        rw [keys_textsAfter] at hm
        exact hdisjoint _ hm list.key (by simp [hl]) rfl
      have hget : Dict.get? (Dict.overlay props (rule.textsAfter name 1 props rule.textDefaults))
          list.key = Dict.get? props list.key := by
        rw [Dict.get?_overlay (by rw [keys_textsAfter]; exact hn), Dict.get?_eq_none_iff.mpr hk,
          Option.none_or]
      simp only [hget]
      cases list.fill (Dict.get? props list.key) with
      | error cause => rfl
      | ok items =>
          simp only [Except.map, written, Dict.overlay_append]
          rfl

/-- The entry of the list can be made, and is made again by a pass over props that have it. -/
theorem exists_listEntry (hs : rule.Stable) (props : Fields) :
    ∃ tail, rule.listEntry props = .ok tail ∧
      ∀ props', (∀ entry ∈ tail, Dict.get? props' entry.1 = some entry.2) →
        rule.listEntry props' = .ok tail := by
  unfold listEntry
  cases hl : rule.listRule with
  | none => exact ⟨[], rfl, fun _ _ => rfl⟩
  | some list =>
      obtain ⟨items, hf, hagain⟩ :=
        ListRule.exists_fill (hs.list list hl) (Dict.get? props list.key)
      refine ⟨[(list.key, .array items)], by simp [hf, Except.map], ?_⟩
      intro props' hp
      simp [hp _ (List.mem_singleton.mpr rfl), hagain, Except.map]

def propsAfter (rule : EnrichmentRule) (name : String) (passes : Nat) (props tail : Fields) :
    Fields :=
  Dict.overlay props (rule.written name passes props tail)

theorem apply_eq_propsAfter (hs : rule.Stable) (ht : rule.listEntry props = .ok tail) :
    rule.apply name props = .ok (rule.propsAfter name 1 props tail) := by
  rw [apply_eq_overlay hs, ht]
  rfl

theorem nodup_written (hs : rule.Stable) (ht : rule.listEntry props = .ok tail) (name : String)
    (passes : Nat) : (Dict.keys (rule.written name passes props tail)).Nodup := by
  rw [keys_written ht]
  exact hs.keys

theorem get?_propsAfter (hs : rule.Stable) (ht : rule.listEntry props = .ok tail) {passes : Nat}
    {entry : String × Json} (hm : entry ∈ rule.written name passes props tail) :
    Dict.get? (rule.propsAfter name passes props tail) entry.1 = some entry.2 := by
  have hn := nodup_written hs ht name passes
  rw [propsAfter, Dict.get?_overlay hn, Dict.get?_of_mem hn hm, Option.some_or]

theorem written_propsAfter (hs : rule.Stable) (ht : rule.listEntry props = .ok tail)
    (passes : Nat) :
    rule.written name 1 (rule.propsAfter name (passes + 1) props tail) tail =
      rule.written name (passes + 2) props tail := by
  apply congrArg (· ++ tail)
  apply List.map_congr_left
  intro entry hm
  have hmem : (entry.1, rule.textAfter name (passes + 1) entry.1 entry.2
      (Dict.get? props entry.1)) ∈ rule.written name (passes + 1) props tail :=
    List.mem_append_left tail (List.mem_map.mpr ⟨entry, hm, rfl⟩)
  rw [get?_propsAfter hs ht hmem, textAfter_one, enrichedText_textAfter hs (hs.defaults entry hm)]

/-- One more pass over props that have seen one already. -/
theorem apply_propsAfter (hs : rule.Stable) (ht : rule.listEntry props = .ok tail)
    (hagain : ∀ props', (∀ entry ∈ tail, Dict.get? props' entry.1 = some entry.2) →
      rule.listEntry props' = .ok tail) (passes : Nat) :
    rule.apply name (rule.propsAfter name (passes + 1) props tail) =
      .ok (rule.propsAfter name (passes + 2) props tail) := by
  have htail : rule.listEntry (rule.propsAfter name (passes + 1) props tail) = .ok tail :=
    hagain _ fun entry hm => get?_propsAfter hs ht (List.mem_append_right _ hm)
  have hkeys : Dict.keys (rule.written name (passes + 1) props tail) =
      Dict.keys (rule.written name (passes + 2) props tail) := by
    rw [keys_written ht, keys_written ht]
  rw [apply_eq_propsAfter hs htail, propsAfter, written_propsAfter hs ht, propsAfter,
    Dict.overlay_overlay (nodup_written hs ht name _),
    Dict.overlay_of_keys_eq hkeys (nodup_written hs ht name _), propsAfter]

/-! ## Clauses -/

def grownEntry (rule : EnrichmentRule) (name : String) (passes : Nat) (props : Fields)
    (key default : String) : Option (String × Json) :=
  (rule.appendedClauses.lookup key).map fun clause =>
    (key, .string (grown (given name default (Dict.get? props key)).display clause passes))

theorem overlay_grownEntries {texts : List (String × String)} (hn : (texts.map (·.1)).Nodup)
    (rule : EnrichmentRule) (name : String) (props tail : Fields) (first passes : Nat) :
    Dict.overlay (rule.textsAfter name first props texts ++ tail)
        (texts.filterMap fun entry => rule.grownEntry name passes props entry.1 entry.2) =
      rule.textsAfter name passes props texts ++ tail := by
  induction texts with
  | nil => simp only [List.filterMap_nil, Dict.overlay, List.foldl_nil, textsAfter, List.map_nil]
  | cons entry rest ih =>
      obtain ⟨key, default⟩ := entry
      obtain ⟨hk, hrest⟩ := List.nodup_cons.mp hn
      have hfresh : key ∉ Dict.keys
          (rest.filterMap fun entry => rule.grownEntry name passes props entry.1 entry.2) := by
        intro hm
        obtain ⟨made, hmade, rfl⟩ := List.mem_map.mp hm
        obtain ⟨other, ho, he⟩ := List.mem_filterMap.mp hmade
        obtain ⟨clause, -, rfl⟩ := Option.map_eq_some_iff.mp he
        exact hk (List.mem_map.mpr ⟨other, ho, rfl⟩)
      simp only [textsAfter, List.map_cons, List.cons_append, List.filterMap_cons, grownEntry]
      cases hc : rule.appendedClauses.lookup key with
      | none =>
          simp only [Option.map_none, textAfter, hc]
          exact (Dict.overlay_cons_of_not_mem hfresh _ _).trans (congrArg _ (ih hrest))
      | some clause =>
          simp only [Option.map_some, textAfter, hc, Dict.overlay_cons, Dict.set, if_true]
          exact (Dict.overlay_cons_of_not_mem hfresh _ _).trans (congrArg _ (ih hrest))

/-- The texts with a clause after so many passes, of which there is at least one. -/
def grownEntries (rule : EnrichmentRule) (name : String) (passes : Nat) (props : Fields) :
    Fields :=
  rule.textDefaults.filterMap fun entry => rule.grownEntry name passes props entry.1 entry.2

/-- Further passes change the texts with a clause alone. -/
theorem overlay_propsAfter (hs : rule.Stable) (ht : rule.listEntry props = .ok tail)
    (passes : Nat) :
    Dict.overlay (rule.propsAfter name 1 props tail) (rule.grownEntries name passes props) =
      rule.propsAfter name passes props tail := by
  have hn : (rule.textDefaults.map (·.1)).Nodup := (List.nodup_append.mp hs.keys).1
  rw [propsAfter, Dict.overlay_overlay (nodup_written hs ht name 1), written, grownEntries,
    overlay_grownEntries hn, propsAfter, written]

/-- Passes under a stable rule never fail, and all but the first only let the clauses grow. -/
theorem exists_apply (hs : rule.Stable) (name : String) (props : Fields) :
    ∃ once, rule.apply name props = .ok once ∧
      Dict.overlay once (rule.grownEntries name 1 props) = once ∧
      ∀ passes, rule.apply name (Dict.overlay once (rule.grownEntries name (passes + 1) props)) =
        .ok (Dict.overlay once (rule.grownEntries name (passes + 2) props)) := by
  obtain ⟨tail, ht, hagain⟩ := exists_listEntry hs props
  refine ⟨rule.propsAfter name 1 props tail, apply_eq_propsAfter hs ht,
    overlay_propsAfter hs ht 1, ?_⟩
  intro passes
  rw [overlay_propsAfter hs ht, overlay_propsAfter hs ht]
  exact apply_propsAfter hs ht hagain passes

end EnrichmentRule

/-! ## Sections, pages and schemas -/

def Registry.Stable (registry : Registry) : Prop :=
  ∀ kind, (registry.definition kind).enrichment.Stable

section Stable

variable {registry : Registry}

def Section.grownEntries (registry : Registry) (name : String) (passes : Nat) (s : Section) :
    Fields :=
  match registry.lookup? s.type with
  | none => []
  | some definition => definition.enrichment.grownEntries name passes s.props

/-- A section that has seen one pass, with its clauses as they are after more of them. -/
def Section.regrown (registry : Registry) (name : String) (passes : Nat) (original once : Section) :
    Section :=
  { once with props := Dict.overlay once.props (original.grownEntries registry name passes) }

def Page.zipSections (f : Section → Section → Section) (original once : Page) : Page :=
  { once with sections := List.zipWith f original.sections once.sections }

/-- A schema whose sections are each made from one of either schema. -/
def Schema.zipSections (f : Section → Section → Section) (original once : Schema) : Schema :=
  once.withPages (List.zipWith (Page.zipSections f) original.pages once.pages)

theorem zipWith_congr_of_mem {α β γ : Type} {f g : α → β → γ} {xs : List α}
    (h : ∀ x ∈ xs, f x = g x) (ys : List β) : List.zipWith f xs ys = List.zipWith g xs ys := by
  induction xs generalizing ys with
  | nil => rfl
  | cons x xs ih =>
      obtain ⟨hx, hxs⟩ := List.forall_mem_cons.mp h
      cases ys with
      | nil => rfl
      | cons y ys => rw [List.zipWith_cons_cons, List.zipWith_cons_cons, hx, ih hxs]

theorem Schema.zipSections_congr {f g : Section → Section → Section} {original : Schema}
    (h : ∀ page ∈ original.pages, ∀ s ∈ page.sections, f s = g s) (once : Schema) :
    original.zipSections f once = original.zipSections g once := by
  have hpage : ∀ page ∈ original.pages, page.zipSections f = page.zipSections g := by
    intro page hp
    funext once
    rw [Page.zipSections, zipWith_congr_of_mem (h page hp), Page.zipSections]
  rw [zipSections, zipWith_congr_of_mem hpage, zipSections]

theorem exists_enrichSection (hr : registry.Stable) (name : String) (s : Section) :
    ∃ once, registry.enrichSection name s = .ok once ∧ s.regrown registry name 1 once = once ∧
      ∀ passes, registry.enrichSection name (s.regrown registry name (passes + 1) once) =
        .ok (s.regrown registry name (passes + 2) once) := by
  cases hl : registry.lookup? s.type with
  | none =>
      refine ⟨s, by simp [Registry.enrichSection, hl], ?_, ?_⟩
      · simp [Section.regrown, Section.grownEntries, hl, Dict.overlay]
      · intro passes
        simp [Section.regrown, Section.grownEntries, hl, Registry.enrichSection, Dict.overlay]
  | some definition =>
      obtain ⟨kind, -, rfl⟩ := Option.map_eq_some_iff.mp hl
      obtain ⟨once, ha, hone, hmore⟩ := EnrichmentRule.exists_apply (hr kind) name s.props
      refine ⟨{ s with props := once }, by simp [Registry.enrichSection, hl, ha], ?_, ?_⟩
      · simp [Section.regrown, Section.grownEntries, hl, hone]
      · intro passes
        simp [Section.regrown, Section.grownEntries, hl, Registry.enrichSection, hmore]

theorem enrichSection_regrown (hr : registry.Stable) {s once : Section}
    (h : registry.enrichSection name s = .ok once) :
    s.regrown registry name 1 once = once ∧
      ∀ passes, registry.enrichSection name (s.regrown registry name (passes + 1) once) =
        .ok (s.regrown registry name (passes + 2) once) := by
  obtain ⟨made, hm, hagain⟩ := exists_enrichSection hr name s
  cases hm.symm.trans h
  exact hagain

theorem enrichPage_regrown (hr : registry.Stable) {page once : Page}
    (h : registry.enrichPage name page = .ok once) :
    page.zipSections (Section.regrown registry name 1) once = once ∧
      ∀ passes, registry.enrichPage name
          (page.zipSections (Section.regrown registry name (passes + 1)) once) =
        .ok (page.zipSections (Section.regrown registry name (passes + 2)) once) := by
  obtain ⟨sections, hs, rfl⟩ := Registry.enrichPage_eq_ok_iff.mp h
  have hall := Outcome.mapM_eq_ok_iff.mp hs
  constructor
  · rw [Page.zipSections, Outcome.zipWith_eq_right hall fun s once ho =>
      (enrichSection_regrown hr ho).1]
  · intro passes
    exact Registry.enrichPage_eq_ok_iff.mpr ⟨_, Outcome.mapM_zipWith hall fun s once ho =>
      (enrichSection_regrown hr ho).2 passes, rfl⟩

theorem exists_enrich (hr : registry.Stable) (schema : Schema) :
    ∃ once, registry.enrich schema = .ok once := by
  have hpage (page : Page) : ∃ once, registry.enrichPage schema.name page = .ok once := by
    obtain ⟨sections, hs⟩ := Outcome.exists_mapM_eq_ok fun s (_ : s ∈ page.sections) =>
      (exists_enrichSection hr schema.name s).imp fun _ h => h.1
    exact ⟨_, Registry.enrichPage_eq_ok_iff.mpr ⟨sections, hs, rfl⟩⟩
  obtain ⟨pages, hp⟩ := Outcome.exists_mapM_eq_ok fun page (_ : page ∈ schema.pages) => hpage page
  exact ⟨_, Registry.enrich_eq_ok_iff.mpr ⟨pages, hp, rfl⟩⟩

theorem enrich_regrown (hr : registry.Stable) {schema once : Schema}
    (h : registry.enrich schema = .ok once) :
    schema.zipSections (Section.regrown registry schema.name 1) once = once ∧
      ∀ passes, registry.enrich
          (schema.zipSections (Section.regrown registry schema.name (passes + 1)) once) =
        .ok (schema.zipSections (Section.regrown registry schema.name (passes + 2)) once) := by
  obtain ⟨pages, hp, rfl⟩ := Registry.enrich_eq_ok_iff.mp h
  have hall := Outcome.mapM_eq_ok_iff.mp hp
  constructor
  · rw [Schema.zipSections, Schema.pages_withPages,
      Outcome.zipWith_eq_right hall fun page once ho => (enrichPage_regrown hr ho).1]
    rfl
  · intro passes
    exact Registry.enrich_eq_ok_iff.mpr ⟨_, Outcome.mapM_zipWith hall fun page once ho =>
      (enrichPage_regrown hr ho).2 passes, rfl⟩

theorem enrichTimes_succ (registry : Registry) (times : Nat) (schema : Schema) :
    registry.enrichTimes (times + 1) schema =
      (registry.enrichTimes times schema).bind registry.enrich := by
  induction times generalizing schema with
  | zero =>
      rw [Registry.enrichTimes, Registry.enrichTimes, Except.bind]
      cases registry.enrich schema <;> rfl
  | succ times ih =>
      rw [Registry.enrichTimes, Registry.enrichTimes]
      cases registry.enrich schema with
      | error cause => rfl
      | ok once => exact ih once

/-- After the first pass over a schema only clauses grow. -/
theorem enrichTimes_regrown (hr : registry.Stable) {schema once : Schema}
    (h : registry.enrich schema = .ok once) (passes : Nat) :
    registry.enrichTimes (passes + 1) schema =
      .ok (schema.zipSections (Section.regrown registry schema.name (passes + 1)) once) := by
  obtain ⟨hone, hmore⟩ := enrich_regrown hr h
  induction passes with
  | zero => rw [enrichTimes_succ, Registry.enrichTimes, Except.bind, h, hone]
  | succ passes ih => rw [enrichTimes_succ, ih, Except.bind, hmore]

end Stable

/-! ## The default rules -/

/-- A list rule with phrases is stable if the first two positions have one. -/
theorem ListRule.stable_of_phrases {rule : ListRule} {first other : String}
    (hfirst : rule.phraseFor 0 = .ok first) (hother : rule.phraseFor 1 = .ok other)
    (hne : first ≠ "" ∧ other ≠ "")
    (hf : rule.fill (some (.array rule.fallback)) = .ok rule.fallback) : rule.Stable where
  phrases _ index := by
    cases index with
    | zero => exact ⟨first, hfirst, hne.1⟩
    | succ index => exact ⟨other, (rule.phraseFor_succ index).trans hother, hne.2⟩
  fallback := hf

theorem Registry.stable_default : Registry.default.Stable := by
  intro kind
  cases kind <;> refine ⟨by decide, by decide, by decide, by decide, ?_⟩ <;> rintro list ⟨⟩
  case pricing => exact ⟨nofun, rfl⟩
  all_goals exact ListRule.stable_of_phrases rfl rfl (by simp) (by
    simp [ListRule.fill, ListRule.fillItems, ListRule.fillItem, textFields, Dict.get?,
      List.lookup_cons, Json.isBlank])

/-- The text of a hero after so many passes: what it was, or else its default, with as many clauses
behind it. -/
def heroText (name : String) (passes : Nat) (props : Fields) (key : String) : String :=
  let rule := SectionDefinition.hero.enrichment
  let default := (rule.textDefaults.lookup key).getD ""
  let clause := (rule.appendedClauses.lookup key).getD ""
  grown (EnrichmentRule.given name default (Dict.get? props key)).display clause passes

def heroTexts (name : String) (passes : Nat) (props : Fields) : Fields :=
  ["headline", "subheadline"].map fun key => (key, .string (heroText name passes props key))

/-- A section that has seen one pass, with its headings as they are after more of them if it is a
hero. -/
def Section.withHeroTexts (name : String) (passes : Nat) (original once : Section) : Section :=
  if original.type = "hero" then
    { once with props := Dict.overlay once.props (heroTexts name passes original.props) }
  else once

theorem EnrichmentRule.grownEntries_of_no_clauses {rule : EnrichmentRule}
    (h : rule.appendedClauses = []) (name : String) (passes : Nat) (props : Fields) :
    rule.grownEntries name passes props = [] := by
  simp [grownEntries, grownEntry, h]

theorem grownEntries_hero (name : String) (passes : Nat) (props : Fields) :
    SectionDefinition.hero.enrichment.grownEntries name passes props =
      heroTexts name passes props := by
  simp [EnrichmentRule.grownEntries, EnrichmentRule.grownEntry, SectionDefinition.hero,
    List.lookup_cons, heroTexts, heroText]

theorem Registry.eq_nil_or_hero_of_lookup? {type : String} {definition : SectionDefinition}
    (h : Registry.default.lookup? type = some definition) :
    type ≠ "hero" ∧ definition.enrichment.appendedClauses = [] ∨
      type = "hero" ∧ definition = .hero := by
  obtain ⟨kind, hk, rfl⟩ := Option.map_eq_some_iff.mp h
  have htype : kind.name = type := by
    simpa using List.find?_some hk
  subst htype
  cases kind
  case hero => exact .inr ⟨rfl, rfl⟩
  all_goals exact .inl ⟨by decide, rfl⟩

theorem Section.regrown_default (name : String) (passes : Nat) (original once : Section) :
    original.regrown .default name passes once = original.withHeroTexts name passes once := by
  unfold regrown grownEntries withHeroTexts
  cases hl : Registry.default.lookup? original.type with
  | none =>
      have hne : original.type ≠ "hero" := fun he => by
        rw [he] at hl
        cases hl
      simp [hne, Dict.overlay]
  | some definition =>
      obtain ⟨hne, hclauses⟩ | ⟨htype, rfl⟩ := Registry.eq_nil_or_hero_of_lookup? hl
      · simp [hne, EnrichmentRule.grownEntries_of_no_clauses hclauses, Dict.overlay]
      · simp [htype, grownEntries_hero]

/-- A pass under the default rules never fails. Those after the first append one clause more to the
headings of heroes and change nothing else, so a schema without heroes has had all it gets. -/
theorem Registry.enrichTimes_default (schema : Schema) :
    ∃ once, Registry.default.enrich schema = .ok once ∧
      (∀ passes, Registry.default.enrichTimes (passes + 1) schema =
        .ok (schema.zipSections (Section.withHeroTexts schema.name (passes + 1)) once)) ∧
      ((∀ page ∈ schema.pages, ∀ s ∈ page.sections, s.type ≠ "hero") →
        Registry.default.enrich once = .ok once) := by
  obtain ⟨once, ho⟩ := exists_enrich stable_default schema
  obtain ⟨hone, hmore⟩ := enrich_regrown stable_default ho
  have hregrown (passes : Nat) : Section.regrown .default schema.name passes =
      Section.withHeroTexts schema.name passes := by
    funext original once
    exact Section.regrown_default schema.name passes original once
  refine ⟨once, ho, fun passes => ?_, fun hnone => ?_⟩
  · rw [enrichTimes_regrown stable_default ho, hregrown]
  · have hsame : schema.zipSections (Section.withHeroTexts schema.name 2) once =
        schema.zipSections (Section.withHeroTexts schema.name 1) once :=
      Schema.zipSections_congr (fun page hp s hs => by
        funext once
        simp [Section.withHeroTexts, hnone page hp s hs]) once
    have htwice := hmore 0
    rw [hone, hregrown, hsame, ← hregrown, hone] at htwice
    exact htwice

end Sitewright
