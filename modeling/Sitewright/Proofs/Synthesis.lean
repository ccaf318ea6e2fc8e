import Mathlib.Data.List.Nodup
import Sitewright.Proofs.Dictionary
import Sitewright.Proofs.Editor.Edits
import Sitewright.Synthesis

/-!
# Synthesized schemas

The pages of a synthesized schema have the slugs that the plan asks for, which are distinct, and the
ids of the sections on a page are distinct as each is made apart from those before it. Ids of
different kinds never meet, so a plan that puts no kind on a page twice can always be carried out.
-/

namespace Sitewright

/-- No slug is that of two pages, and no id that of two sections of one page. -/
structure Schema.Distinct (schema : Schema) : Prop where
  slugs : (schema.pages.map (·.slug)).Nodup
  ids : ∀ page ∈ schema.pages, page.sectionIds.Nodup

theorem keys_fillNameFields (name : String) (fields : Fields) :
    Dict.keys (fillNameFields name fields) = Dict.keys fields := by
  induction fields with
  | nil => rfl
  | cons entry rest ih => exact congrArg (entry.1 :: ·) ih

/-! ## First occurrences -/

/-- Each of the texts is there, in the order in which they first occur, and nothing else. -/
structure FirstOccurrences (texts kept : List String) : Prop where
  mem : ∀ text, text ∈ kept ↔ text ∈ texts
  order : kept.Pairwise fun text other => texts.idxOf text < texts.idxOf other

theorem FirstOccurrences.nodup {texts kept : List String} (h : FirstOccurrences texts kept) :
    kept.Nodup :=
  h.order.imp fun {_ _} hlt => by
    rintro rfl
    exact Nat.lt_irrefl _ hlt

theorem idxOf_lt_of_filter {p : String → Bool} {text other : String} (ho : p other = true)
    {texts : List String} (h : (texts.filter p).idxOf text < (texts.filter p).idxOf other) :
    texts.idxOf text < texts.idxOf other := by
  induction texts with
  | nil => exact h
  | cons first rest ih =>
      by_cases htext : first = text
      · subst htext
        have hne : first ≠ other := by
          rintro rfl
          exact Nat.lt_irrefl _ h
        rw [List.idxOf_cons_self, List.idxOf_cons_ne _ hne]
        exact Nat.succ_pos _
      · by_cases hother : first = other
        · subst hother
          rw [List.filter_cons_of_pos ho, List.idxOf_cons_self] at h
          exact absurd h (Nat.not_lt_zero _)
        · rw [List.idxOf_cons_ne _ htext, List.idxOf_cons_ne _ hother, Nat.succ_lt_succ_iff]
          apply ih
          by_cases hfirst : p first = true
          · rwa [List.filter_cons_of_pos hfirst, List.idxOf_cons_ne _ htext,
              List.idxOf_cons_ne _ hother, Nat.succ_lt_succ_iff] at h
          · rwa [List.filter_cons_of_neg hfirst] at h

theorem firstOccurrences_eraseDups (texts : List String) :
    FirstOccurrences texts texts.eraseDups := by
  refine ⟨fun text => List.mem_eraseDups, ?_⟩
  induction h : texts.length using Nat.strongRecOn generalizing texts with
  | ind n ih =>
      cases texts with
      | nil => exact .nil
      | cons first rest =>
          have hle : (rest.filter fun other => !other == first).length ≤ rest.length :=
            List.length_filter_le _ _
          have hshort : (rest.filter fun other => !other == first).length < n := by
            rw [← h, List.length_cons]
            omega
          have hkept (text) (hm : text ∈ (rest.filter fun other => !other == first).eraseDups) :
              (!text == first) = true :=
            (List.mem_filter.mp (List.mem_eraseDups.mp hm)).2
          have hlater (text) (hm : text ∈ (rest.filter fun other => !other == first).eraseDups) :
              (first :: rest).idxOf text = rest.idxOf text + 1 := by
            refine List.idxOf_cons_ne rest ?_
            rintro rfl
            simpa using hkept first hm
          rw [List.eraseDups_cons, List.pairwise_cons]
          refine ⟨?_, (ih _ hshort _ rfl).imp_of_mem ?_⟩
          · intro text hm
            rw [hlater text hm, List.idxOf_cons_self]
            exact Nat.succ_pos _
          · intro text other ht ho hlt
            rw [hlater text ht, hlater other ho, Nat.succ_lt_succ_iff]
            exact idxOf_lt_of_filter (hkept other ho) hlt

/-! ## What synthesis makes -/

namespace SitePlan

variable {plan : SitePlan} {name : String} {ids next : IdSource}

theorem firstOccurrences_slugs (plan : SitePlan) (wanted : List String) :
    FirstOccurrences ((if wanted = [] then plan.defaultSlugs else wanted).map lowerText)
      (plan.slugs wanted) := by
  have hslugs : plan.slugs wanted =
      ((if wanted = [] then plan.defaultSlugs else wanted).map lowerText).eraseDups := by
    simp only [slugs, List.isEmpty_iff]
  rw [hslugs]
  exact firstOccurrences_eraseDups _

theorem nodup_slugs (plan : SitePlan) (wanted : List String) : (plan.slugs wanted).Nodup :=
  (plan.firstOccurrences_slugs wanted).nodup

theorem buildSections_cons {kind : SectionKind} {kinds : List SectionKind}
    {built sections : List Section}
    (h : plan.buildSections name (kind :: kinds) built ids = .ok (sections, next)) :
    ∃ made rest, plan.buildSection name kind (built.map (·.id)) ids = .ok (made, rest) ∧
      plan.buildSections name kinds (built ++ [made]) rest = .ok (sections, next) := by
  rw [buildSections] at h
  cases hs : plan.buildSection name kind (built.map (·.id)) ids with
  | error cause => simp [hs] at h
  | ok result =>
      simp only [hs] at h
      exact ⟨result.1, result.2, rfl, h⟩

theorem buildPage_eq_ok_iff {slug : String} {page : Page} :
    plan.buildPage name slug ids = .ok (page, next) ↔
      ∃ sections, plan.buildSections name (plan.preset slug) [] ids = .ok (sections, next) ∧
        page = { slug, title := plan.title slug, sections } := by
  unfold buildPage
  cases plan.buildSections name (plan.preset slug) [] ids with
  | error cause => simp
  | ok result =>
      obtain ⟨sections, rest⟩ := result
      simp only [Except.ok.injEq, Prod.mk.injEq]
      constructor
      · rintro ⟨rfl, rfl⟩
        exact ⟨sections, ⟨rfl, rfl⟩, rfl⟩
      · rintro ⟨_, ⟨rfl, rfl⟩, rfl⟩
        exact ⟨rfl, rfl⟩

theorem buildPages_cons {slug : String} {slugs : List String} {pages : List Page}
    (h : plan.buildPages name (slug :: slugs) ids = .ok (pages, next)) :
    ∃ page rest others, plan.buildPage name slug ids = .ok (page, rest) ∧
      plan.buildPages name slugs rest = .ok (others, next) ∧ pages = page :: others := by
  rw [buildPages] at h
  cases hp : plan.buildPage name slug ids with
  | error cause => simp [hp] at h
  | ok result =>
      obtain ⟨page, rest⟩ := result
      cases hr : plan.buildPages name slugs rest with
      | error cause => simp [hp, hr] at h
      | ok others =>
          simp only [hp, hr, Except.ok.injEq, Prod.mk.injEq] at h
          obtain ⟨rfl, rfl⟩ := h
          exact ⟨page, rest, others.1, rfl, hr, rfl⟩

theorem nodup_buildSections {kinds : List SectionKind} {built sections : List Section}
    (hb : (built.map (·.id)).Nodup)
    (h : plan.buildSections name kinds built ids = .ok (sections, next)) :
    (sections.map (·.id)).Nodup := by
  induction kinds generalizing built ids with
  | nil =>
      cases h
      exact hb
  | cons kind kinds ih =>
      obtain ⟨made, rest, hs, h⟩ := buildSections_cons h
      have hf : made.id ∉ built.map (·.id) := (Registry.createSection_eq_ok hs).1
      refine ih ?_ h
      rw [List.map_append]
      exact List.Nodup.append hb (List.nodup_singleton _) (by simpa using hf)

theorem buildPage_eq_ok {slug : String} {page : Page}
    (h : plan.buildPage name slug ids = .ok (page, next)) :
    page.slug = slug ∧ page.sectionIds.Nodup := by
  obtain ⟨sections, hs, rfl⟩ := buildPage_eq_ok_iff.mp h
  have hn : (([] : List Section).map (·.id)).Nodup := List.nodup_nil
  exact ⟨rfl, nodup_buildSections hn hs⟩

theorem buildPages_eq_ok {slugs : List String} {pages : List Page}
    (h : plan.buildPages name slugs ids = .ok (pages, next)) :
    pages.map (·.slug) = slugs ∧ ∀ page ∈ pages, page.sectionIds.Nodup := by
  induction slugs generalizing pages ids with
  | nil =>
      cases h
      exact ⟨rfl, by simp⟩
  | cons slug slugs ih =>
      obtain ⟨page, rest, others, hp, hr, rfl⟩ := buildPages_cons h
      obtain ⟨hslug, hids⟩ := buildPage_eq_ok hp
      obtain ⟨hslugs, hothers⟩ := ih hr
      exact ⟨by simp [hslug, hslugs], by simpa using ⟨hids, hothers⟩⟩

theorem synthesize_eq_ok {brief : Brief} {schema : Schema}
    (h : plan.synthesize brief ids = .ok (schema, next)) :
    ∃ pages colors,
      plan.buildPages brief.projectName (plan.slugs brief.pagesWanted) ids = .ok (pages, next) ∧
      plan.chooseColors brief.primaryColor brief.secondaryColor = .ok colors ∧
      schema = { website := { name := brief.projectName, colors, pages } } := by
  obtain ⟨⟨pages, rest⟩, hp, hr⟩ := Outcome.bind_eq_ok_iff.mp h
  obtain ⟨colors, hc, he⟩ := Outcome.bind_pure_eq_ok_iff.mp hr
  cases he
  exact ⟨pages, colors, hp, hc, rfl⟩

theorem distinct_of_synthesize {brief : Brief} {schema : Schema}
    (h : plan.synthesize brief ids = .ok (schema, next)) : schema.Distinct := by
  obtain ⟨pages, colors, hp, -, rfl⟩ := synthesize_eq_ok h
  obtain ⟨hslugs, hids⟩ := buildPages_eq_ok hp
  exact ⟨hslugs ▸ plan.nodup_slugs _, hids⟩

/-- Colours that are chosen bring no further entries along. -/
theorem extra_of_chooseColors {primary secondary : Option String} {colors : Colors}
    (h : plan.chooseColors primary secondary = .ok colors) : colors.extra = [] := by
  unfold chooseColors at h
  cases primary with
  | some first =>
      cases secondary with
      | some second =>
          cases h
          rfl
      | none =>
          obtain ⟨second, -, he⟩ := Outcome.bind_pure_eq_ok_iff.mp h
          cases he
          rfl
  | none =>
      obtain ⟨first, -, hs⟩ := Outcome.bind_eq_ok_iff.mp h
      cases secondary with
      | some second =>
          cases hs
          rfl
      | none =>
          obtain ⟨second, -, he⟩ := Outcome.bind_pure_eq_ok_iff.mp hs
          cases he
          rfl

theorem distinct_of_defaultSchema {schema : Schema}
    (h : plan.defaultSchema name ids = .ok (schema, next)) : schema.Distinct := by
  obtain ⟨⟨hero, rest⟩, hp, hr⟩ := Outcome.bind_eq_ok_iff.mp h
  obtain ⟨colors, -, he⟩ := Outcome.bind_pure_eq_ok_iff.mp hr
  cases he
  exact ⟨List.nodup_singleton _, by simp [Schema.pages, Page.sectionIds]⟩

end SitePlan

/-! ## Synthesis succeeds -/

def SectionKind.Stems (kind : SectionKind) (id : String) : Prop :=
  ∃ rest, id = Registry.idStem kind ++ rest

theorem Registry.stems_of_createSection {registry : Registry} {kind : SectionKind}
    {props : Option Fields} {taken : List String} {ids next : IdSource} {made : Section}
    (h : registry.createSection kind props taken ids = .ok (made, next)) :
    kind.Stems made.id := by
  obtain ⟨found, -, -, rfl, -⟩ := createSection_eq_ok_iff.mp h
  exact ⟨ids.suffix found, rfl⟩

theorem SectionKind.Stems.unique {kind other : SectionKind} {id : String} (h : kind.Stems id)
    (ho : other.Stems id) : kind = other := by
  -- no stem is the beginning of another one
  have hstems : ∀ first ∈ all, ∀ second ∈ all,
      (Registry.idStem first).toList <+: (Registry.idStem second).toList → first = second := by
    decide
  obtain ⟨rest, rfl⟩ := h
  obtain ⟨rest', he⟩ := ho
  have hkind : (Registry.idStem kind).toList <+: (Registry.idStem kind ++ rest).toList := by
    rw [String.toList_append]
    exact List.prefix_append ..
  have hother : (Registry.idStem other).toList <+: (Registry.idStem kind ++ rest).toList := by
    rw [he, String.toList_append]
    exact List.prefix_append ..
  rcases List.prefix_or_prefix_of_prefix hkind hother with hp | hp
  · exact hstems _ (mem_all _) _ (mem_all _) hp
  · exact (hstems _ (mem_all _) _ (mem_all _) hp).symm

theorem Registry.exists_createSection (registry : Registry) (kind : SectionKind)
    (props : Option Fields) (taken : List String) {ids : IdSource} (hp : 0 < ids.patience)
    (ht : ∀ id ∈ taken, ¬ kind.Stems id) :
    ∃ made next, registry.createSection kind props taken ids = .ok (made, next) ∧
      kind.Stems made.id ∧ next.patience = ids.patience := by
  have hfree : ids.candidate (idStem kind) ids.used ∉ taken := fun hm => ht _ hm ⟨_, rfl⟩
  have hfirst := (IdSource.firstFree_iff_of_not_mem hfree).mpr rfl
  have hmade : registry.createSection kind props taken ids =
      .ok (registry.sectionAt kind props ids ids.used, { ids with used := ids.used + 1 }) :=
    createSection_eq_ok_iff.mpr ⟨ids.used, hfirst, Nat.lt_add_of_pos_right hp, rfl, rfl⟩
  exact ⟨_, _, hmade, ⟨ids.suffix ids.used, rfl⟩, rfl⟩

namespace SitePlan

variable {plan : SitePlan} {ids : IdSource}

/-- The ids of the sections that are built belong to kinds that do not come again. -/
theorem exists_buildSections (plan : SitePlan) (name : String) {kinds : List SectionKind}
    (built : List Section) (hp : 0 < ids.patience) (hn : kinds.Nodup)
    (hb : ∀ kind ∈ kinds, ∀ s ∈ built, ¬ kind.Stems s.id) :
    ∃ sections next, plan.buildSections name kinds built ids = .ok (sections, next) ∧
      next.patience = ids.patience := by
  induction kinds generalizing built ids with
  | nil => exact ⟨built, ids, rfl, rfl⟩
  | cons kind kinds ih =>
      obtain ⟨hkind, hrest⟩ := List.nodup_cons.mp hn
      rw [List.forall_mem_cons] at hb
      obtain ⟨made, rest, hm, hstem, hpatience⟩ := plan.registry.exists_createSection kind
        (some (fillNameFields name (plan.registry.definition kind).synthesisProps))
        (built.map (·.id)) hp (List.forall_mem_map.mpr hb.1)
      have hlater : ∀ other ∈ kinds, ∀ s ∈ built ++ [made], ¬ other.Stems s.id := by
        intro other ho s hs hother
        rcases List.mem_append.mp hs with hs | hs
        · exact hb.2 other ho s hs hother
        · rw [List.mem_singleton.mp hs] at hother
          exact hkind (hstem.unique hother ▸ ho)
      obtain ⟨sections, next, hsections, hnext⟩ := ih _ (hpatience ▸ hp) hrest hlater
      refine ⟨sections, next, ?_, hnext.trans hpatience⟩
      rw [buildSections, buildSection, hm]
      exact hsections

theorem exists_buildPages (hpreset : ∀ slug, (plan.preset slug).Nodup) (name : String)
    (hp : 0 < ids.patience) (slugs : List String) :
    ∃ pages next, plan.buildPages name slugs ids = .ok (pages, next) := by
  induction slugs generalizing ids with
  | nil => exact ⟨[], ids, rfl⟩
  | cons slug slugs ih =>
      obtain ⟨sections, rest, hs, hpatience⟩ :=
        plan.exists_buildSections name [] hp (hpreset slug) (by simp)
      obtain ⟨pages, next, ho⟩ := ih (hpatience ▸ hp)
      refine ⟨⟨slug, plan.title slug, sections, []⟩ :: pages, next, ?_⟩
      simp only [buildPages, buildPage, hs, ho]

theorem nodup_preset_default (registry : Registry) (slug : String) :
    ((default registry).preset slug).Nodup := by
  have hpresets : ∀ entry ∈ defaultPresets, entry.2.Nodup := by decide
  have hfallback : fallbackPreset.Nodup := by decide
  rw [preset]
  cases hl : (default registry).presets.lookup slug with
  | none => exact hfallback
  | some kinds => exact hpresets _ (Dict.mem_of_get? hl)

theorem exists_chooseColors_default (registry : Registry) (primary secondary : Option String) :
    ∃ colors, (default registry).chooseColors primary secondary = .ok colors := by
  cases primary <;> cases secondary <;> exact ⟨_, rfl⟩

/-- The default plan can be carried out for every brief, as long as draws are looked at at all. -/
theorem exists_synthesize_default (registry : Registry) (brief : Brief) (hp : 0 < ids.patience) :
    ∃ schema next, (default registry).synthesize brief ids = .ok (schema, next) := by
  obtain ⟨pages, next, hpages⟩ := exists_buildPages (nodup_preset_default registry)
    brief.projectName hp ((default registry).slugs brief.pagesWanted)
  obtain ⟨colors, hc⟩ :=
    exists_chooseColors_default registry brief.primaryColor brief.secondaryColor
  exact ⟨_, next, Outcome.bind_eq_ok_iff.mpr ⟨_, hpages, Outcome.bind_pure_eq_ok_iff.mpr
    ⟨colors, hc, rfl⟩⟩⟩

theorem exists_defaultSchema_default (registry : Registry) (name : String)
    (hp : 0 < ids.patience) :
    ∃ schema next, (default registry).defaultSchema name ids = .ok (schema, next) := by
  obtain ⟨hero, next, hh, -⟩ := registry.exists_createSection .hero
    (some (fillNameFields name (registry.definition .hero).synthesisProps)) [] hp (by simp)
  obtain ⟨colors, hc⟩ := exists_chooseColors_default registry none none
  exact ⟨_, next, Outcome.bind_eq_ok_iff.mpr ⟨(hero, next), hh, Outcome.bind_pure_eq_ok_iff.mpr
    ⟨colors, hc, rfl⟩⟩⟩

end SitePlan

end Sitewright
