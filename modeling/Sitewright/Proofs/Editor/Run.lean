import Sitewright.Proofs.Editor.Edits
import Sitewright.Proofs.Synthesis

/-!
# Runs of edits

Pages and sections stay distinct over every run of edits. No page is dropped, retitled or moved: the
pages that were there come first. On each of them the sections that the run has not removed stand
first, in their order and with their headings, and behind them some of the sections that the run
has added.
-/

namespace Sitewright

namespace Edit

def history (registry : Registry) : State → List Edit → List (Edit × Option Section)
  | _, [] => []
  | state, edit :: edits =>
      match edit.apply registry state with
      | .ok (next, made) => (edit, made) :: history registry next edits
      | .error _ => history registry state edits

def removal? : Edit × Option Section → Option (String × String)
  | (.removeSection slug id, _) => some (slug, id)
  | _ => none

def addition? : Edit × Option Section → Option (String × Section)
  | (.addSection slug _, some made) => some (slug, made)
  | _ => none

end Edit

def removals (done : List (Edit × Option Section)) : List (String × String) :=
  done.filterMap Edit.removal?

def additions (done : List (Edit × Option Section)) : List (String × Section) :=
  done.filterMap Edit.addition?

def additionsTo (slug : String) (done : List (Edit × Option Section)) :
    List (String × String × Fields) :=
  ((additions done).filter fun entry => entry.1 = slug).map fun entry => entry.2.heading

/-- What becomes of a page: its sections without the removed ones, and added ones behind them. -/
structure Page.Follows (done : List (Edit × Option Section)) (page later : Page) : Prop where
  heading : later.heading = page.heading
  sections : ∃ added : List (String × String × Fields),
    later.sectionHeadings =
        page.sectionHeadings.filter (fun heading => (page.slug, heading.1) ∉ removals done) ++ added ∧
      added.Sublist (additionsTo page.slug done)

def Schema.Follows (done : List (Edit × Option Section)) (schema later : Schema) : Prop :=
  ∀ (i : Nat) (page : Page), schema.pages[i]? = some page →
    ∃ page', later.pages[i]? = some page' ∧ page.Follows done page'

section Follows

variable {done more : List (Edit × Option Section)}

@[simp] theorem removals_append (done more : List (Edit × Option Section)) :
    removals (done ++ more) = removals done ++ removals more :=
  List.filterMap_append

@[simp] theorem additionsTo_append (slug : String) (done more : List (Edit × Option Section)) :
    additionsTo slug (done ++ more) = additionsTo slug done ++ additionsTo slug more := by
  simp [additionsTo, additions]

namespace Page.Follows

variable {page later latest : Page}

theorem unchanged (hh : later.heading = page.heading)
    (hs : later.sectionHeadings = page.sectionHeadings) (hr : removals done = []) :
    page.Follows done later :=
  ⟨hh, [], by simp [hs, hr], List.nil_sublist _⟩

theorem trans (h : page.Follows done later) (h' : later.Follows more latest) :
    page.Follows (done ++ more) latest := by
  obtain ⟨added, hs, ha⟩ := h.sections
  obtain ⟨added', hs', ha'⟩ := h'.sections
  have hslug : later.slug = page.slug := slug_eq_of_heading_eq h.heading
  rw [hslug] at hs' ha'
  let kept := added.filter fun heading => (page.slug, heading.1) ∉ removals more
  refine ⟨h'.heading.trans h.heading, kept ++ added', ?_, ?_⟩
  · rw [hs', hs, List.filter_append, List.filter_filter, List.append_assoc]
    congr 1
    apply List.filter_congr
    intro heading _
    simp [Bool.and_comm]
  · rw [additionsTo_append]
    exact (List.filter_sublist.trans ha).append ha'

end Page.Follows

namespace Schema.Follows

variable {schema later latest : Schema}

theorem refl (schema : Schema) : schema.Follows [] schema := by
  intro i page hp
  exact ⟨page, hp, Page.Follows.unchanged rfl rfl rfl⟩

theorem trans (h : schema.Follows done later) (h' : later.Follows more latest) :
    schema.Follows (done ++ more) latest := by
  intro i page hp
  obtain ⟨page', hp', hf⟩ := h i page hp
  obtain ⟨page'', hp'', hf'⟩ := h' i page' hp'
  exact ⟨page'', hp'', hf.trans hf'⟩

theorem headings_prefix (h : schema.Follows done later) :
    schema.pages.map Page.heading <+: later.pages.map Page.heading := by
  rw [List.prefix_iff_getElem?]
  intro i hi
  have hi' : i < schema.pages.length := by simpa using hi
  obtain ⟨page', hp, hf⟩ := h i schema.pages[i] (List.getElem?_eq_getElem hi')
  simp [hp, hf.heading]

/-- A change to the pages with one slug, the other pages being kept. -/
theorem mapPages {slug : String} {change : Page → Page}
    (hc : ∀ page : Page, page.slug = slug → page.Follows done (change page))
    (ho : ∀ page : Page, page.slug ≠ slug → page.Follows done page) :
    schema.Follows done (schema.mapPages slug change) := by
  intro i page hp
  rw [Schema.pages_mapPages, List.getElem?_map, hp]
  refine ⟨_, rfl, ?_⟩
  by_cases hs : page.slug = slug
  · simpa only [if_pos hs] using hc page hs
  · simpa only [if_neg hs] using ho page hs

end Schema.Follows

end Follows

namespace Edit

variable {registry : Registry} {state next : State} {made : Option Section}

theorem follows_of_apply {edit : Edit} (h : edit.apply registry state = .ok (next, made)) :
    state.schema.Follows [(edit, made)] next.schema := by
  cases edit with
  | addPage title =>
      obtain ⟨ha, -, rfl⟩ := apply_addPage_eq_ok h
      obtain ⟨-, -, he⟩ := Schema.addPage_eq_ok_iff.mp ha
      intro i page hp
      refine ⟨page, ?_, Page.Follows.unchanged rfl rfl rfl⟩
      rw [he, Schema.pages_withPages]
      exact List.getElem?_append_left (List.getElem?_eq_some_iff.mp hp).1 ▸ hp
  | addSection slug type =>
      obtain ⟨s, ha, rfl⟩ := apply_addSection_eq_ok h
      obtain ⟨kind, page, -, -, -, he⟩ := Schema.addSection_eq_ok ha
      rw [he]
      apply Schema.Follows.mapPages
      · intro page hp
        refine ⟨rfl, [s.heading], ?_, ?_⟩
        · simp [removals, removal?]
        · simp [additionsTo, additions, addition?, hp]
      · intro page _
        exact Page.Follows.unchanged rfl rfl rfl
  | removeSection slug id =>
      obtain ⟨ha, -, rfl⟩ := apply_removeSection_eq_ok h
      obtain ⟨page, -, -, he⟩ := Schema.changeSection_eq_ok_iff.mp ha
      rw [he]
      apply Schema.Follows.mapPages
      · intro page hp
        refine ⟨rfl, [], ?_, List.nil_sublist _⟩
        rw [Page.sectionHeadings_remove, List.append_nil]
        apply List.filter_congr
        intro heading _
        simp [removals, removal?, hp, bne, Bool.beq_eq_decide_eq]
      · intro page hp
        refine ⟨rfl, [], ?_, List.nil_sublist _⟩
        simp [removals, removal?, hp]
  | updateProps slug id partialProps =>
      obtain ⟨ha, -, rfl⟩ := apply_updateProps_eq_ok h
      obtain ⟨page, -, -, he⟩ := Schema.changeSection_eq_ok_iff.mp ha
      rw [he]
      apply Schema.Follows.mapPages
      · intro page _
        exact Page.Follows.unchanged rfl (Page.sectionHeadings_updateProps ..) rfl
      · intro page _
        exact Page.Follows.unchanged rfl rfl rfl
  | enrich =>
      obtain ⟨ha, -, rfl⟩ := apply_enrich_eq_ok h
      intro i page hp
      obtain ⟨hlen, hget⟩ := List.forall₂_iff_get.mp (Registry.pages_enrich ha)
      obtain ⟨hi, rfl⟩ := List.getElem?_eq_some_iff.mp hp
      have hi' : i < next.schema.pages.length := hlen ▸ hi
      have hpage := Registry.heading_enrichPage (hget i hi hi')
      exact ⟨_, List.getElem?_eq_getElem hi', Page.Follows.unchanged hpage.1 hpage.2 rfl⟩

theorem follows_run (registry : Registry) (state : State) (edits : List Edit) :
    state.schema.Follows (history registry state edits) (run registry state edits).schema := by
  induction edits generalizing state with
  | nil => exact Schema.Follows.refl _
  | cons edit edits ih =>
      cases ha : edit.apply registry state with
      | error cause =>
          have hs : step registry state edit = state := by simp [step, ha]
          simpa only [history, ha, run, List.foldl_cons, hs] using ih state
      | ok result =>
          obtain ⟨next, made⟩ := result
          have hs : step registry state edit = next := by simp [step, ha]
          have ht := (follows_of_apply ha).trans (ih next)
          simpa only [history, ha, run, List.foldl_cons, hs, List.singleton_append] using ht

end Edit

/-! ## Distinct slugs and ids -/

namespace Schema

variable {schema : Schema} {slug : String}

theorem Distinct.mapPages (h : schema.Distinct) {change : Page → Page}
    (hc : ∀ page : Page, (change page).slug = page.slug)
    (hi : ∀ page ∈ schema.pages, page.slug = slug → (change page).sectionIds.Nodup) :
    (schema.mapPages slug change).Distinct := by
  constructor
  · rw [pages_mapPages, List.map_map]
    have hs : ((fun page : Page => page.slug) ∘
        fun page => if page.slug = slug then change page else page) = fun page => page.slug := by
      funext page
      by_cases hp : page.slug = slug <;> simp [hp, hc]
    rw [hs]
    exact h.slugs
  · intro page hm
    rw [pages_mapPages] at hm
    obtain ⟨original, ho, rfl⟩ := List.mem_map.mp hm
    by_cases hp : original.slug = slug
    · simpa only [if_pos hp] using hi original ho hp
    · simpa only [if_neg hp] using h.ids original ho

end Schema

namespace Edit

variable {registry : Registry} {state next : State} {made : Option Section}

theorem distinct_of_apply {edit : Edit} (h : edit.apply registry state = .ok (next, made))
    (hd : state.schema.Distinct) : next.schema.Distinct := by
  cases edit with
  | addPage title =>
      obtain ⟨hne, hnone, he⟩ := Schema.addPage_eq_ok_iff.mp (apply_addPage_eq_ok h).1
      rw [he]
      constructor
      · rw [Schema.pages_withPages, List.map_append]
        apply List.Nodup.append hd.slugs (List.nodup_singleton _)
        intro slug hs hnew
        obtain ⟨page, hm, rfl⟩ := List.mem_map.mp hs
        exact Schema.slug_ne_of_findPage?_eq_none hnone hm (by simpa using hnew)
      · intro page hm
        rcases List.mem_append.mp hm with hm | hm
        · exact hd.ids page hm
        · rw [List.mem_singleton.mp hm]
          exact List.nodup_nil
  | addSection slug type =>
      obtain ⟨s, ha, rfl⟩ := apply_addSection_eq_ok h
      obtain ⟨kind, found, -, hf, hc, he⟩ := Schema.addSection_eq_ok ha
      rw [he]
      apply hd.mapPages
      · intro page
        rfl
      · intro page hm hs
        -- the ids taken are those of the page itself
        have hfresh := (Registry.createSection_eq_ok hc).1
        rw [← Schema.eq_of_findPage? hd.slugs hf hm hs] at hfresh
        have hids : (page.append s).sectionIds = page.sectionIds ++ [s.id] := by
          simp [Page.append, Page.sectionIds]
        rw [hids]
        exact List.Nodup.append (hd.ids page hm) (List.nodup_singleton _) (by simpa using hfresh)
  | removeSection slug id =>
      obtain ⟨page, -, -, he⟩ :=
        Schema.changeSection_eq_ok_iff.mp (apply_removeSection_eq_ok h).1
      rw [he]
      apply hd.mapPages
      · intro page
        rfl
      · intro page hm _
        exact (hd.ids page hm).sublist (List.filter_sublist.map _)
  | updateProps slug id partialProps =>
      obtain ⟨page, -, -, he⟩ :=
        Schema.changeSection_eq_ok_iff.mp (apply_updateProps_eq_ok h).1
      rw [he]
      apply hd.mapPages
      · intro page
        rfl
      · intro page hm _
        rw [Page.sectionIds_eq_map, Page.sectionHeadings_updateProps, ← Page.sectionIds_eq_map]
        exact hd.ids page hm
  | enrich =>
      have hp := Registry.pages_enrich (apply_enrich_eq_ok h).1
      constructor
      · have hs : next.schema.pages.map (·.slug) = state.schema.pages.map (·.slug) := by
          rw [← List.forall₂_eq_eq_eq, List.forall₂_map_left_iff, List.forall₂_map_right_iff]
          exact (hp.imp fun page page' he =>
            Page.slug_eq_of_heading_eq (Registry.heading_enrichPage he).1).flip
        exact hs ▸ hd.slugs
      · intro page hm
        obtain ⟨original, ho, he⟩ := Outcome.exists_of_mem_right hp hm
        rw [Page.sectionIds_eq_map, (Registry.heading_enrichPage he).2, ← Page.sectionIds_eq_map]
        exact hd.ids original ho

theorem distinct_run (registry : Registry) (state : State) (edits : List Edit)
    (hd : state.schema.Distinct) : (run registry state edits).schema.Distinct := by
  induction edits generalizing state with
  | nil => exact hd
  | cons edit edits ih =>
      rw [run, List.foldl_cons]
      apply ih
      cases ha : edit.apply registry state with
      | error cause => simpa only [step, ha] using hd
      | ok result => simpa only [step, ha] using distinct_of_apply ha hd

/-- Synthesized schemas and default schemas are distinct, and over any run of edits that starts from
a distinct schema all slugs and ids stay distinct, the pages keep their places and titles, and the
sections that were not removed stay in front of the added ones. -/
theorem run_keeps_pages_and_sections :
    (∀ (plan : SitePlan) (brief : Brief) (ids next : IdSource) (schema : Schema),
      plan.synthesize brief ids = .ok (schema, next) → schema.Distinct) ∧
    (∀ (plan : SitePlan) (name : String) (ids next : IdSource) (schema : Schema),
      plan.defaultSchema name ids = .ok (schema, next) → schema.Distinct) ∧
    ∀ (registry : Registry) (start : State) (edits : List Edit), start.schema.Distinct →
      (run registry start edits).schema.Distinct ∧
      start.schema.pages.map Page.heading <+:
        (run registry start edits).schema.pages.map Page.heading ∧
      ∀ (i : Nat) (page : Page), start.schema.pages[i]? = some page →
        ∃ later, (run registry start edits).schema.pages[i]? = some later ∧
          page.Follows (history registry start edits) later := by
  refine ⟨?_, ?_, ?_⟩
  · intro plan brief ids next schema h
    exact SitePlan.distinct_of_synthesize h
  · intro plan name ids next schema h
    exact SitePlan.distinct_of_defaultSchema h
  · intro registry start edits hd
    have hf := follows_run registry start edits
    exact ⟨distinct_run registry start edits hd, hf.headings_prefix, hf⟩

/-- A run that removes a section, adds one and enriches, on a page of two sections. -/
theorem run_keeps_pages_and_sections_of_one_page :
    let page : Page :=
      { slug := "home", title := "Home",
        sections := [{ id := "a", type := "hero", props := [] },
          { id := "b", type := "map", props := [], extra := [("note", .null)] }] }
    let start : State :=
      ⟨{ website := { name := "Acme", colors := Colors.default, pages := [page] } },
        IdSource.ofList ["b"]⟩
    let edits : List Edit :=
      [.removeSection "home" "a", .addSection "home" (.string "cta"), .enrich]
    start.schema.Distinct ∧
      (run Registry.default start edits).schema.Distinct ∧
      start.schema.pages.map Page.heading <+:
        (run Registry.default start edits).schema.pages.map Page.heading ∧
      ∀ (i : Nat) (page : Page), start.schema.pages[i]? = some page →
        ∃ later, (run Registry.default start edits).schema.pages[i]? = some later ∧
          page.Follows (history Registry.default start edits) later := by
  intro page start edits
  have hd : start.schema.Distinct :=
    ⟨List.nodup_singleton _, by simp [start, page, Schema.pages, Page.sectionIds]⟩
  exact ⟨hd, run_keeps_pages_and_sections.2.2 Registry.default start edits hd⟩

end Edit

end Sitewright
