import Sitewright.Proofs.Schema.RoundTrip
import Sitewright.Proofs.Synthesis

/-!
# Edits keep schemas tidy

No edit touches the entries beyond the declared ones, and what is made anew has none. So a tidy
schema stays tidy, and a schema that synthesis makes is tidy: both can be written as JSON and read
back.
-/

namespace Sitewright

theorem Section.tidy_of_extra_eq_nil {s : Section} (h : s.extra = []) : s.Tidy :=
  ⟨h ▸ Fields.extra_nil _⟩

theorem Section.Tidy.of_heading_eq {s other : Section} (h : s.Tidy)
    (he : other.heading = s.heading) : other.Tidy := by
  have hx : other.extra = s.extra := congrArg (·.2.2) he
  exact ⟨hx ▸ h.extra⟩

namespace Page.Tidy

variable {page : Page}

theorem append (h : page.Tidy) {s : Section} (hs : s.Tidy) : (page.append s).Tidy := by
  refine ⟨?_, h.extra⟩
  intro other hm
  rcases List.mem_append.mp hm with hm | hm
  · exact h.sections other hm
  · exact List.mem_singleton.mp hm ▸ hs

theorem remove (h : page.Tidy) (id : String) : (page.remove id).Tidy :=
  ⟨fun s hm => h.sections s (List.mem_filter.mp hm).1, h.extra⟩

/-- A page with the same headings is as tidy. -/
theorem of_headings_eq (h : page.Tidy) {other : Page} (hp : other.heading = page.heading)
    (hs : other.sectionHeadings = page.sectionHeadings) : other.Tidy := by
  have hx : other.extra = page.extra := congrArg (·.2.2) hp
  refine ⟨?_, hx ▸ h.extra⟩
  intro s hm
  have hmap : s.heading ∈ page.sectionHeadings := hs ▸ List.mem_map_of_mem hm
  obtain ⟨original, ho, he⟩ := List.mem_map.mp hmap
  exact (h.sections original ho).of_heading_eq he.symm

end Page.Tidy

namespace Schema.Tidy

variable {schema : Schema}

theorem withPages (h : schema.Tidy) {pages : List Page} (hp : ∀ page ∈ pages, page.Tidy) :
    (schema.withPages pages).Tidy :=
  ⟨⟨h.website.colors, hp, h.website.extra⟩, h.extra⟩

end Schema.Tidy

theorem Page.Tidy.of_change {registry : Registry} {edit : Edit} {page later : Page}
    (h : page.Tidy) (hc : edit.Change registry page later) : later.Tidy := by
  cases hc with
  | same => exact h
  | appended created =>
      exact h.append (Section.tidy_of_extra_eq_nil (Registry.createSection_eq_ok created).2.2.2)
  | removed => exact h.remove _
  | updated => exact h.of_headings_eq rfl (Page.sectionHeadings_updateProps page _ _)
  | enriched enriches =>
      obtain ⟨hheading, hsections⟩ := Registry.heading_enrichPage enriches
      exact h.of_headings_eq hheading hsections

theorem Edit.tidy_of_apply {registry : Registry} {state next : Edit.State} {edit : Edit}
    {made : Option Section} (h : edit.apply registry state = .ok (next, made))
    (ht : state.schema.Tidy) : next.schema.Tidy := by
  obtain ⟨hw, hpages⟩ := changes_of_apply h
  rw [hw]
  apply ht.withPages
  intro page hm
  rcases hpages page hm with ⟨title, -, rfl⟩ | ⟨original, ho, hc⟩
  · exact ⟨by simp, Fields.extra_nil _⟩
  · exact (ht.website.pages original ho).of_change hc

/-! ## Synthesis -/

namespace SitePlan

variable {plan : SitePlan} {name : String} {ids next : IdSource}

theorem tidy_of_chooseColors {primary secondary : Option String} {colors : Colors}
    (h : plan.chooseColors primary secondary = .ok colors) : colors.Tidy :=
  ⟨extra_of_chooseColors h ▸ Fields.extra_nil _⟩

theorem tidy_of_defaultSchema {schema : Schema}
    (h : plan.defaultSchema name ids = .ok (schema, next)) : schema.Tidy := by
  obtain ⟨⟨hero, rest⟩, hb, hr⟩ := Outcome.bind_eq_ok_iff.mp h
  obtain ⟨colors, hc, he⟩ := Outcome.bind_pure_eq_ok_iff.mp hr
  cases he
  obtain ⟨-, -, -, hx⟩ := Registry.createSection_eq_ok hb
  refine ⟨⟨tidy_of_chooseColors hc, ?_, Fields.extra_nil _⟩, Fields.extra_nil _⟩
  intro page hm
  rw [List.mem_singleton.mp hm]
  refine ⟨?_, Fields.extra_nil _⟩
  intro s hs
  rw [List.mem_singleton.mp hs]
  exact Section.tidy_of_extra_eq_nil hx

end SitePlan

end Sitewright
