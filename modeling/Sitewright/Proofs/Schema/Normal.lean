import Sitewright.Proofs.Schema.RoundTrip

/-!
# Reading a schema is a normalisation

Writing a schema that has been read gives the JSON that it was read from in a normal form, which
reads as the same schema. The form is told level by level, from the given JSON alone: an object
keeps all its entries, the declared ones first and the others in their order, and gains a default
for each declared one that is missing. Apart from that only null props change.
-/

namespace Sitewright

/-! ## One level -/

/-- The entries `later` are those of `given` with the declared keys in front and the other keys in
their order. A value that is given stays in the relation `kept` to the later one, and a declared key
without a value has the one of `defaults`. -/
structure Dict.Completes (declared : List String) (defaults : Fields)
    (kept : String → Json → Json → Prop) (given later : Fields) : Prop where
  order : keys later = declared ++ (keys given).filter fun key => key ∉ declared
  kept : ∀ key value, get? given key = some value → ∃ after, get? later key = some after ∧
    kept key value after
  added : ∀ key ∈ declared, get? given key = none → get? later key = get? defaults key

def Json.Completes (declared : List String) (defaults : Fields)
    (kept : String → Json → Json → Prop) (value later : Json) : Prop :=
  ∃ given after, value = .object given ∧ later = .object after ∧
    Dict.Completes declared defaults kept given after

namespace Dict

variable {declared : List String} {defaults front given : Fields}
  {kept : String → Json → Json → Prop}

/-- It is enough that each entry in front keeps a given value or shows a default. -/
theorem completes_of_front (hf : keys front = declared) (hn : declared.Nodup)
    (hs : ∀ entry ∈ front,
      (∃ value, get? given entry.1 = some value ∧ kept entry.1 value entry.2) ∨
        get? given entry.1 = none ∧ get? defaults entry.1 = some entry.2)
    (ho : ∀ key ∉ declared, ∀ value, kept key value value) :
    Completes declared defaults kept given (front ++ without declared given) := by
  have hentry : ∀ key ∈ declared, ∃ later, get? front key = some later ∧
      ((∃ value, get? given key = some value ∧ kept key value later) ∨
        get? given key = none ∧ get? defaults key = some later) := by
    intro key hm
    obtain ⟨entry, he, rfl⟩ := List.mem_map.mp (hf ▸ hm)
    exact ⟨entry.2, get?_of_mem (hf ▸ hn) he, hs entry he⟩
  have hfront : ∀ key later, get? front key = some later →
      get? (front ++ without declared given) key = some later := by
    intro key later hl
    rw [get?_append, hl, Option.some_or]
  -- a declared key is found in front, and any other one behind
  refine ⟨by rw [keys_append, hf, keys_without], ?_, ?_⟩
  · intro key value hg
    by_cases hm : key ∈ declared
    · obtain ⟨later, hl, ⟨found, hv, hk⟩ | ⟨hnone, -⟩⟩ := hentry key hm
      · cases hg.symm.trans hv
        exact ⟨later, hfront key later hl, hk⟩
      · cases hg.symm.trans hnone
    · have hnone : get? front key = none := get?_eq_none_iff.mpr (hf ▸ hm)
      rw [get?_append, hnone, Option.none_or, get?_without_of_not_mem hm]
      exact ⟨value, hg, ho key hm value⟩
  · intro key hm hnone
    obtain ⟨later, hl, ⟨found, hv, -⟩ | ⟨-, hdefault⟩⟩ := hentry key hm
    · cases hnone.symm.trans hv
    · rw [hfront key later hl, hdefault]

end Dict

/-! ## The five levels -/

def Section.Kept (key : String) (value later : Json) : Prop :=
  key = "props" ∧ value = .null ∧ later = .object [] ∨
    ¬ (key = "props" ∧ value = .null) ∧ later = value

def Section.Normal : Json → Json → Prop :=
  Json.Completes ["id", "type", "props"] [("props", .object [])] Section.Kept

def Json.ItemsRelated (related : Json → Json → Prop) (value later : Json) : Prop :=
  ∃ items after, value = .array items ∧ later = .array after ∧ List.Forall₂ related items after

def Page.Kept (key : String) (value later : Json) : Prop :=
  if key = "sections" then Json.ItemsRelated Section.Normal value later else later = value

def Page.Normal : Json → Json → Prop :=
  Json.Completes ["slug", "title", "sections"] [("sections", .array [])] Page.Kept

def Colors.Normal : Json → Json → Prop :=
  Json.Completes ["primary", "secondary"]
    [("primary", .string "#3b82f6"), ("secondary", .string "#0f172a")]
    fun _ value later => later = value

def Website.Kept (key : String) (value later : Json) : Prop :=
  if key = "colors" then Colors.Normal value later
  else if key = "pages" then Json.ItemsRelated Page.Normal value later
  else later = value

def Website.Normal : Json → Json → Prop :=
  Json.Completes ["name", "colors", "pages"]
    [("colors", .object [("primary", .string "#3b82f6"), ("secondary", .string "#0f172a")]),
      ("pages", .array [])]
    Website.Kept

def Schema.Kept (key : String) (value later : Json) : Prop :=
  if key = "website" then Website.Normal value later else later = value

def Schema.Normal : Json → Json → Prop :=
  Json.Completes ["website"] [] Schema.Kept

/-! ## What is read is completed

What is completed is the JSON without its infinite numbers. -/

theorem Json.itemsRelated_of_ofJson {α : Type} {ofJson : Json → Checked α} {toJson : α → Json}
    {related : Json → Json → Prop} {values : List Json} {items : List α}
    (hv : List.Forall₂ (fun value item => ofJson value = .ok item) values items)
    (h : ∀ value item, ofJson value = .ok item → related value.dumped (toJson item)) :
    ItemsRelated related (.array (dumpedItems values)) (.array (items.map toJson)) := by
  refine ⟨dumpedItems values, _, rfl, rfl, ?_⟩
  rw [dumpedItems_eq_map, List.forall₂_map_left_iff, List.forall₂_map_right_iff]
  exact hv.imp h

theorem Section.normal_of_ofJson {value : Json} {s : Section} (h : Section.ofJson value = .ok s) :
    Section.Normal value.dumped s.toJson := by
  obtain ⟨given, rfl, -, hf⟩ := Checked.openRecord_eq_ok_iff.mp h
  obtain ⟨hid, htype, hprops, he⟩ := Section.ofFields_eq_ok_iff.mp hf
  have hback : Json.dumpedFields s.extra = Dict.without keys (Json.dumpedFields given) := by
    rw [he, Json.without_dumpedFields]
  refine ⟨Json.dumpedFields given, _, rfl, rfl,
    hback ▸ Dict.completes_of_front rfl (by decide) ?_ ?_⟩
  · simp only [List.forall_mem_cons, Json.get?_dumpedFields, hid, htype]
    refine ⟨Or.inl ⟨_, rfl, by simp [Kept, Json.dumped]⟩,
      Or.inl ⟨_, rfl, by simp [Kept, Json.dumped]⟩, ?_, by simp⟩
    rcases hprops with ⟨found, hg, hr⟩ | ⟨hn, hempty⟩
    · refine Or.inl ⟨found.dumped, by rw [hg, Option.map_some], ?_⟩
      rcases Section.propsOfJson_eq_ok_iff.mp hr with ⟨rfl, hp⟩ | rfl
      · simp [Kept, Json.dumped, hp]
      · simp [Kept, Json.dumped]
    · exact Or.inr ⟨by rw [hn, Option.map_none], by simp [hempty, Dict.get?_cons]⟩
  · intro key hk found
    have hp : key ≠ "props" := fun hp => hk (by simp [hp])
    exact Or.inr ⟨fun hnull => hp hnull.1, rfl⟩

theorem Page.normal_of_ofJson {value : Json} {page : Page} (h : Page.ofJson value = .ok page) :
    Page.Normal value.dumped page.toJson := by
  obtain ⟨given, rfl, -, hf⟩ := Checked.openRecord_eq_ok_iff.mp h
  obtain ⟨hslug, htitle, hsections, he⟩ := Page.ofFields_eq_ok_iff.mp hf
  have hback : Json.dumpedFields page.extra = Dict.without keys (Json.dumpedFields given) := by
    rw [he, Json.without_dumpedFields]
  refine ⟨Json.dumpedFields given, _, rfl, rfl,
    hback ▸ Dict.completes_of_front rfl (by decide) ?_ ?_⟩
  · simp only [List.forall_mem_cons, Json.get?_dumpedFields, hslug, htitle]
    refine ⟨Or.inl ⟨_, rfl, by simp [Kept, Json.dumped]⟩,
      Or.inl ⟨_, rfl, by simp [Kept, Json.dumped]⟩, ?_, by simp⟩
    rcases hsections with ⟨values, hg, hr⟩ | ⟨hn, hempty⟩
    · exact Or.inl ⟨.array (Json.dumpedItems values), by rw [hg, Option.map_some, Json.dumped],
        Json.itemsRelated_of_ofJson hr fun _ _ => Section.normal_of_ofJson⟩
    · exact Or.inr ⟨by rw [hn, Option.map_none], by simp [hempty, Dict.get?_cons]⟩
  · intro key hk found
    have hs : key ≠ "sections" := fun hs => hk (by simp [hs])
    simp [Kept, hs]

theorem Colors.normal_of_ofJson {value : Json} {colors : Colors}
    (h : Colors.ofJson value = .ok colors) : Colors.Normal value.dumped colors.toJson := by
  obtain ⟨given, rfl, -, hf⟩ := Checked.openRecord_eq_ok_iff.mp h
  obtain ⟨hprimary, hsecondary, he⟩ := Colors.ofFields_eq_ok_iff.mp hf
  have hback : Json.dumpedFields colors.extra = Dict.without keys (Json.dumpedFields given) := by
    rw [he, Json.without_dumpedFields]
  refine ⟨Json.dumpedFields given, _, rfl, rfl,
    hback ▸ Dict.completes_of_front rfl (by decide) ?_ fun _ _ _ => rfl⟩
  simp only [List.forall_mem_cons, Json.get?_dumpedFields]
  refine ⟨?_, ?_, by simp⟩
  · rcases hprimary with hg | ⟨hn, hd⟩
    · exact Or.inl ⟨_, by rw [hg]; rfl, rfl⟩
    · exact Or.inr ⟨by rw [hn, Option.map_none], by rw [hd]; rfl⟩
  · rcases hsecondary with hg | ⟨hn, hd⟩
    · exact Or.inl ⟨_, by rw [hg]; rfl, rfl⟩
    · exact Or.inr ⟨by rw [hn, Option.map_none], by rw [hd]; rfl⟩

theorem Website.normal_of_ofJson {value : Json} {website : Website}
    (h : Website.ofJson value = .ok website) : Website.Normal value.dumped website.toJson := by
  obtain ⟨given, rfl, -, hf⟩ := Checked.openRecord_eq_ok_iff.mp h
  obtain ⟨hname, hcolors, hpages, he⟩ := Website.ofFields_eq_ok_iff.mp hf
  have hback : Json.dumpedFields website.extra = Dict.without keys (Json.dumpedFields given) := by
    rw [he, Json.without_dumpedFields]
  refine ⟨Json.dumpedFields given, _, rfl, rfl,
    hback ▸ Dict.completes_of_front rfl (by decide) ?_ ?_⟩
  · simp only [List.forall_mem_cons, Json.get?_dumpedFields, hname]
    refine ⟨Or.inl ⟨_, rfl, by simp [Kept, Json.dumped]⟩, ?_, ?_, by simp⟩
    · rcases hcolors with ⟨found, hg, hr⟩ | ⟨hn, hd⟩
      · exact Or.inl ⟨found.dumped, by rw [hg, Option.map_some], Colors.normal_of_ofJson hr⟩
      · exact Or.inr ⟨by rw [hn, Option.map_none], by rw [hd]; rfl⟩
    · rcases hpages with ⟨values, hg, hr⟩ | ⟨hn, hempty⟩
      · exact Or.inl ⟨.array (Json.dumpedItems values), by rw [hg, Option.map_some, Json.dumped],
          Json.itemsRelated_of_ofJson hr fun _ _ => Page.normal_of_ofJson⟩
      · exact Or.inr ⟨by rw [hn, Option.map_none], by simp [hempty, Dict.get?_cons]⟩
  · intro key hk found
    have hc : key ≠ "colors" := fun hc => hk (by simp [hc])
    have hp : key ≠ "pages" := fun hp => hk (by simp [hp])
    simp [Kept, hc, hp]

theorem Schema.normal_of_ofJson {value : Json} {schema : Schema}
    (h : Schema.ofJson value = .ok schema) : Schema.Normal value.dumped schema.toJson := by
  obtain ⟨given, rfl, -, hf⟩ := Checked.openRecord_eq_ok_iff.mp h
  obtain ⟨⟨found, hg, hw⟩, he⟩ := Schema.ofFields_eq_ok_iff.mp hf
  have hfields : schema.fields =
      [("website", schema.website.toJson)] ++ Dict.without keys (Json.dumpedFields given) := by
    rw [Schema.fields, he, Json.without_dumpedFields]
    rfl
  refine ⟨Json.dumpedFields given, _, rfl, rfl,
    hfields ▸ Dict.completes_of_front rfl (by decide) ?_ ?_⟩
  · simp only [List.forall_mem_cons, Json.get?_dumpedFields]
    exact ⟨Or.inl ⟨found.dumped, by rw [hg, Option.map_some], Website.normal_of_ofJson hw⟩, by simp⟩
  · intro key hk other
    have hk' : key ≠ "website" := fun he => hk (by simp [he])
    simp [Kept, hk']

/-- What is read from JSON, written as JSON again, is the JSON in its normal form but for the
infinite numbers, which become null. It reads as the schema without them, so as the schema itself
exactly if it has none, and is the form of itself. -/
theorem Schema.ofJson_normalizes {value : Json} {schema : Schema}
    (h : Schema.ofJson value = .ok schema) :
    Schema.ofJson schema.toJson = .ok schema.dumped ∧
    (Schema.ofJson schema.toJson = .ok schema ↔ schema.IsFinite) ∧
    (∀ again, Schema.ofJson schema.toJson = .ok again → again.toJson = schema.toJson) ∧
    Schema.Normal value.dumped schema.toJson ∧
    (value.IsFinite → schema.IsFinite ∧ Schema.Normal value schema.toJson) := by
  have hagain := Schema.ofJson_toJson (Schema.tidy_of_ofJson h)
  have hnormal := Schema.normal_of_ofJson h
  refine ⟨hagain, ?_, ?_, hnormal, ?_⟩
  · rw [hagain, Schema.IsFinite, Checked.ok_eq_ok_iff]
  · intro again ha
    rw [← Except.ok.inj (hagain.symm.trans ha), Schema.toJson_dumped]
  · intro hv
    rw [Json.dumped_of_finite value hv] at hnormal
    exact ⟨Schema.finite_of_ofJson hv h, hnormal⟩

/-- A page with an entry of its own between the declared ones, and on it a section whose props are
null. The colours are missing. -/
def Schema.loose : Json :=
  .object [("theme", .null), ("website", .object [("name", .string "A"), ("note", .int 1),
    ("pages", .array [.object [("hidden", .bool true), ("slug", .string "home"),
      ("sections", .array [.object [("props", .null), ("x", .null), ("type", .string "t"),
        ("id", .string "a")]]),
      ("title", .string "B")]])])]

theorem Schema.ofJson_normalizes_loose : ∃ schema, Schema.ofJson Schema.loose = .ok schema ∧
    Schema.ofJson schema.toJson = .ok schema ∧ Schema.Normal Schema.loose schema.toJson := by
  have h : Schema.ofJson Schema.loose = .ok ⟨⟨"A", Colors.default,
      [⟨"home", "B", [⟨"a", "t", [], [("x", .null)]⟩], [("hidden", .bool true)]⟩],
      [("note", .int 1)]⟩, [("theme", .null)]⟩ := by rfl
  have hv : Schema.loose.IsFinite := by simp [loose, Json.IsFinite, Json.FiniteItems,
    Json.FiniteFields]
  obtain ⟨-, hagain, -, -, hnormal⟩ := Schema.ofJson_normalizes h
  obtain ⟨hfinite, hform⟩ := hnormal hv
  exact ⟨_, h, hagain.mpr hfinite, hform⟩

/-- A note that a JSON reader takes for infinity, such as 1e999. -/
def Schema.overflowing : Json :=
  .object [("website", .object [("name", .string "N")]), ("note", .float (Decimal.infinite false))]

/-- The note is read, and written as null. -/
theorem Schema.ofJson_loses_infinite : ∃ schema, Schema.ofJson Schema.overflowing = .ok schema ∧
    Schema.ofJson schema.toJson ≠ .ok schema ∧
    ¬ Schema.Normal Schema.overflowing schema.toJson := by
  let read : Schema :=
    ⟨⟨"N", Colors.default, [], []⟩, [("note", .float (Decimal.infinite false))]⟩
  have h : Schema.ofJson Schema.overflowing = .ok read := by rfl
  have hnull : Json.dumpedFields read.extra = [("note", .null)] := by
    simp [read, Json.dumpedFields, Json.dumped, Decimal.isInfinite_infinite]
  refine ⟨read, h, ?_, ?_⟩
  · rw [Schema.ofJson_toJson (Schema.tidy_of_ofJson h)]
    intro he
    have hextra := congrArg Schema.extra (Except.ok.inj he)
    rw [Schema.dumped, hnull] at hextra
    cases hextra
  · rintro ⟨given, after, hg, ha, hc⟩
    cases hg
    rw [Schema.toJson, Schema.fields, hnull] at ha
    cases ha
    obtain ⟨later, hl, hk⟩ := hc.kept "note" _ rfl
    cases hk
    cases hl

end Sitewright
