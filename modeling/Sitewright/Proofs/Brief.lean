import Mathlib.Data.List.Find
import Sitewright.Prompt
import Sitewright.Proofs.Checked
import Sitewright.Proofs.Dictionary
import Sitewright.Synthesis

/-!
# The two spellings of a brief

What is read as a brief depends on the values given for its entries alone, under either name, and a
brief that is written under either name reads as itself. An entry that is given under one name only
may be given under the other one instead, so a customer who renames any keys of a brief is
understood all the same.
-/

namespace Sitewright.Brief

open Dict

variable {fields : Fields} {brief : Brief} {spelling : Spelling} {key : String}

/-! ## What is given for an entry -/

namespace Spelling

/-- The value given for an entry, the one under the alias first. -/
def given (spelling : Spelling) (fields : Fields) : Option Json :=
  (get? fields spelling.aliased).or (get? fields spelling.plain)

theorem get?_keyIn (spelling : Spelling) (fields : Fields) :
    get? fields (spelling.keyIn fields) = spelling.given fields := by
  unfold keyIn given
  cases ha : get? fields spelling.aliased with
  | none =>
      cases hp : get? fields spelling.plain with
      | none => exact ha
      | some value => exact hp
  | some value => exact ha

def IsText (spelling : Spelling) (fields : Fields) (text : String) : Prop :=
  spelling.given fields = some (.string text)

def IsText? (spelling : Spelling) (fields : Fields) (text : Option String) : Prop :=
  spelling.given fields = some (.ofOption text) ∨ text = none ∧ spelling.given fields = none

def IsTexts (spelling : Spelling) (fields : Fields) (texts : List String) : Prop :=
  spelling.given fields = some (.ofStrings texts) ∨ texts = [] ∧ spelling.given fields = none

end Spelling

theorem textOf_eq_ok_iff {text : String} :
    textOf spelling fields = .ok text ↔ spelling.IsText fields text := by
  rw [textOf, Checked.required_eq_ok_iff, spelling.get?_keyIn, Spelling.IsText]
  simp only [Checked.text_eq_ok_iff]
  constructor
  · rintro ⟨_, hv, rfl⟩
    exact hv
  · intro hv
    exact ⟨_, hv, rfl⟩

theorem nullable_text_eq_ok_iff {value : Json} {text : Option String} :
    Checked.nullable Checked.text value = .ok text ↔ value = .ofOption text := by
  cases value with
  | null => cases text <;> simp [Checked.nullable, Checked.valid, Json.ofOption]
  | string found =>
      simp only [Checked.nullable, Checked.map_eq_ok_iff, Checked.text_eq_ok_iff]
      cases text <;> simp [Json.ofOption]
  | bool | int | float | array | object =>
      simp only [Checked.nullable, Checked.map_eq_ok_iff, Checked.text_eq_ok_iff]
      cases text <;> simp [Json.ofOption]

theorem sequence_text_eq_ok_iff {value : Json} {texts : List String} :
    Checked.sequence Checked.text value = .ok texts ↔ value = .ofStrings texts := by
  simp only [Checked.sequence_eq_ok_iff, Checked.text_eq_ok_iff, Json.ofStrings]
  have hmap (values : List Json) :
      List.Forall₂ (fun value text => value = Json.string text) values texts ↔
        values = texts.map .string := by
    rw [← List.forall₂_map_right_iff (R := Eq), List.forall₂_eq_eq_eq]
  simp only [hmap]
  constructor
  · rintro ⟨_, hv, rfl⟩
    exact hv
  · intro hv
    exact ⟨_, hv, rfl⟩

theorem textOf?_eq_ok_iff {text : Option String} :
    textOf? spelling fields = .ok text ↔ spelling.IsText? fields text := by
  rw [textOf?, Checked.optional_eq_ok_iff, spelling.get?_keyIn]
  simp [nullable_text_eq_ok_iff, Spelling.IsText?, and_comm]

theorem textsOf_eq_ok_iff {texts : List String} :
    textsOf spelling fields = .ok texts ↔ spelling.IsTexts fields texts := by
  rw [textsOf, Checked.optional_eq_ok_iff, spelling.get?_keyIn]
  simp [sequence_text_eq_ok_iff, Spelling.IsTexts, and_comm]

/-- What is given for each entry is what the brief says. -/
structure Says (brief : Brief) (fields : Fields) : Prop where
  projectName : Spelling.projectName.IsText fields brief.projectName
  businessType : Spelling.businessType.IsText? fields brief.businessType
  targetAudience : Spelling.targetAudience.IsText? fields brief.targetAudience
  mainGoal : Spelling.mainGoal.IsText? fields brief.mainGoal
  tone : Spelling.tone.IsText? fields brief.tone
  styleKeywords : Spelling.styleKeywords.IsTexts fields brief.styleKeywords
  pagesWanted : Spelling.pagesWanted.IsTexts fields brief.pagesWanted
  primaryColor : Spelling.primaryColor.IsText? fields brief.primaryColor
  secondaryColor : Spelling.secondaryColor.IsText? fields brief.secondaryColor

theorem ofFields_eq_ok_iff : ofFields fields = .ok brief ↔ brief.Says fields := by
  simp only [ofFields, Checked.seq_eq_ok_iff, Checked.map_eq_ok_iff, textOf_eq_ok_iff,
    textOf?_eq_ok_iff, textsOf_eq_ok_iff]
  constructor
  · rintro ⟨_, _, ⟨_, _, ⟨_, _, ⟨_, _, ⟨_, _, ⟨_, _, ⟨_, _, ⟨_, _, ⟨_, h1, rfl⟩, h2, rfl⟩, h3, rfl⟩,
      h4, rfl⟩, h5, rfl⟩, h6, rfl⟩, h7, rfl⟩, h8, rfl⟩, h9, rfl⟩
    exact ⟨h1, h2, h3, h4, h5, h6, h7, h8, h9⟩
  · rintro ⟨h1, h2, h3, h4, h5, h6, h7, h8, h9⟩
    exact ⟨_, _, ⟨_, _, ⟨_, _, ⟨_, _, ⟨_, _, ⟨_, _, ⟨_, _, ⟨_, _, ⟨_, h1, rfl⟩, h2, rfl⟩, h3, rfl⟩,
      h4, rfl⟩, h5, rfl⟩, h6, rfl⟩, h7, rfl⟩, h8, rfl⟩, h9, rfl⟩

theorem ofJson_object_eq_ok_iff :
    ofJson (.object fields) = .ok brief ↔ brief.Says fields :=
  ofFields_eq_ok_iff

/-- A brief that is written under one of the two names of each entry says what it said. -/
theorem says_toFields {spell : Spelling → String}
    (h : spell = Spelling.aliased ∨ spell = Spelling.plain) :
    brief.Says (brief.toFields spell) := by
  rcases h with rfl | rfl
  · exact ⟨rfl, .inl rfl, .inl rfl, .inl rfl, .inl rfl, .inl rfl, .inl rfl, .inl rfl, .inl rfl⟩
  · exact ⟨rfl, .inl rfl, .inl rfl, .inl rfl, .inl rfl, .inl rfl, .inl rfl, .inl rfl, .inl rfl⟩

/-! ## Other spellings -/

namespace Spelling

def all : List Spelling :=
  [projectName, businessType, targetAudience, mainGoal, tone, styleKeywords, pagesWanted,
   primaryColor, secondaryColor]

def names (spelling : Spelling) (key : String) : Bool :=
  key = spelling.aliased || key = spelling.plain

def other (key : String) : String :=
  match all.find? fun spelling => spelling.names key with
  | some spelling => if key = spelling.aliased then spelling.plain else spelling.aliased
  | none => key

def GivenOnce (spelling : Spelling) (fields : Fields) : Prop :=
  spelling.aliased ∈ keys fields → spelling.plain ∈ keys fields → spelling.aliased = spelling.plain

theorem names_iff : spelling.names key = true ↔ key = spelling.aliased ∨ key = spelling.plain := by
  simp [names]

/-- Keys with another spelling belong to the same entry. -/
theorem names_other (hs : spelling ∈ all) (key : String) :
    spelling.names (other key) = spelling.names key := by
  have hsame : ∀ s ∈ all, ∀ t ∈ all, s.names t.plain = s.names t.aliased := by decide
  unfold other
  cases hf : all.find? fun spelling => spelling.names key with
  | none => rfl
  | some found =>
      have hfound := hsame spelling hs found (List.mem_of_find?_eq_some hf)
      dsimp only
      by_cases hk : key = found.aliased
      · rw [if_pos hk, hk, hfound]
      · have hnames : found.names key = true :=
          List.find?_some (p := fun spelling : Spelling => spelling.names key) hf
        have hkey := (names_iff.mp hnames).resolve_left hk
        rw [if_neg hk, hkey, hfound]

theorem other_of_unnamed (h : ∀ spelling ∈ all, spelling.names key = false) : other key = key := by
  have hf : all.find? (fun spelling => spelling.names key) = none :=
    List.find?_eq_none.mpr fun spelling hs => by simp [h spelling hs]
  rw [other, hf]

/-- If an entry is given under one name only, it is the first one with one of its names. -/
theorem given_eq_find? (h : spelling.GivenOnce fields) :
    spelling.given fields = (fields.find? fun entry => spelling.names entry.1).map (·.2) := by
  have hmem {entry : String × Json} (he : entry ∈ fields) : entry.1 ∈ keys fields :=
    List.mem_map.mpr ⟨entry, he, rfl⟩
  unfold given
  by_cases ha : spelling.aliased ∈ keys fields
  · have hnames : ∀ entry ∈ fields,
        decide (entry.1 = spelling.aliased) = spelling.names entry.1 := by
      intro entry he
      rw [Bool.eq_iff_iff, names_iff, decide_eq_true_eq]
      refine ⟨Or.inl, fun hn => hn.elim id fun hp => ?_⟩
      rw [hp, h ha (hp ▸ hmem he)]
    have hfound : (get? fields spelling.aliased).isSome = true :=
      Option.isSome_iff_ne_none.mpr fun hnone => get?_eq_none_iff.mp hnone ha
    rw [Option.or_of_isSome hfound, get?_eq_find?, List.find?_congr hnames]
  · have hnames : ∀ entry ∈ fields,
        decide (entry.1 = spelling.plain) = spelling.names entry.1 := by
      intro entry he
      rw [Bool.eq_iff_iff, names_iff, decide_eq_true_eq]
      exact ⟨Or.inr, fun hn => hn.resolve_left fun hp => ha (hp ▸ hmem he)⟩
    rw [get?_eq_none_iff.mpr ha, Option.none_or, get?_eq_find?, List.find?_congr hnames]

end Spelling

def respelled (chosen : String → Bool) (key : String) : String :=
  if chosen key then Spelling.other key else key

/-- The object in which the chosen keys have been replaced by the other names of their entries. -/
def respell (chosen : String → Bool) (fields : Fields) : Fields :=
  fields.map fun entry => (respelled chosen entry.1, entry.2)

variable {chosen : String → Bool}

theorem keys_respell (chosen : String → Bool) (fields : Fields) :
    keys (respell chosen fields) = (keys fields).map (respelled chosen) := by
  rw [keys, keys, respell, List.map_map, List.map_map]
  rfl

theorem names_respelled (hs : spelling ∈ Spelling.all) (key : String) :
    spelling.names (respelled chosen key) = spelling.names key := by
  unfold respelled
  split
  · exact Spelling.names_other hs key
  · rfl

theorem respelled_of_unnamed (h : ∀ spelling ∈ Spelling.all, spelling.names key = false) :
    respelled chosen key = key := by
  unfold respelled
  split
  · exact Spelling.other_of_unnamed h
  · rfl

/-- An object in which an entry is given once has one key for it. -/
theorem eq_of_names (h : spelling.GivenOnce fields) {first second : String}
    (hf : first ∈ keys fields) (hg : second ∈ keys fields)
    (hn : spelling.names first = true) (hm : spelling.names second = true) : first = second := by
  rcases Spelling.names_iff.mp hn with rfl | rfl
  · rcases Spelling.names_iff.mp hm with rfl | rfl
    · rfl
    · exact h hf hg
  · rcases Spelling.names_iff.mp hm with rfl | rfl
    · exact (h hg hf).symm
    · rfl

theorem givenOnce_respell (hs : spelling ∈ Spelling.all) (h : spelling.GivenOnce fields) :
    spelling.GivenOnce (respell chosen fields) := by
  intro ha hp
  rw [keys_respell] at ha hp
  obtain ⟨first, hf, hfirst⟩ := List.mem_map.mp ha
  obtain ⟨second, hg, hsecond⟩ := List.mem_map.mp hp
  have hn : spelling.names first = true := by
    rw [← names_respelled hs, hfirst]
    exact Spelling.names_iff.mpr (Or.inl rfl)
  have hm : spelling.names second = true := by
    rw [← names_respelled hs, hsecond]
    exact Spelling.names_iff.mpr (Or.inr rfl)
  rw [← hfirst, ← hsecond, eq_of_names h hf hg hn hm]

theorem given_respell (hs : spelling ∈ Spelling.all) (h : spelling.GivenOnce fields) :
    spelling.given (respell chosen fields) = spelling.given fields := by
  rw [Spelling.given_eq_find? h, Spelling.given_eq_find? (givenOnce_respell hs h), respell,
    List.find?_map, Option.map_map]
  refine congrArg _ (List.find?_congr fun entry _ => ?_)
  exact names_respelled hs entry.1

/-- Keys that differ stay different. -/
theorem nodup_keys_respell (h : ∀ spelling ∈ Spelling.all, spelling.GivenOnce fields)
    (hn : (keys fields).Nodup) : (keys (respell chosen fields)).Nodup := by
  rw [keys_respell]
  refine List.Nodup.map_on (fun first hf second hg he => ?_) hn
  have hnames : ∀ spelling ∈ Spelling.all, spelling.names first = spelling.names second := by
    intro spelling hs
    rw [← names_respelled hs first, he, names_respelled hs second]
  by_cases hnamed : ∃ spelling ∈ Spelling.all, spelling.names first = true
  · obtain ⟨spelling, hs, hfirst⟩ := hnamed
    exact eq_of_names (h spelling hs) hf hg hfirst (hnames spelling hs ▸ hfirst)
  -- a key that belongs to no entry is not changed
  · have hfirst : ∀ spelling ∈ Spelling.all, spelling.names first = false := fun spelling hs =>
      Bool.eq_false_iff.mpr fun hn => hnamed ⟨spelling, hs, hn⟩
    have hsecond : ∀ spelling ∈ Spelling.all, spelling.names second = false := fun spelling hs =>
      (hnames spelling hs).symm.trans (hfirst spelling hs)
    rwa [respelled_of_unnamed hfirst, respelled_of_unnamed hsecond] at he

/-! ## The same brief -/

theorem Says.of_given {later : Fields} (h : brief.Says fields)
    (hg : ∀ spelling ∈ Spelling.all, spelling.given later = spelling.given fields) :
    brief.Says later := by
  have htext {spelling : Spelling} {text : String} (hs : spelling ∈ Spelling.all)
      (ht : spelling.IsText fields text) : spelling.IsText later text :=
    (hg spelling hs).trans ht
  have htext? {spelling : Spelling} {text : Option String} (hs : spelling ∈ Spelling.all)
      (ht : spelling.IsText? fields text) : spelling.IsText? later text := by
    rwa [Spelling.IsText?, hg spelling hs]
  have htexts {spelling : Spelling} {texts : List String} (hs : spelling ∈ Spelling.all)
      (ht : spelling.IsTexts fields texts) : spelling.IsTexts later texts := by
    rwa [Spelling.IsTexts, hg spelling hs]
  exact ⟨htext (by simp [Spelling.all]) h.projectName,
    htext? (by simp [Spelling.all]) h.businessType,
    htext? (by simp [Spelling.all]) h.targetAudience,
    htext? (by simp [Spelling.all]) h.mainGoal,
    htext? (by simp [Spelling.all]) h.tone,
    htexts (by simp [Spelling.all]) h.styleKeywords,
    htexts (by simp [Spelling.all]) h.pagesWanted,
    htext? (by simp [Spelling.all]) h.primaryColor,
    htext? (by simp [Spelling.all]) h.secondaryColor⟩

/-- A brief that has been read can be written under the names of either side and reads as itself.
Where no entry is given under both of its names, any keys may be replaced by the other names: the
object still has distinct keys and reads as the same brief, so that the same site and the same
prompt are made from it. -/
theorem ofJson_spellings (h : ofJson (.object fields) = .ok brief) :
    ofJson brief.toAliasedJson = .ok brief ∧ ofJson brief.toPlainJson = .ok brief ∧
    ((∀ spelling ∈ Spelling.all, spelling.GivenOnce fields) → ∀ chosen : String → Bool,
      ((keys fields).Nodup → (keys (respell chosen fields)).Nodup) ∧
      ofJson (.object (respell chosen fields)) = .ok brief ∧
      (∀ (plan : SitePlan) (ids : IdSource),
        (plan.synthesize · ids) <$> ofJson (.object (respell chosen fields)) =
          (plan.synthesize · ids) <$> ofJson (.object fields)) ∧
      schemaPrompt <$> ofJson (.object (respell chosen fields)) =
        schemaPrompt <$> ofJson (.object fields)) := by
  refine ⟨ofJson_object_eq_ok_iff.mpr (says_toFields (Or.inl rfl)),
    ofJson_object_eq_ok_iff.mpr (says_toFields (Or.inr rfl)), fun hg chosen => ?_⟩
  have hsays : brief.Says (respell chosen fields) :=
    (ofJson_object_eq_ok_iff.mp h).of_given fun spelling hs => given_respell hs (hg spelling hs)
  have hread : ofJson (.object (respell chosen fields)) = .ok brief :=
    ofJson_object_eq_ok_iff.mpr hsays
  refine ⟨nodup_keys_respell hg, hread, fun plan ids => ?_, ?_⟩
  · rw [hread, h]
  · rw [hread, h]

/-- A brief in mixed spellings, with an entry that is null and one that belongs to no brief. -/
def mixedFields : Fields :=
  [("projectName", .string "Acme"), ("business_type", .null), ("tone", .string "premium"),
   ("styleKeywords", .array [.string "sobre"]), ("primary_color", .string "#3b82f6"),
   ("budget", .int 1)]

def mixedBrief : Brief where
  projectName := "Acme"
  tone := some "premium"
  styleKeywords := ["sobre"]
  primaryColor := some "#3b82f6"

theorem ofJson_spellings_mixed :
    ofJson (.object mixedFields) = .ok mixedBrief ∧
    respell (fun key => key ≠ "styleKeywords") mixedFields =
      [("project_name", .string "Acme"), ("businessType", .null), ("tone", .string "premium"),
       ("styleKeywords", .array [.string "sobre"]), ("primaryColor", .string "#3b82f6"),
       ("budget", .int 1)] ∧
    ofJson (.object (respell (fun key => key ≠ "styleKeywords") mixedFields)) = .ok mixedBrief := by
  have h : ofJson (.object mixedFields) = .ok mixedBrief := rfl
  have hg : ∀ spelling ∈ Spelling.all, spelling.GivenOnce mixedFields := by
    unfold Spelling.GivenOnce
    decide
  exact ⟨h, rfl, ((ofJson_spellings h).2.2 hg _).2.1⟩

end Sitewright.Brief
