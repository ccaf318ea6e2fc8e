import Sitewright.Proofs.Checked
import Sitewright.Proofs.Dictionary
import Sitewright.Proofs.Text.Replace
import Sitewright.Props.Kinds
import Sitewright.Synthesis

/-!
# Values of a shape

A shape admits the values that its check accepts. A record admits an object if each of its known
entries is missing, null or admitted by the shape of the entry, so entries can be set or overlaid
one by one. Filling in the name of the project changes texts alone, and none that stands for a truth
value, so that a value keeps its shape.
-/

namespace Sitewright

def Json.isNull : Json → Bool
  | .null => true
  | _ => false

namespace Shape

variable {item shape : Shape} {name key : String} {known rest : List (String × Shape)}
  {value later : Json} {entries : Fields}

/-! ## What a check gives -/

def present? (entries : Fields) (key : String) : Option Json :=
  (Dict.get? entries key).filter fun value => !value.isNull

theorem present?_of_get? (h : Dict.get? entries key = some value) (hv : value.isNull = false) :
    present? entries key = some value := by
  simp [present?, h, hv]

theorem check_sequence_eq_ok_iff : (Shape.sequence item).check value = .ok later ↔
    ∃ values items, value = .array values ∧ later = .array items ∧
      List.Forall₂ (fun value later => item.check value = .ok later) values items := by
  simp only [check, Checked.map_eq_ok_iff, Checked.sequence_eq_ok_iff]
  constructor
  · rintro ⟨items, ⟨values, rfl, hf⟩, rfl⟩
    exact ⟨values, items, rfl, rfl, hf⟩
  · rintro ⟨values, items, rfl, rfl, hf⟩
    exact ⟨items, ⟨values, rfl, hf⟩, rfl⟩

theorem check_record_eq_ok_iff : (Shape.record name known).check value = .ok later ↔
    ∃ entries front, value = .object entries ∧ checkFields known entries = .ok front ∧
      later = .object (front ++ dropNulls (Dict.without (Dict.keys known) entries)) := by
  simp only [check, Checked.record_eq_ok_iff, Checked.map_eq_ok_iff]
  constructor
  · rintro ⟨entries, rfl, front, hf, rfl⟩
    exact ⟨entries, front, rfl, hf, rfl⟩
  · rintro ⟨entries, front, rfl, hf, rfl⟩
    exact ⟨entries, rfl, front, hf, rfl⟩

theorem checkFields_of_absent (h : present? entries key = none) :
    checkFields ((key, shape) :: rest) entries = checkFields rest entries := by
  rw [checkFields]
  cases hg : Dict.get? entries key with
  | none => rfl
  | some value =>
      cases value with
      | null => rfl
      | bool | int | float | string | array | object =>
          rw [present?_of_get? hg rfl] at h
          cases h

theorem checkFields_of_present (h : present? entries key = some value) :
    checkFields ((key, shape) :: rest) entries =
      ((fun checked entries => (key, checked) :: entries)
        <$> Checked.within (.key key) (check shape value) <*> checkFields rest entries) := by
  obtain ⟨hg, hv⟩ := Option.filter_eq_some_iff.mp h
  rw [checkFields, hg]
  cases value with
  | null => cases hv
  | bool | int | float | string | array | object => rfl

/-! ## What a shape admits -/

def Admits (shape : Shape) (value : Json) : Prop :=
  ∃ checked, shape.check value = .ok checked

def fields : Shape → List (String × Shape)
  | .record _ known => known
  | _ => []

theorem admits_text_iff : Shape.text.Admits value ↔ ∃ text, value = .string text := by
  simp only [Admits, check, Checked.map_eq_ok_iff, Checked.text_eq_ok_iff]
  constructor
  · rintro ⟨_, text, ht, -⟩
    exact ⟨text, ht⟩
  · rintro ⟨text, ht⟩
    exact ⟨_, text, ht, rfl⟩

@[simp] theorem admits_string (text : String) : Shape.text.Admits (.string text) :=
  admits_text_iff.mpr ⟨text, rfl⟩

theorem admits_flag_iff : Shape.flag.Admits value ↔ ∃ b, Checked.flag value = .ok b := by
  simp only [Admits, check, Checked.map_eq_ok_iff]
  constructor
  · rintro ⟨_, b, hb, -⟩
    exact ⟨b, hb⟩
  · rintro ⟨b, hb⟩
    exact ⟨_, b, hb, rfl⟩

theorem admits_sequence_iff : (Shape.sequence item).Admits value ↔
    ∃ values, value = .array values ∧ ∀ found ∈ values, item.Admits found := by
  simp only [Admits, check_sequence_eq_ok_iff]
  constructor
  · rintro ⟨_, values, items, rfl, rfl, hf⟩
    refine ⟨values, rfl, fun found hm => ?_⟩
    obtain ⟨checked, -, hc⟩ := Outcome.exists_of_mem_right hf.flip hm
    exact ⟨checked, hc⟩
  · rintro ⟨values, rfl, h⟩
    obtain ⟨items, hi⟩ := Outcome.exists_mapM_eq_ok h
    exact ⟨_, values, items, rfl, rfl, Outcome.mapM_eq_ok_iff.mp hi⟩

def AdmitsField (field : String × Shape) (entries : Fields) : Prop :=
  ∀ value, Dict.get? entries field.1 = some value → value = .null ∨ field.2.Admits value

theorem admitsField_iff {field : String × Shape} : AdmitsField field entries ↔
    ∀ value, present? entries field.1 = some value → field.2.Admits value := by
  constructor
  · intro h value hp
    obtain ⟨hg, hv⟩ := Option.filter_eq_some_iff.mp hp
    rcases h value hg with rfl | ha
    · cases hv
    · exact ha
  · intro h value hg
    cases value with
    | null => exact Or.inl rfl
    | bool | int | float | string | array | object => exact Or.inr (h _ (present?_of_get? hg rfl))

theorem exists_checkFields_iff : (∃ checked, checkFields known entries = .ok checked) ↔
    ∀ field ∈ known, AdmitsField field entries := by
  induction known with
  | nil => simp [checkFields, Checked.valid]
  | cons field known ih =>
      obtain ⟨key, shape⟩ := field
      rw [List.forall_mem_cons, ← ih, admitsField_iff]
      cases hp : present? entries key with
      | none => simp [checkFields_of_absent hp]
      | some value =>
          simp only [checkFields_of_present hp, Checked.record₂_eq_ok_iff,
            Checked.within_eq_ok_iff, Admits, Option.some.injEq, forall_eq']
          constructor
          · rintro ⟨_, checked, rest, hc, hr, -⟩
            exact ⟨⟨checked, hc⟩, rest, hr⟩
          · rintro ⟨⟨checked, hc⟩, rest, hr⟩
            exact ⟨_, checked, rest, hc, hr, rfl⟩

theorem admits_record_iff : (Shape.record name known).Admits value ↔
    ∃ entries, value = .object entries ∧ ∀ field ∈ known, AdmitsField field entries := by
  simp only [Admits, check_record_eq_ok_iff, ← exists_checkFields_iff]
  constructor
  · rintro ⟨_, entries, front, rfl, hf, -⟩
    exact ⟨entries, rfl, front, hf⟩
  · rintro ⟨entries, rfl, front, hf⟩
    exact ⟨_, entries, front, rfl, hf, rfl⟩

/-! ## Changing entries -/

section Entries

variable {field : String × Shape} {top : Fields}

theorem AdmitsField.set (h : AdmitsField field entries)
    (hv : field.1 = key → field.2.Admits value) :
    AdmitsField field (Dict.set key value entries) := by
  intro found hg
  by_cases hk : field.1 = key
  · rw [hk, Dict.get?_set_self] at hg
    cases hg
    exact Or.inr (hv hk)
  · rw [Dict.get?_set_of_ne hk] at hg
    exact h found hg

theorem AdmitsField.overlay (h : AdmitsField field entries) (hn : (Dict.keys top).Nodup)
    (ht : AdmitsField field top) : AdmitsField field (Dict.overlay entries top) := by
  intro found hg
  rw [Dict.get?_overlay hn, Option.or_eq_some_iff] at hg
  rcases hg with hg | ⟨-, hg⟩
  · exact ht found hg
  · exact h found hg

theorem Admits.entry (h : shape.Admits (.object entries)) (hf : field ∈ shape.fields) :
    AdmitsField field entries := by
  cases shape with
  | record name known =>
      obtain ⟨found, he, hk⟩ := admits_record_iff.mp h
      cases he
      exact hk field hf
  | text | flag | sequence => cases hf

/-- A shape that admits one object admits every other one with the same regard to its fields. -/
theorem Admits.of_fields (h : shape.Admits (.object entries)) {later : Fields}
    (hl : ∀ field ∈ shape.fields, AdmitsField field later) : shape.Admits (.object later) := by
  cases shape with
  | record name known => exact admits_record_iff.mpr ⟨later, rfl, hl⟩
  | text =>
      obtain ⟨text, ht⟩ := admits_text_iff.mp h
      cases ht
  | flag =>
      obtain ⟨b, hb⟩ := admits_flag_iff.mp h
      cases hb
  | sequence item =>
      obtain ⟨values, hv, -⟩ := admits_sequence_iff.mp h
      cases hv

theorem Admits.set (h : shape.Admits (.object entries))
    (hv : ∀ field ∈ shape.fields, field.1 = key → field.2.Admits value) :
    shape.Admits (.object (Dict.set key value entries)) :=
  h.of_fields fun field hf => (h.entry hf).set (hv field hf)

theorem Admits.overlay (h : shape.Admits (.object entries)) (hn : (Dict.keys top).Nodup)
    (ht : shape.Admits (.object top)) : shape.Admits (.object (Dict.overlay entries top)) :=
  h.of_fields fun _ hf => (h.entry hf).overlay hn (ht.entry hf)

end Entries

end Shape

/-! ## Filling in the name -/

/-- The words for truth values are shorter than the placeholder. -/
theorem Checked.length_of_flag {text : String} {b : Bool} (h : flag (.string text) = .ok b) :
    text.toList.length ≤ 5 := by
  have hwords : ∀ entry ∈ flagWords, entry.1.toList.length ≤ 5 := by decide
  unfold flag at h
  dsimp only at h
  cases hl : flagWords.lookup (text.map Char.toLower) with
  | none =>
      rw [hl] at h
      cases h
  | some found =>
      have hm := hwords _ (Dict.mem_of_get? hl)
      simpa using hm

theorem Json.fillName_of_flag (name : String) {value : Json} {b : Bool}
    (h : Checked.flag value = .ok b) : value.fillName name = value := by
  cases value with
  | string text =>
      have hlt : text.toList.length < namePlaceholder.toList.length :=
        Nat.lt_of_le_of_lt (Checked.length_of_flag h) (by decide)
      have habsent : ¬ namePlaceholder.toList <:+: text.toList := fun hinfix =>
        absurd hinfix.length_le (Nat.not_le.mpr hlt)
      rw [fillName, Text.replaceAll_of_absent habsent, String.ofList_toList]
  | array | object => cases h
  | null | bool | int | float => rfl

theorem mem_fillNameItems {name : String} {items : List Json} {filled : Json}
    (h : filled ∈ fillNameItems name items) : ∃ item ∈ items, filled = item.fillName name := by
  induction items with
  | nil => cases h
  | cons item items ih =>
      rcases List.mem_cons.mp h with rfl | h
      · exact ⟨item, List.mem_cons_self, rfl⟩
      · obtain ⟨other, ho, he⟩ := ih h
        exact ⟨other, List.mem_cons_of_mem _ ho, he⟩

theorem get?_fillNameFields (name : String) (fields : Fields) (key : String) :
    Dict.get? (fillNameFields name fields) key = (Dict.get? fields key).map (·.fillName name) := by
  induction fields with
  | nil => rfl
  | cons entry fields ih =>
      obtain ⟨k, v⟩ := entry
      rw [fillNameFields, Dict.get?_cons, Dict.get?_cons, ih]
      by_cases hk : key = k
      · rw [if_pos hk, if_pos hk, Option.map_some]
      · rw [if_neg hk, if_neg hk]

namespace Shape

mutual

theorem admits_fillName (name : String) : (shape : Shape) → ∀ {value : Json},
    shape.Admits value → shape.Admits (value.fillName name)
  | .text, _, h => by
      obtain ⟨text, rfl⟩ := admits_text_iff.mp h
      exact admits_string _
  | .flag, _, h => by
      obtain ⟨b, hb⟩ := admits_flag_iff.mp h
      rwa [Json.fillName_of_flag name hb]
  | .sequence item, _, h => by
      obtain ⟨values, rfl, hv⟩ := admits_sequence_iff.mp h
      refine admits_sequence_iff.mpr ⟨_, rfl, ?_⟩
      intro filled hm
      obtain ⟨found, hf, rfl⟩ := mem_fillNameItems hm
      exact admits_fillName name item (hv found hf)
  | .record _ known, _, h => by
      obtain ⟨entries, rfl, hk⟩ := admits_record_iff.mp h
      exact admits_record_iff.mpr ⟨_, rfl, admitsFields_fillName name known hk⟩

theorem admitsFields_fillName (name : String) : (known : List (String × Shape)) →
    ∀ {entries : Fields}, (∀ field ∈ known, AdmitsField field entries) →
      ∀ field ∈ known, AdmitsField field (fillNameFields name entries)
  | [], _, _ => by simp
  | (key, shape) :: known, entries, h => by
      rw [List.forall_mem_cons] at h ⊢
      refine ⟨?_, admitsFields_fillName name known h.2⟩
      intro filled hg
      rw [get?_fillNameFields] at hg
      obtain ⟨found, hf, rfl⟩ := Option.map_eq_some_iff.mp hg
      rcases h.1 found hf with rfl | ha
      · exact Or.inl rfl
      · exact Or.inr (admits_fillName name shape ha)

end

end Shape

end Sitewright
