import Sitewright.Check.Checked
import Sitewright.Proofs.Dictionary
import Sitewright.Proofs.Outcome

/-!
# When checks succeed

One statement for each way to build a check: it gives a value exactly if its parts do. A list is
checked item by item, so its items and the values stand in relation one by one.
-/

namespace Sitewright

/-- Entries that an open record may keep beside those declared. -/
structure Fields.Extra (declared : List String) (extra : Fields) : Prop where
  avoids : Dict.Avoids declared extra
  whole : ∀ key ∈ Dict.keys extra, Text.hasHalf key.toList = false

theorem Fields.extra_nil (declared : List String) : Fields.Extra declared [] :=
  ⟨Dict.avoids_nil declared, by simp [Dict.keys]⟩

theorem Fields.Extra.without_append {declared : List String} {front extra : Fields}
    (h : Fields.Extra declared extra) (hf : ∀ entry ∈ front, entry.1 ∈ declared) :
    Dict.without declared (front ++ extra) = extra :=
  Dict.without_append hf h.avoids

namespace Checked

variable {α β ν : Type}

@[simp] theorem ok_eq_ok_iff {a b : α} : @Eq (Checked α) (.ok a) (.ok b) ↔ a = b :=
  ⟨Except.ok.inj, congrArg Except.ok⟩

@[simp] theorem error_ne_ok {issues : List Issue} {a : α} :
    @Eq (Checked α) (.error issues) (.ok a) ↔ False :=
  ⟨nofun, False.elim⟩

theorem pure_eq_ok_iff {a b : α} : (pure a : Checked α) = .ok b ↔ a = b :=
  ok_eq_ok_iff

theorem map_eq_ok_iff {f : α → β} {x : Checked α} {b : β} :
    f <$> x = .ok b ↔ ∃ a, x = .ok a ∧ f a = b := by
  change map f x = .ok b ↔ _
  cases x with
  | ok a => simp [map]
  | error issues => simp [map]

theorem seq_eq_ok_iff {f : Checked (α → β)} {x : Checked α} {b : β} :
    f <*> x = .ok b ↔ ∃ g a, f = .ok g ∧ x = .ok a ∧ g a = b := by
  change ap f x = .ok b ↔ _
  cases f with
  | ok g => cases x <;> simp [ap]
  | error issues => cases x <;> simp [ap]

section Records

variable {γ δ ε : Type} {a : Checked α} {b : Checked β} {c : Checked γ} {d : Checked δ}

theorem record₂_eq_ok_iff {f : α → β → ε} {r : ε} :
    f <$> a <*> b = .ok r ↔ ∃ x y, a = .ok x ∧ b = .ok y ∧ f x y = r := by
  simp only [seq_eq_ok_iff, map_eq_ok_iff]
  constructor
  · rintro ⟨_, y, ⟨x, hx, rfl⟩, hy, hr⟩
    exact ⟨x, y, hx, hy, hr⟩
  · rintro ⟨x, y, hx, hy, hr⟩
    exact ⟨f x, y, ⟨x, hx, rfl⟩, hy, hr⟩

theorem record₃_eq_ok_iff {f : α → β → γ → ε} {r : ε} :
    f <$> a <*> b <*> c = .ok r ↔
      ∃ x y z, a = .ok x ∧ b = .ok y ∧ c = .ok z ∧ f x y z = r := by
  rw [seq_eq_ok_iff]
  simp only [record₂_eq_ok_iff]
  constructor
  · rintro ⟨_, z, ⟨x, y, hx, hy, rfl⟩, hz, hr⟩
    exact ⟨x, y, z, hx, hy, hz, hr⟩
  · rintro ⟨x, y, z, hx, hy, hz, hr⟩
    exact ⟨f x y, z, ⟨x, y, hx, hy, rfl⟩, hz, hr⟩

theorem record₄_eq_ok_iff {f : α → β → γ → δ → ε} {r : ε} :
    f <$> a <*> b <*> c <*> d = .ok r ↔
      ∃ x y z w, a = .ok x ∧ b = .ok y ∧ c = .ok z ∧ d = .ok w ∧ f x y z w = r := by
  rw [seq_eq_ok_iff]
  simp only [record₃_eq_ok_iff]
  constructor
  · rintro ⟨_, w, ⟨x, y, z, hx, hy, hz, rfl⟩, hw, hr⟩
    exact ⟨x, y, z, w, hx, hy, hz, hw, hr⟩
  · rintro ⟨x, y, z, w, hx, hy, hz, hw, hr⟩
    exact ⟨f x y z, w, ⟨x, y, z, hx, hy, hz, rfl⟩, hw, hr⟩

end Records

theorem within_eq_ok_iff {step : Step} {x : Checked α} {a : α} :
    within step x = .ok a ↔ x = .ok a := by
  cases x <;> simp [within]

theorem required_eq_ok_iff {key : String} {check : ν → Checked α} {fields : Dict ν} {a : α} :
    required key check fields = .ok a ↔
      ∃ value, Dict.get? fields key = some value ∧ check value = .ok a := by
  rw [required, within_eq_ok_iff]
  cases Dict.get? fields key with
  | none => simp [fail, invalid]
  | some value => simp

theorem optional_eq_ok_iff {key : String} {default : α} {check : ν → Checked α}
    {fields : Dict ν} {a : α} :
    optional key default check fields = .ok a ↔
      (∃ value, Dict.get? fields key = some value ∧ check value = .ok a) ∨
        Dict.get? fields key = none ∧ a = default := by
  unfold optional
  cases Dict.get? fields key with
  | none => simp [valid, eq_comm]
  | some value => simp [within_eq_ok_iff]

theorem optional_eq_ok_iff_of_get? {key : String} {default : α} {check : ν → Checked α}
    {fields : Dict ν} {value : ν} {a : α} (h : Dict.get? fields key = some value) :
    optional key default check fields = .ok a ↔ check value = .ok a := by
  rw [optional, h]
  exact within_eq_ok_iff

/-! Whether there is a value at all. -/

theorem exists_map_iff {f : α → β} {x : Checked α} :
    (∃ b, f <$> x = .ok b) ↔ ∃ a, x = .ok a := by
  simp only [map_eq_ok_iff]
  exact ⟨fun ⟨_, a, hx, _⟩ => ⟨a, hx⟩, fun ⟨a, hx⟩ => ⟨f a, a, hx, rfl⟩⟩

theorem exists_seq_iff {f : Checked (α → β)} {x : Checked α} :
    (∃ b, f <*> x = .ok b) ↔ (∃ g, f = .ok g) ∧ ∃ a, x = .ok a := by
  simp only [seq_eq_ok_iff]
  exact ⟨fun ⟨_, g, a, hf, hx, _⟩ => ⟨⟨g, hf⟩, a, hx⟩,
    fun ⟨⟨g, hf⟩, a, hx⟩ => ⟨g a, g, a, hf, hx, rfl⟩⟩

theorem exists_optional_iff {key : String} {default : α} {check : ν → Checked α}
    {fields : Dict ν} :
    (∃ a, optional key default check fields = .ok a) ↔
      ∀ value, Dict.get? fields key = some value → ∃ a, check value = .ok a := by
  unfold optional
  cases Dict.get? fields key with
  | none => simp [valid]
  | some value => simp [within_eq_ok_iff]

theorem text_eq_ok_iff {value : Json} {a : String} : text value = .ok a ↔ value = .string a := by
  cases value <;> simp [text, valid, fail, invalid]

theorem dictionary_eq_ok_iff {value : Json} {a : Fields} :
    dictionary value = .ok a ↔ value = .object a := by
  cases value <;> simp [dictionary, valid, fail, invalid]

theorem record_eq_ok_iff {name : String} {check : Fields → Checked α} {value : Json} {a : α} :
    record name check value = .ok a ↔ ∃ fields, value = .object fields ∧ check fields = .ok a := by
  cases value <;> simp [record, fail, invalid]

theorem openRecord_eq_ok_iff {name : String} {declared : List String} {check : Fields → Checked α}
    {value : Json} {a : α} :
    openRecord name declared check value = .ok a ↔ ∃ fields, value = .object fields ∧
      Fields.Extra declared (Dict.without declared fields) ∧ check fields = .ok a := by
  cases value with
  | object fields =>
      let kept := Dict.without declared fields
      have hextra : Fields.Extra declared kept ↔
          (Dict.keys kept).any (fun key => Text.hasHalf key.toList) = false := by
        rw [List.any_eq_false]
        simp only [Bool.not_eq_true]
        exact ⟨fun h => h.whole, fun h => ⟨Dict.avoids_without declared fields, h⟩⟩
      cases hhalf : (Dict.keys kept).any fun key => Text.hasHalf key.toList with
      | true => simp [openRecord, fail, invalid, kept, hextra, hhalf]
      | false => simp [openRecord, kept, hextra, hhalf]
  | _ => simp [openRecord, fail, invalid]

/-- A record of declared entries in front and others behind that it may keep. -/
theorem openRecord_append {name : String} {declared : List String} {check : Fields → Checked α}
    {front extra : Fields} (hx : Fields.Extra declared extra)
    (hf : ∀ entry ∈ front, entry.1 ∈ declared) :
    openRecord name declared check (.object (front ++ extra)) = check (front ++ extra) := by
  have hwhole : (Dict.keys extra).any (fun key => Text.hasHalf key.toList) = false :=
    List.any_eq_false.mpr fun key hk => Bool.eq_false_iff.mp (hx.whole key hk)
  rw [openRecord, hx.without_append hf, hwhole]
  rfl

theorem items_eq_ok_iff {check : Json → Checked α} {start : Nat} {values : List Json}
    {items : List α} :
    Checked.items check start values = .ok items ↔
      List.Forall₂ (fun value item => check value = .ok item) values items := by
  induction values generalizing start items with
  | nil =>
      cases items with
      | nil => simp [Checked.items, valid]
      | cons item items => simp [Checked.items, valid]
  | cons value values ih =>
      simp only [Checked.items, seq_eq_ok_iff, map_eq_ok_iff, within_eq_ok_iff, ih]
      constructor
      · rintro ⟨g, rest, ⟨item, hi, rfl⟩, hr, rfl⟩
        exact List.Forall₂.cons hi hr
      · intro h
        cases h with
        | cons hi hr => exact ⟨_, _, ⟨_, hi, rfl⟩, hr, rfl⟩

theorem list_eq_ok_iff {check : Json → Checked α} {value : Json} {items : List α} :
    list check value = .ok items ↔
      ∃ values, value = .array values ∧
        List.Forall₂ (fun value item => check value = .ok item) values items := by
  cases value <;> simp [list, fail, invalid, items_eq_ok_iff]

theorem sequence_eq_ok_iff {check : Json → Checked α} {value : Json} {items : List α} :
    sequence check value = .ok items ↔
      ∃ values, value = .array values ∧
        List.Forall₂ (fun value item => check value = .ok item) values items := by
  cases value <;> simp [sequence, fail, invalid, items_eq_ok_iff]

end Checked

end Sitewright
