import Sitewright.Proofs.Props.Shape

/-!
# Checking props is a normalisation

The check of a shape gives a value that it gives back unchanged. A record keeps its entries but
those that are null: the known ones move to the front and are normal themselves, the others follow
in their order as they are, whatever stands inside them. Texts stay, and lists keep the order of
their items. The one value that changes is a flag, which becomes the truth value that it denotes.
-/

namespace Sitewright

/-! ## Flags -/

/-- The truth values, the numbers 0 and 1 and the words for them, in any letter case. -/
inductive Json.Denotes : Json → Bool → Prop
  | bool (b : Bool) : Denotes (.bool b) b
  | zero : Denotes (.int 0) false
  | one : Denotes (.int 1) true
  | float {x : Decimal} {n : Int} {b : Bool} : x.toInt? = some n → Denotes (.int n) b →
      Denotes (.float x) b
  | word {text : String} {b : Bool} : (text.map Char.toLower, b) ∈ Checked.flagWords →
      Denotes (.string text) b

theorem Checked.flagOfInt_eq_ok_iff {n : Int} {b : Bool} :
    flagOfInt n = .ok b ↔ (n = 0 ∧ b = false) ∨ (n = 1 ∧ b = true) := by
  unfold flagOfInt
  split_ifs with hzero hone
  · subst hzero
    simp [valid, eq_comm]
  · subst hone
    simp [valid, eq_comm]
  · simp [fail, invalid, hzero, hone]

theorem Json.denotes_int_iff {n : Int} {b : Bool} :
    Denotes (.int n) b ↔ (n = 0 ∧ b = false) ∨ (n = 1 ∧ b = true) := by
  constructor
  · intro h
    cases h with
    | zero => exact Or.inl ⟨rfl, rfl⟩
    | one => exact Or.inr ⟨rfl, rfl⟩
  · rintro (⟨rfl, rfl⟩ | ⟨rfl, rfl⟩)
    · exact .zero
    · exact .one

/-- The bounds on numbers do not matter, since 0 and 1 are within them. -/
theorem Checked.flag_int_eq_ok_iff {n : Int} {b : Bool} {bound : Int → Bool}
    (hb : bound 0 = true ∧ bound 1 = true) :
    (if bound n = true then flagOfInt n else fail .notFlag) = .ok b ↔ Json.Denotes (.int n) b := by
  rw [Json.denotes_int_iff]
  split_ifs with hn
  · exact flagOfInt_eq_ok_iff
  · constructor
    · intro h
      cases h
    · rintro (⟨rfl, -⟩ | ⟨rfl, -⟩)
      · exact absurd hb.1 hn
      · exact absurd hb.2 hn

theorem Checked.flag_eq_ok_iff {value : Json} {b : Bool} :
    flag value = .ok b ↔ value.Denotes b := by
  cases value with
  | bool c =>
      constructor
      · intro h
        cases h
        exact .bool b
      · rintro ⟨⟩
        rfl
  | int n => exact flag_int_eq_ok_iff (by decide)
  | float x =>
      have hx : Json.Denotes (.float x) b ↔ ∃ n, x.toInt? = some n ∧ Json.Denotes (.int n) b := by
        constructor
        · rintro ⟨⟩
          exact ⟨_, ‹_›, ‹_›⟩
        · rintro ⟨n, hn, hd⟩
          exact .float hn hd
      rw [hx]
      unfold flag
      dsimp only
      cases x.toInt? with
      | none => simp [fail, invalid]
      | some n =>
          simp only [Option.some.injEq, exists_eq_left']
          exact flag_int_eq_ok_iff (by decide)
  | string text =>
      have hwords : (Dict.keys flagWords).Nodup := by decide
      have hx : Json.Denotes (.string text) b ↔ (text.map Char.toLower, b) ∈ flagWords := by
        constructor
        · rintro ⟨⟩
          assumption
        · exact .word
      rw [hx]
      unfold flag
      dsimp only
      cases hw : flagWords.lookup (text.map Char.toLower) with
      | none =>
          have hnone := Dict.get?_eq_none_iff.mp hw
          constructor
          · intro h
            cases h
          · exact fun hm => absurd (List.mem_map.mpr ⟨_, hm, rfl⟩) hnone
      | some found =>
          simp only [valid, ok_eq_ok_iff]
          constructor
          · rintro rfl
            exact Dict.mem_of_get? hw
          · intro hm
            exact Option.some.inj (hw.symm.trans (Dict.get?_of_mem hwords hm))
  | null | array | object =>
      constructor
      · intro h
        cases h
      · rintro ⟨⟩

namespace Shape

variable {item : Shape} {name key : String} {known : List (String × Shape)} {value later : Json}
  {fields front entries : Fields}

/-! ## Null entries -/

theorem dropNulls_eq_filter (fields : Fields) :
    dropNulls fields = fields.filter fun entry => !entry.2.isNull := by
  refine List.filter_congr fun entry _ => ?_
  obtain ⟨key, value⟩ := entry
  cases value <;> rfl

theorem dropNulls_dropNulls (fields : Fields) :
    dropNulls (dropNulls fields) = dropNulls fields := by
  rw [dropNulls_eq_filter (dropNulls fields), dropNulls_eq_filter fields, List.filter_filter]
  simp only [Bool.and_self]

theorem avoids_dropNulls_without (keys : List String) (fields : Fields) :
    Dict.Avoids keys (dropNulls (Dict.without keys fields)) := by
  intro entry he
  rw [dropNulls_eq_filter] at he
  exact Dict.avoids_without keys fields entry (List.mem_filter.mp he).1

theorem rel_iff {α β : Type} {R : α → β → Prop} {before : Option α} {after : Option β} :
    Option.Rel R before after ↔ (before = none ∧ after = none) ∨
      ∃ a b, before = some a ∧ after = some b ∧ R a b := by
  constructor
  · rintro (hr | -)
    · exact Or.inr ⟨_, _, rfl, rfl, hr⟩
    · exact Or.inl ⟨rfl, rfl⟩
  · rintro (⟨rfl, rfl⟩ | ⟨a, b, rfl, rfl, hr⟩)
    · exact .none
    · exact .some hr

/-! ## Checked entries -/

theorem isNull_of_check {shape : Shape} (h : shape.check value = .ok later) :
    later.isNull = false := by
  cases shape with
  | text =>
      obtain ⟨text, -, rfl⟩ := Checked.map_eq_ok_iff.mp h
      rfl
  | flag =>
      obtain ⟨b, -, rfl⟩ := Checked.map_eq_ok_iff.mp h
      rfl
  | sequence item =>
      obtain ⟨-, items, -, rfl, -⟩ := check_sequence_eq_ok_iff.mp h
      rfl
  | record name known =>
      obtain ⟨-, front, -, -, rfl⟩ := check_record_eq_ok_iff.mp h
      rfl

/-- The known entries are those that are present, in the order of the shape, each one checked. -/
theorem checkFields_eq_ok_iff (hn : (Dict.keys known).Nodup) :
    checkFields known fields = .ok front ↔
      Dict.keys front = (Dict.keys known).filter (fun key => (present? fields key).isSome) ∧
      ∀ field ∈ known, Option.Rel (fun value later => field.2.check value = .ok later)
        (present? fields field.1) (Dict.get? front field.1) := by
  induction known generalizing front with
  | nil => simp [checkFields, Checked.valid, Dict.keys]
  | cons field rest ih =>
      obtain ⟨key, shape⟩ := field
      obtain ⟨hk, hrest⟩ := List.nodup_cons.mp hn
      have hkeys : Dict.keys ((key, shape) :: rest) = key :: Dict.keys rest := rfl
      rw [List.forall_mem_cons, hkeys]
      cases hp : present? fields key with
      | none =>
          rw [checkFields_of_absent hp, ih hrest, List.filter_cons_of_neg (by simp [hp])]
          refine and_congr_right fun hf => ?_
          have hfresh : Dict.get? front key = none := by
            rw [Dict.get?_eq_none_iff, hf]
            exact fun hm => hk (List.mem_filter.mp hm).1
          rw [hfresh]
          exact ⟨fun h => ⟨.none, h⟩, fun h => h.2⟩
      | some value =>
          rw [checkFields_of_present hp, Checked.record₂_eq_ok_iff,
            List.filter_cons_of_pos (by simp [hp])]
          have hother (checked : Json) (tail : Fields) : ∀ field ∈ rest,
              Dict.get? ((key, checked) :: tail) field.1 = Dict.get? tail field.1 := by
            intro field hm
            have hne : field.1 ≠ key := fun he => hk (he ▸ List.mem_map.mpr ⟨field, hm, rfl⟩)
            rw [Dict.get?_cons, if_neg hne]
          constructor
          · rintro ⟨checked, tail, hc, ht, rfl⟩
            obtain ⟨hf, hr⟩ := (ih hrest).mp ht
            refine ⟨congrArg (key :: ·) hf, ?_, fun field hm => ?_⟩
            · rw [Dict.get?_cons, if_pos rfl]
              exact .some (Checked.within_eq_ok_iff.mp hc)
            · rw [hother checked tail field hm]
              exact hr field hm
          · rintro ⟨hf, hr, hrs⟩
            cases front with
            | nil => cases hf
            | cons entry tail =>
                obtain ⟨k, checked⟩ := entry
                obtain ⟨rfl, ht⟩ := List.cons_eq_cons.mp hf
                rw [Dict.get?_cons, if_pos rfl] at hr
                cases hr with
                | some hc =>
                    refine ⟨checked, tail, Checked.within_eq_ok_iff.mpr hc,
                      (ih hrest).mpr ⟨ht, fun field hm => ?_⟩, rfl⟩
                    rw [← hother checked tail field hm]
                    exact hrs field hm

theorem forall_mem_checkFields (hn : (Dict.keys known).Nodup)
    (h : checkFields known fields = .ok front) : ∀ entry ∈ front, entry.1 ∈ Dict.keys known := by
  intro entry he
  have hm : entry.1 ∈ Dict.keys front := List.mem_map.mpr ⟨entry, he, rfl⟩
  rw [((checkFields_eq_ok_iff hn).mp h).1] at hm
  exact (List.mem_filter.mp hm).1

/-! ## Shapes with distinct keys -/

mutual

def Proper : Shape → Prop
  | .text => True
  | .flag => True
  | .sequence item => item.Proper
  | .record _ known => (Dict.keys known).Nodup ∧ ProperFields known

def ProperFields : List (String × Shape) → Prop
  | [] => True
  | (_, shape) :: rest => shape.Proper ∧ ProperFields rest

end

section Induction

variable {P : Shape → Prop}

mutual

theorem Proper.induction (text : P .text) (flag : P .flag)
    (sequence : ∀ item, P item → P (.sequence item))
    (record : ∀ name known, (Dict.keys known).Nodup → (∀ field ∈ known, P field.2) →
      P (.record name known)) : (shape : Shape) → shape.Proper → P shape
  | .text, _ => text
  | .flag, _ => flag
  | .sequence item, h => sequence item (Proper.induction text flag sequence record item h)
  | .record name known, h =>
      record name known h.1 (Proper.inductionFields text flag sequence record known h.2)

theorem Proper.inductionFields (text : P .text) (flag : P .flag)
    (sequence : ∀ item, P item → P (.sequence item))
    (record : ∀ name known, (Dict.keys known).Nodup → (∀ field ∈ known, P field.2) →
      P (.record name known)) :
    (known : List (String × Shape)) → ProperFields known → ∀ field ∈ known, P field.2
  | [], _ => by simp
  | (_, shape) :: rest, h => List.forall_mem_cons.mpr
      ⟨Proper.induction text flag sequence record shape h.1,
        Proper.inductionFields text flag sequence record rest h.2⟩

end

end Induction

theorem proper_propsShape (kind : SectionKind) : kind.propsShape.Proper := by
  cases kind <;>
    simp only [SectionKind.propsShape, Proper, ProperFields, featureItem, serviceItem,
      testimonialItem, pricingPlan, texts, faqItem, galleryImage] <;>
    decide

/-! ## Normal values -/

/-- The entries of a record that has been checked are checked again: the known ones in front stay if
their checks give them back. -/
theorem checkFields_again (hn : (Dict.keys known).Nodup)
    (hc : ∀ field ∈ known, ∀ value later, field.2.check value = .ok later →
      field.2.check later = .ok later)
    (h : checkFields known fields = .ok front) {others : Fields}
    (ho : Dict.Avoids (Dict.keys known) others) :
    checkFields known (front ++ others) = .ok front := by
  obtain ⟨hkeys, hfront⟩ := (checkFields_eq_ok_iff hn).mp h
  have hpresent : ∀ field ∈ known,
      present? (front ++ others) field.1 = Dict.get? front field.1 := by
    intro field hm
    rw [present?, Dict.get?_append_of_avoids ho (List.mem_map.mpr ⟨field, hm, rfl⟩)]
    rcases rel_iff.mp (hfront field hm) with ⟨-, hl⟩ | ⟨value, later, -, hl, hv⟩
    · rw [hl, Option.filter_none]
    · simp [hl, isNull_of_check hv]
  refine (checkFields_eq_ok_iff hn).mpr ⟨?_, fun field hm => ?_⟩
  · rw [hkeys]
    refine List.filter_congr fun key hk => ?_
    obtain ⟨field, hm, rfl⟩ := List.mem_map.mp hk
    rw [hpresent field hm]
    rcases rel_iff.mp (hfront field hm) with ⟨hp, hl⟩ | ⟨value, later, hp, hl, -⟩
    · rw [hp, hl]
    · rw [hp, hl]
      rfl
  · rw [hpresent field hm]
    rcases rel_iff.mp (hfront field hm) with ⟨-, hl⟩ | ⟨value, later, -, hl, hv⟩
    · rw [hl]
      exact .none
    · rw [hl]
      exact .some (hc field hm value later hv)

/-- What a check gives is normal. -/
theorem check_again {shape : Shape} (hp : shape.Proper) :
    ∀ value later, shape.check value = .ok later → shape.check later = .ok later := by
  refine Proper.induction (P := fun shape => ∀ value later, shape.check value = .ok later →
    shape.check later = .ok later) ?text ?flag ?sequence ?record shape hp
  case text =>
    intro value later h
    obtain ⟨text, -, rfl⟩ := Checked.map_eq_ok_iff.mp h
    rfl
  case flag =>
    intro value later h
    obtain ⟨b, -, rfl⟩ := Checked.map_eq_ok_iff.mp h
    rfl
  case sequence =>
    intro item ih value later h
    obtain ⟨values, items, rfl, rfl, hf⟩ := check_sequence_eq_ok_iff.mp h
    have hitems : ∀ later ∈ items, item.check later = .ok later := by
      intro later hm
      obtain ⟨value, -, hc⟩ := Outcome.exists_of_mem_right hf hm
      exact ih value later hc
    exact check_sequence_eq_ok_iff.mpr ⟨items, items, rfl, rfl, List.forall₂_same.mpr hitems⟩
  case record =>
    intro name known hn ih value later h
    obtain ⟨fields, front, rfl, hf, rfl⟩ := check_record_eq_ok_iff.mp h
    have hothers := avoids_dropNulls_without (Dict.keys known) fields
    refine check_record_eq_ok_iff.mpr ⟨_, front, rfl, checkFields_again hn ih hf hothers, ?_⟩
    rw [Dict.without_append (forall_mem_checkFields hn hf) hothers, dropNulls_dropNulls]

/-! ## What is kept -/

mutual

/-- The later value holds what the value holds, except that flags have become truth values and null
entries of the records are gone. The known entries come first, in the order of the shape; the other
ones follow as they are. -/
def Keeps : Shape → Json → Json → Prop
  | .text, value, later => later = value
  | .flag, value, later => ∃ b, value.Denotes b ∧ later = .bool b
  | .sequence item, value, later => ∃ values items, value = .array values ∧ later = .array items ∧
      List.Forall₂ (Keeps item) values items
  | .record _ known, value, later => ∃ fields entries, value = .object fields ∧
      later = .object entries ∧
      Dict.keys entries = (Dict.keys known).filter (fun key => (present? fields key).isSome) ++
        Dict.keys (dropNulls (Dict.without (Dict.keys known) fields)) ∧
      KeepsKnown known fields entries ∧
      Dict.without (Dict.keys known) entries = dropNulls (Dict.without (Dict.keys known) fields)

/-- A known entry is there later if it is there now and not null, and then it is kept. -/
def KeepsKnown : List (String × Shape) → Fields → Fields → Prop
  | [], _, _ => True
  | (key, shape) :: rest, fields, entries =>
      Option.Rel (Keeps shape) (present? fields key) (Dict.get? entries key) ∧
        KeepsKnown rest fields entries

end

theorem keepsKnown_iff : KeepsKnown known fields entries ↔ ∀ field ∈ known,
    Option.Rel (Keeps field.2) (present? fields field.1) (Dict.get? entries field.1) := by
  induction known with
  | nil => simp [KeepsKnown]
  | cons field rest ih =>
      obtain ⟨key, shape⟩ := field
      simp [KeepsKnown, ih]

theorem keeps_of_check {shape : Shape} (hp : shape.Proper) :
    ∀ value later, shape.check value = .ok later → shape.Keeps value later := by
  refine Proper.induction (P := fun shape => ∀ value later, shape.check value = .ok later →
    shape.Keeps value later) ?text ?flag ?sequence ?record shape hp
  case text =>
    intro value later h
    obtain ⟨text, ht, rfl⟩ := Checked.map_eq_ok_iff.mp h
    exact (Checked.text_eq_ok_iff.mp ht).symm
  case flag =>
    intro value later h
    obtain ⟨b, hb, rfl⟩ := Checked.map_eq_ok_iff.mp h
    exact ⟨b, Checked.flag_eq_ok_iff.mp hb, rfl⟩
  case sequence =>
    intro item ih value later h
    obtain ⟨values, items, rfl, rfl, hf⟩ := check_sequence_eq_ok_iff.mp h
    exact ⟨values, items, rfl, rfl, hf.imp ih⟩
  case record =>
    intro name known hn ih value later h
    obtain ⟨fields, front, rfl, hf, rfl⟩ := check_record_eq_ok_iff.mp h
    obtain ⟨hkeys, hrel⟩ := (checkFields_eq_ok_iff hn).mp hf
    have hothers := avoids_dropNulls_without (Dict.keys known) fields
    refine ⟨fields, _, rfl, rfl, ?_, ?_, ?_⟩
    · rw [Dict.keys_append, hkeys]
    · refine keepsKnown_iff.mpr fun field hm => ?_
      rw [Dict.get?_append_of_avoids hothers (List.mem_map.mpr ⟨field, hm, rfl⟩)]
      rcases rel_iff.mp (hrel field hm) with ⟨hp, hl⟩ | ⟨value, later, hp, hl, hv⟩
      · rw [hp, hl]
        exact .none
      · rw [hp, hl]
        exact .some (ih field hm value later hv)
    · exact Dict.without_append (forall_mem_checkFields hn hf) hothers

end Shape

/-- Props that a kind accepts are brought into a form that the kind accepts unchanged. The form has
the entries of the props that are not null, at the level of the props and of the items in them; the
flag of a plan becomes the truth value that it denotes, and every other value is as it was. -/
theorem SectionKind.checkProps_normalizes (kind : SectionKind) {props normal : Json}
    (h : kind.checkProps props = .ok normal) :
    kind.checkProps normal = .ok normal ∧ kind.propsShape.Keeps props normal :=
  ⟨Shape.check_again (Shape.proper_propsShape kind) props normal h,
    Shape.keeps_of_check (Shape.proper_propsShape kind) props normal h⟩

/-- Props with null entries at three levels and a number for a flag. -/
def unsettledPricing : Json :=
  .object [("note", .object [("until", .null)]), ("badge", .null),
    ("plans", .array [.object [("order", .array [.null]), ("highlight", .int 1),
      ("price", .null), ("name", .string "Pro")]]),
    ("title", .null)]

def settledPricing : Json :=
  .object [("plans", .array [.object [("name", .string "Pro"), ("highlight", .bool true),
      ("order", .array [.null])]]),
    ("note", .object [("until", .null)])]

theorem SectionKind.checkProps_normalizes_pricing :
    SectionKind.pricing.checkProps unsettledPricing = .ok settledPricing ∧
    SectionKind.pricing.checkProps settledPricing = .ok settledPricing ∧
    SectionKind.pricing.propsShape.Keeps unsettledPricing settledPricing := by
  have h : SectionKind.pricing.checkProps unsettledPricing = .ok settledPricing := rfl
  exact ⟨h, SectionKind.checkProps_normalizes .pricing h⟩

end Sitewright
