import Sitewright.Json.Reader
import Sitewright.Proofs.Decimal.Shortest
import Sitewright.Proofs.Dictionary

/-!
# Values that can be read back

A value is readable within a limit if its integers keep to the limit, its numerals are rounded and
its objects have no key twice. These are the values that a printed text can stand for: whatever is
read from a text is readable. Without a limit the integers may have any size.
-/

namespace Sitewright.Json

mutual

def ReadableWithin (limit : Option Nat) : Json → Prop
  | .int n => admits limit (Decimal.natDigits n.natAbs).length = true
  | .float x => x.rounded = x ∨ x = .nan
  | .array items => ReadableItems limit items
  | .object fields => (Dict.keys fields).Nodup ∧ ReadableFields limit fields
  | _ => True

def ReadableItems (limit : Option Nat) : List Json → Prop
  | [] => True
  | item :: items => ReadableWithin limit item ∧ ReadableItems limit items

def ReadableFields (limit : Option Nat) : List (String × Json) → Prop
  | [] => True
  | (_, value) :: fields => ReadableWithin limit value ∧ ReadableFields limit fields

end

def Readable (value : Json) : Prop :=
  value.ReadableWithin (some Decimal.maxDigits)

variable {limit : Option Nat}

theorem readableItems_iff {items : List Json} :
    ReadableItems limit items ↔ ∀ item ∈ items, item.ReadableWithin limit := by
  induction items with
  | nil => simp [ReadableItems]
  | cons item items ih => simp [ReadableItems, ih]

theorem readableFields_iff {fields : List (String × Json)} :
    ReadableFields limit fields ↔ ∀ entry ∈ fields, entry.2.ReadableWithin limit := by
  induction fields with
  | nil => simp [ReadableFields]
  | cons entry fields ih =>
      obtain ⟨key, value⟩ := entry
      simp [ReadableFields, ih]

@[simp] theorem readable_null : Json.null.Readable := trivial

@[simp] theorem readable_bool (b : Bool) : (Json.bool b).Readable := trivial

@[simp] theorem readable_string (text : String) : (Json.string text).Readable := trivial

@[simp] theorem readable_array {items : List Json} :
    (Json.array items).Readable ↔ ∀ item ∈ items, item.Readable :=
  readableItems_iff

@[simp] theorem readable_object {fields : List (String × Json)} :
    (Json.object fields).Readable ↔
      (Dict.keys fields).Nodup ∧ ∀ entry ∈ fields, entry.2.Readable :=
  and_congr_right fun _ => readableFields_iff

/-! ## Whatever is read is readable -/

def Reading.Gives {α : Type} (P : α → Prop) (reading : Reading α) : Prop :=
  ∀ value rest, reading = .done value rest → P value

section Gives

variable {α β : Type} {P : α → Prop} {Q : β → Prop}

theorem gives_done {value : α} {rest : List Char} (h : P value) :
    Reading.Gives P (.done value rest) := by
  intro other after he
  cases he
  exact h

theorem gives_fault (rest : List Char) : Reading.Gives P (.fault rest) := by
  intro value after he
  cases he

theorem gives_longInteger : Reading.Gives P .longInteger := by
  intro value after he
  cases he

theorem gives_andThen {reading : Reading α} {next : α → List Char → Reading β}
    (h : Reading.Gives P reading) (hn : ∀ value rest, P value → Reading.Gives Q (next value rest)) :
    Reading.Gives Q (reading.andThen next) := by
  cases reading with
  | ok result => exact hn result.1 result.2 (h result.1 result.2 rfl)
  | error stop =>
      intro value after he
      cases he

theorem gives_map {reading : Reading α} {f : α → β} (h : Reading.Gives P reading)
    (hf : ∀ value, P value → Q (f value)) : Reading.Gives Q (reading.map f) :=
  gives_andThen h fun value _ hv => gives_done (hf value hv)

theorem gives_true (reading : Reading α) : Reading.Gives (fun _ => True) reading :=
  fun _ _ _ => trivial

end Gives

theorem isDigit_of_mem_takeWhile {text : List Char} {c : Char}
    (h : c ∈ text.takeWhile Decimal.isDigit) : Decimal.isDigit c = true := by
  have := List.all_takeWhile (p := Decimal.isDigit) (l := text)
  exact List.all_eq_true.mp this c h

theorem isDigit_of_mem_splitWhole {text : List Char} {c : Char} (h : c ∈ (splitWhole text).1) :
    Decimal.isDigit c = true := by
  unfold splitWhole at h
  split at h
  · rw [List.mem_singleton.mp h]
    rfl
  · exact isDigit_of_mem_takeWhile h

theorem admits_of_le {few many : Nat} (h : few ≤ many) (hm : admits limit many = true) :
    admits limit few = true := by
  cases limit with
  | none => rfl
  | some most =>
      simp only [admits, Option.all_some, decide_eq_true_eq] at hm ⊢
      omega

theorem gives_readNumber (text : List Char) : Reading.Gives (ReadableWithin limit)
    (readNumber limit text) := by
  unfold readNumber
  simp only
  split
  · exact gives_fault _
  · rename_i hne
    split
    · split
      · rename_i hlen
        have hlt := Decimal.ofDigits_lt fun c (hc : c ∈ (splitWhole (splitMinus text).2).1) =>
          isDigit_of_mem_splitWhole hc
        have hpos : 0 < (splitWhole (splitMinus text).2).1.length := by
          rw [List.isEmpty_iff] at hne
          exact List.length_pos_iff.mpr hne
        have hdigits := Decimal.length_natDigits_le hpos hlt
        apply gives_done
        change admits limit (Decimal.natDigits (Int.natAbs _)).length = true
        have habs (negative : Bool) (n : Nat) :
            (if negative = true then -(n : Int) else n).natAbs = n := by
          cases negative <;> simp
        rw [habs]
        exact admits_of_le hdigits hlen
      · exact gives_longInteger
    · exact gives_done (Or.inl (Decimal.rounded_rounded _))

theorem gives_readScalar (text : List Char) : Reading.Gives (ReadableWithin limit)
    (readScalar limit text) := by
  unfold readScalar
  split
  · exact gives_done trivial
  · exact gives_done trivial
  · exact gives_done trivial
  · exact gives_done (Or.inr rfl)
  · exact gives_done (Or.inl (Decimal.rounded_infinite _))
  · exact gives_done (Or.inl (Decimal.rounded_infinite _))
  · exact gives_readNumber _

theorem readable_ofEntries {entries : List (String × Json)} (h : ReadableFields limit entries) :
    (Json.object (Dict.ofEntries entries)).ReadableWithin limit := by
  refine ⟨Dict.nodup_keys_ofEntries entries, readableFields_iff.mpr fun entry hm => ?_⟩
  exact readableFields_iff.mp h entry (Dict.mem_of_mem_ofEntries hm)

/-- The three readers call each other with less fuel. -/
theorem gives_read (limit : Option Nat) (fuel : Nat) :
    (∀ text, Reading.Gives (ReadableWithin limit) (readValue limit fuel text)) ∧
    (∀ text, Reading.Gives (ReadableItems limit) (readItems limit fuel text)) ∧
    ∀ text, Reading.Gives (ReadableFields limit) (readFields limit fuel text) := by
  induction fuel with
  | zero => exact ⟨fun _ => gives_fault _, fun _ => gives_fault _, fun _ => gives_fault _⟩
  | succ fuel ih =>
      obtain ⟨hvalue, hitems, hfields⟩ := ih
      refine ⟨?_, ?_, ?_⟩
      · intro text
        unfold readValue
        split
        · exact gives_fault _
        · exact gives_map (gives_true _) fun _ _ => trivial
        · rename_i hf
          cases hf
          split
          · exact gives_done trivial
          · exact gives_map (hitems _) fun _ h => h
        · rename_i hf
          cases hf
          split
          · exact gives_done ⟨List.nodup_nil, trivial⟩
          · exact gives_map (hfields _) fun entries h => readable_ofEntries h
        · exact gives_readScalar _
      · intro text
        rw [readItems]
        refine gives_andThen (hvalue text) fun item rest hi => ?_
        split
        · exact gives_done ⟨hi, trivial⟩
        · exact gives_map (hitems _) fun _ h => ⟨hi, h⟩
        · exact gives_fault _
      · intro text
        unfold readFields
        split
        · exact gives_fault _
        · rename_i hf
          cases hf
          refine gives_andThen (gives_true _) fun key rest _ => ?_
          split
          · refine gives_andThen (hvalue _) fun value rest hv => ?_
            split
            · exact gives_done ⟨hv, trivial⟩
            · exact gives_map (hfields _) fun _ h => ⟨hv, h⟩
            · exact gives_fault _
          · exact gives_fault _
        · exact gives_fault _

theorem readable_of_ofChars {text : List Char} {value : Json} (h : ofChars text = .ok value) :
    value.Readable := by
  unfold ofChars ofCharsWithin readAll at h
  have hg := (gives_read (some Decimal.maxDigits) (text.length + 1)).1 (skipSpace text)
  cases hr : readValue (some Decimal.maxDigits) (text.length + 1) (skipSpace text) with
  | error stop => simp [hr, Except.mapError] at h
  | ok result =>
      obtain ⟨found, rest⟩ := result
      have hf := hg found rest hr
      cases hs : skipSpace rest with
      | nil =>
          simp only [hr, hs, Except.mapError, Except.ok.injEq] at h
          exact h ▸ hf
      | cons c tail => simp [hr, hs, Except.mapError] at h

end Sitewright.Json
