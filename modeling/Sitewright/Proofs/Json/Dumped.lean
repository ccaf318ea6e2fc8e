import Sitewright.Proofs.Json.Readable

/-!
# Values without infinite numbers

`Json.dumped` puts null in the place of every number that is not finite and keeps all else. A value
is finite if it has no such number, which is the case if and only if dumping leaves it as it is.
-/

namespace Sitewright.Json

mutual

def IsFinite : Json → Prop
  | .float x => x.isInfinite = false
  | .array items => FiniteItems items
  | .object fields => FiniteFields fields
  | _ => True

def FiniteItems : List Json → Prop
  | [] => True
  | item :: items => item.IsFinite ∧ FiniteItems items

def FiniteFields : List (String × Json) → Prop
  | [] => True
  | (_, value) :: fields => value.IsFinite ∧ FiniteFields fields

end

theorem dumpedItems_eq_map (items : List Json) : dumpedItems items = items.map dumped := by
  induction items with
  | nil => rfl
  | cons item items ih => rw [dumpedItems, ih, List.map_cons]

theorem dumpedFields_eq_map (fields : Fields) :
    dumpedFields fields = fields.map fun (key, value) => (key, value.dumped) := by
  induction fields with
  | nil => rfl
  | cons entry fields ih => rw [dumpedFields, ih, List.map_cons]

@[simp] theorem dumpedFields_nil : dumpedFields [] = [] := rfl

@[simp] theorem keys_dumpedFields (fields : Fields) :
    Dict.keys (dumpedFields fields) = Dict.keys fields := by
  rw [dumpedFields_eq_map, Dict.keys, Dict.keys, List.map_map]
  rfl

theorem get?_dumpedFields (fields : Fields) (key : String) :
    Dict.get? (dumpedFields fields) key = (Dict.get? fields key).map dumped := by
  induction fields with
  | nil => rfl
  | cons entry fields ih =>
      obtain ⟨k, value⟩ := entry
      rw [dumpedFields, Dict.get?_cons, Dict.get?_cons, ih]
      split <;> rfl

theorem without_dumpedFields (declared : List String) (fields : Fields) :
    Dict.without declared (dumpedFields fields) = dumpedFields (Dict.without declared fields) := by
  rw [dumpedFields_eq_map, dumpedFields_eq_map, Dict.without, Dict.without, List.filter_map]
  rfl

/-! ## Dumping what is finite -/

mutual

theorem dumped_of_finite : (value : Json) → value.IsFinite → value.dumped = value
  | .null, _ | .bool _, _ | .int _, _ | .string _, _ => rfl
  | .float _, h => if_neg (Bool.eq_false_iff.mp h)
  | .array items, h => congrArg array (dumpedItems_of_finite items h)
  | .object fields, h => congrArg object (dumpedFields_of_finite fields h)

theorem dumpedItems_of_finite : (items : List Json) → FiniteItems items → dumpedItems items = items
  | [], _ => rfl
  | item :: items, h => by
      rw [dumpedItems, dumped_of_finite item h.1, dumpedItems_of_finite items h.2]

theorem dumpedFields_of_finite :
    (fields : List (String × Json)) → FiniteFields fields → dumpedFields fields = fields
  | [], _ => rfl
  | (key, value) :: fields, h => by
      rw [dumpedFields, dumped_of_finite value h.1, dumpedFields_of_finite fields h.2]

end

mutual

theorem finite_dumped : (value : Json) → value.dumped.IsFinite
  | .null | .bool _ | .int _ | .string _ => trivial
  | .float x => by
      rw [dumped]
      split
      · trivial
      · rename_i h
        exact Bool.eq_false_iff.mpr h
  | .array items => finiteItems_dumped items
  | .object fields => finiteFields_dumped fields

theorem finiteItems_dumped : (items : List Json) → FiniteItems (dumpedItems items)
  | [] => trivial
  | item :: items => ⟨finite_dumped item, finiteItems_dumped items⟩

theorem finiteFields_dumped : (fields : List (String × Json)) → FiniteFields (dumpedFields fields)
  | [] => trivial
  | (_, value) :: fields => ⟨finite_dumped value, finiteFields_dumped fields⟩

end

theorem dumped_eq_self_iff {value : Json} : value.dumped = value ↔ value.IsFinite :=
  ⟨fun h => h ▸ finite_dumped value, dumped_of_finite value⟩

theorem dumpedFields_eq_self_iff {fields : Fields} :
    dumpedFields fields = fields ↔ FiniteFields fields :=
  ⟨fun h => h ▸ finiteFields_dumped fields, dumpedFields_of_finite fields⟩

@[simp] theorem dumpedFields_dumpedFields (fields : Fields) :
    dumpedFields (dumpedFields fields) = dumpedFields fields :=
  dumpedFields_of_finite _ (finiteFields_dumped fields)

/-! ## Dumping what is readable -/

section Readable

variable {limit : Option Nat}

mutual

theorem readable_dumped :
    (value : Json) → value.ReadableWithin limit → value.dumped.ReadableWithin limit
  | .null, _ | .bool _, _ | .string _, _ => trivial
  | .int _, h => h
  | .float x, h => by
      rw [dumped]
      split
      · trivial
      · exact h
  | .array items, h => readableItems_dumped items h
  | .object fields, h => ⟨(keys_dumpedFields fields).symm ▸ h.1, readableFields_dumped fields h.2⟩

theorem readableItems_dumped :
    (items : List Json) → ReadableItems limit items → ReadableItems limit (dumpedItems items)
  | [], _ => trivial
  | item :: items, h => ⟨readable_dumped item h.1, readableItems_dumped items h.2⟩

theorem readableFields_dumped : (fields : List (String × Json)) →
    ReadableFields limit fields → ReadableFields limit (dumpedFields fields)
  | [], _ => trivial
  | (_, value) :: fields, h => ⟨readable_dumped value h.1, readableFields_dumped fields h.2⟩

end

end Readable

end Sitewright.Json
