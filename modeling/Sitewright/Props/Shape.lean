import Sitewright.Check.Scalar

/-!
# Shapes of props

A shape says what the known entries of a record hold. Every known entry may be missing or null, and
other entries are free. `Shape.check` gives the normal form of a value of that shape: the known
entries first, the others after them in their order, and no entry that is null.
-/

namespace Sitewright

inductive Shape where
  | text
  | flag
  | sequence (item : Shape)
  | record (name : String) (fields : List (String × Shape))
  deriving Repr

namespace Shape

/-- The entries whose value is not null. -/
def dropNulls (fields : Fields) : Fields :=
  fields.filter fun
    | (_, .null) => false
    | _ => true

mutual

def check : Shape → Json → Checked Json
  | .text, value => .string <$> Checked.text value
  | .flag, value => .bool <$> Checked.flag value
  | .sequence item, value => .array <$> Checked.sequence (check item) value
  | .record name known, value =>
      Checked.record name (fun fields =>
        (fun entries => .object (entries ++ dropNulls (Dict.without (known.map (·.1)) fields)))
          <$> checkFields known fields) value

/-- Checks the known entries that are neither missing nor null. -/
def checkFields : List (String × Shape) → Fields → Checked Fields
  | [], _ => .valid []
  | (key, shape) :: rest, fields =>
      match Dict.get? fields key with
      | none => checkFields rest fields
      | some .null => checkFields rest fields
      | some value =>
          (fun checked entries => (key, checked) :: entries)
            <$> Checked.within (.key key) (check shape value)
            <*> checkFields rest fields

end

end Shape

end Sitewright
