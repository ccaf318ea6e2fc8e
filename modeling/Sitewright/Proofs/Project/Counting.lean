import Sitewright.Proofs.Decimal.Successor
import Sitewright.Proofs.Project.Documents

/-!
# Versions that readers see

A reader takes the version from the document, or one if there is none, and reads more values as an
integer than those that are one. A save counts up what the document has. The two go together where
the document has a version: the reader then sees the next one after a save, up to the range in which
binary numbers tell all integers apart. A version that the reader supplies is not counted.
-/

namespace Sitewright

namespace Value

/-- The value as a binary number is one among the integers of 53 binary digits, if it is one. -/
def Countable (value : Value) (n : Int) : Prop :=
  ∀ x, value = .json (.float x) → -2 ^ 53 ≤ n ∧ n < 2 ^ 53

variable {value next : Value} {n m : Int}

/-- What is read after a value has been counted up. -/
theorem integer_incremented (hn : value.integer = .ok n)
    (hnext : Document.incremented (some value) = .ok next) (hm : next.integer = .ok m) :
    m = n + 1 ↔ value.Countable n := by
  match value with
  | .json (.int k) =>
      cases hnext
      cases hn
      cases hm
      exact iff_of_true rfl nofun
  | .json (.bool b) =>
      cases hnext
      cases hn
      cases hm
      exact iff_of_true (by cases b <;> rfl) nofun
  | .json (.float x) =>
      cases hnext
      have hx := (Checked.integer_float_eq_ok_iff.mp hn).1
      have hsucc := (Checked.integer_float_eq_ok_iff.mp hm).1
      have hcount := Decimal.toInt?_succ_iff hx
      rw [hsucc, Option.some.injEq] at hcount
      rw [hcount]
      constructor
      · rintro h _ ⟨⟩
        exact h
      · intro h
        exact h x rfl

end Value

namespace Document

variable {document : Document} {entries : Dict Value} {version : Value} {n : Int}
  {found : Option SchemaRecord} {earlier : Timestamp}

/-- The version that is read from a document against the one that a save counts in it. -/
theorem version_counted (hfound : SchemaRecord.ofDocument? earlier document = .ok found)
    (he : document.schemaEntries? = some entries)
    (hv : incremented (Dict.get? entries "version") = .ok version)
    (hn : version.integer = .ok n) :
    (found = none → n = 1) ∧
      ∀ before, found = some before →
        (n = before.version + 1 ↔
          ∃ value, valueAt ["site_schema", "version"] document = .ok (some value) ∧
            value.Countable before.version) ∧
        (valueAt ["site_schema", "version"] document = .ok none → before.version = 1 ∧ n = 1) := by
  rcases SchemaRecord.ofDocument?_eq_ok hfound he with
    ⟨rfl, rfl⟩ | ⟨hmap, before, rfl, hread⟩
  · -- Where no schema has been found there are no entries, and so no version to count.
    cases hv
    cases hn
    refine ⟨fun _ => rfl, ?_⟩
    rintro _ ⟨⟩
  · refine ⟨fun hnone => absurd hnone (Option.some_ne_none _), ?_⟩
    rintro _ ⟨⟩
    rw [valueAt_in hmap]
    obtain ⟨-, hold, -⟩ := SchemaRecord.ofEntries_eq_ok_iff.mp hread
    rcases Checked.optional_eq_ok_iff.mp hold with ⟨value, hvalue, hold⟩ | ⟨hmissing, hold⟩
    · rw [hvalue] at hv ⊢
      rw [Value.integer_incremented hold hv hn]
      refine ⟨⟨fun h => ⟨value, rfl, h⟩, ?_⟩, ?_⟩
      · rintro ⟨_, ⟨⟩, h⟩
        exact h
      · rintro ⟨⟩
    · rw [hmissing] at hv ⊢
      cases hv
      cases hn
      have hne : ¬ (1 : Int) = 1 + 1 := by decide
      rw [hold]
      refine ⟨iff_of_false hne ?_, fun _ => ⟨rfl, rfl⟩⟩
      rintro ⟨_, ⟨⟩, -⟩

end Document

namespace DocumentStore

variable {store : DocumentStore} {id : String} {content : Option Fields} {earlier now : Timestamp}
  {project saved : Project}

theorem ofDocument_of_get (h : store.get id earlier = .ok (some project)) :
    ∃ document, store.document? id = some document ∧
      Project.ofDocument id earlier document = .ok project := by
  rw [get] at h
  cases hd : store.document? id with
  | none =>
      rw [hd] at h
      cases h
  | some document =>
      rw [hd] at h
      obtain ⟨_, hread, ⟨⟩⟩ := Outcome.map_eq_ok_iff.mp h
      exact ⟨document, rfl, hread⟩

/-- What a save returns is read from then on. A first save makes version one. A later one makes the
version that follows the one read before if and only if that one is in the document, and is not
beyond what a binary number counts. If the document has none, one is read before and after. -/
theorem version_of_save (hread : store.get id earlier = .ok (some project))
    (hsave : (store.save id content now).2 = .ok saved) :
    ∃ document record, store.document? id = some document ∧ saved.schema = some record ∧
      (∀ later, (store.save id content now).1.get id later = .ok (some saved)) ∧
      (project.schema = none → record.version = 1) ∧
      ∀ before, project.schema = some before →
        (record.version = before.version + 1 ↔
          ∃ value, Document.valueAt ["site_schema", "version"] document = .ok (some value) ∧
            value.Countable before.version) ∧
        (Document.valueAt ["site_schema", "version"] document = .ok none →
          before.version = 1 ∧ record.version = 1) := by
  obtain ⟨document, entries, version, hd, hentries, hversion, hback⟩ := of_save_eq_ok hsave
  obtain ⟨n, hn, hschema⟩ := SchemaRecord.ofDocument?_withSchema_eq_ok_iff.mp
    (Project.ofDocument?_of_ofDocument hback)
  have hfound : SchemaRecord.ofDocument? earlier document = .ok project.schema := by
    obtain ⟨same, hsame, hproject⟩ := ofDocument_of_get hread
    cases hd.symm.trans hsame
    exact Project.ofDocument?_of_ofDocument hproject
  refine ⟨document, _, hd, hschema, fun later => ?_,
    Document.version_counted hfound hentries hversion hn⟩
  rw [save_of_schemaEntries hd hentries hversion, get, document?_put]
  exact congrArg (Except.map some) (Project.ofDocument_withSchema hback later)

def writtenDocument (entries : Dict Value) : Document :=
  [("name", .json (.string "A")),
   ("site_schema", .map (("content", .json .null) :: entries)),
   ("created_at", .stamp { micros := 0 }),
   ("updated_at", .stamp { micros := 0 })]

def writtenStore (entries : Dict Value) : DocumentStore where
  documents := [("p", writtenDocument entries)]

def writtenProject (version : Int) (now updatedAt : Timestamp) : Project where
  id := "p"
  name := "A"
  slug := ""
  schema := some { version, updatedAt := now }
  createdAt := { micros := 0 }
  updatedAt

theorem version_of_save_written :
    let store := writtenStore [("version", .json (.int 2))]
    let saved := writtenProject 3 { micros := 5 } { micros := 5 }
    store.get "p" { micros := 4 } =
        .ok (some (writtenProject 2 { micros := 4 } { micros := 0 })) ∧
      (store.save "p" none { micros := 5 }).2 = .ok saved ∧
      ∃ record, saved.schema = some record ∧ record.version = 3 ∧
        ∀ later, (store.save "p" none { micros := 5 }).1.get "p" later = .ok (some saved) := by
  intro store saved
  have hread : store.get "p" { micros := 4 } =
      .ok (some (writtenProject 2 { micros := 4 } { micros := 0 })) := rfl
  have hsave : (store.save "p" none { micros := 5 }).2 = .ok saved := rfl
  obtain ⟨_, record, ⟨⟩, hrecord, hlater, -, hcount⟩ := version_of_save hread hsave
  have hversion := (hcount _ rfl).1.mpr ⟨.json (.int 2), rfl, nofun⟩
  exact ⟨hread, hsave, record, hrecord, hversion, hlater⟩

/-- A version that is not in the document is read as one before a save and after it. -/
theorem version_not_counted_unwritten :
    ¬ ∀ (store : DocumentStore) (id : String) (content : Option Fields) (earlier now : Timestamp)
        (project saved : Project),
      store.get id earlier = .ok (some project) → (store.save id content now).2 = .ok saved →
      ∃ record, saved.schema = some record ∧
        record.version = match project.schema with
          | none => 1
          | some before => before.version + 1 := by
  intro hall
  obtain ⟨record, hrecord, hversion⟩ := hall (writtenStore []) "p" none { micros := 4 }
    { micros := 5 } (writtenProject 1 { micros := 4 } { micros := 0 })
    (writtenProject 1 { micros := 5 } { micros := 5 }) rfl rfl
  cases hrecord
  exact absurd hversion (by decide)

end DocumentStore

end Sitewright
