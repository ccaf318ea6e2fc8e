import Sitewright.Proofs.Checked
import Sitewright.Proofs.Project.Agreement

/-!
# Saves in any document

A document may have been written by hand, so its entries may be missing or be of any kind. A save
writes the content, a version and the time into the entries of its schema, of which there are none
if the schema is missing or null, and its own time beside them. All other entries stay, so whether
the document can be read back depends on them as before, and on the version that has been counted.
-/

namespace Sitewright

namespace Value

theorem isEmpty_of_isNull {value : Value} (h : value.isNull = true) : value.isEmpty = true := by
  match value with
  | .json .null => rfl

theorem entries_of_isEmpty {value : Value} {entries : Dict Value} (h : value.isEmpty = true)
    (he : value.entries? = some entries) : entries = [] := by
  match value with
  | .map given =>
      cases he
      exact List.isEmpty_iff.mp h
  | .json (.object fields) =>
      cases he
      rw [List.map_eq_nil_iff]
      exact List.isEmpty_iff.mp h

end Value

namespace Document

variable {document changed : Document} {entries : Dict Value} {parent key : String}

def Unsaved (document : Document) : Prop :=
  ((Dict.get? document "site_schema").map Value.isNull).getD true = true

def schemaEntries? (document : Document) : Option (Dict Value) :=
  match Dict.get? document "site_schema" with
  | none => some []
  | some value => if value.isNull then some [] else value.entries?

/-- The entries of a schema after a content, a version and a time have been set among them. -/
def savedEntries (entries : Dict Value) (content : Option Fields) (version : Value)
    (now : Timestamp) : Dict Value :=
  Dict.set "updated_at" (.stamp now)
    (Dict.set "version" version (Dict.set "content" (.ofFields content) entries))

def withSchema (document : Document) (entries : Dict Value) (content : Option Fields)
    (version : Value) (now : Timestamp) : Document :=
  Dict.set "updated_at" (.stamp now)
    (Dict.set "site_schema" (.map (savedEntries entries content version now)) document)

theorem schemaEntries?_of_unsaved (h : document.Unsaved) : document.schemaEntries? = some [] := by
  rw [Unsaved] at h
  rw [schemaEntries?]
  cases hs : Dict.get? document "site_schema" with
  | none => rfl
  | some value =>
      rw [hs] at h
      exact if_pos h

/-- The entries of a schema that is there can be reached unless it is no map. -/
theorem mapAt_cases (h : ¬ document.Unsaved) :
    (∃ entries, document.schemaEntries? = some entries ∧
      mapAt "site_schema" document = .ok entries) ∨
    document.schemaEntries? = none ∧ ∃ cause, mapAt "site_schema" document = .error cause := by
  rw [Unsaved] at h
  rw [schemaEntries?, mapAt]
  cases hs : Dict.get? document "site_schema" with
  | none =>
      rw [hs] at h
      exact absurd rfl h
  | some value =>
      rw [hs] at h
      have hnull : ¬ value.isNull = true := h
      simp only [if_neg hnull]
      cases value.entries? with
      | some entries => exact .inl ⟨entries, rfl, rfl⟩
      | none => exact .inr ⟨rfl, _, rfl⟩

/-! ## Changes -/

theorem change_cons {next : Change} (h : next.apply document = .ok changed)
    (changes : List Change) : document.change (next :: changes) = changed.change changes := by
  rw [change, h]

theorem change_cons_of_error {next : Change} {cause : Mismatch}
    (h : next.apply document = .error cause) (changes : List Change) :
    document.change (next :: changes) = (document, .error cause) := by
  rw [change, h]

theorem mapAt_of_map (h : Dict.get? document parent = some (.map entries)) :
    mapAt parent document = .ok entries := by
  rw [mapAt, h]
  rfl

theorem valueAt_in (h : mapAt parent document = .ok entries) (key : String) :
    valueAt [parent, key] document = .ok (Dict.get? entries key) := by
  rw [valueAt, h]
  · rfl
  · nofun

theorem apply_set_in (h : mapAt parent document = .ok entries) (value : Value) :
    (Change.set [parent, key] value).apply document =
      .ok (Dict.set parent (.map (Dict.set key value entries)) document) := by
  rw [Change.apply, setAt, h]
  · rfl
  · nofun

theorem apply_increment_in {version : Value} (h : mapAt parent document = .ok entries)
    (hv : incremented (Dict.get? entries key) = .ok version) :
    (Change.increment [parent, key]).apply document =
      .ok (Dict.set parent (.map (Dict.set key version entries)) document) := by
  have happly : (Change.increment [parent, key]).apply document =
      setAt [parent, key] version document := by
    rw [Change.apply, valueAt_in h]
    exact congrArg (· >>= fun value => setAt [parent, key] value document) hv
  rw [happly]
  exact apply_set_in h version

theorem apply_increment_error {cause : Mismatch} (h : mapAt parent document = .ok entries)
    (hv : incremented (Dict.get? entries key) = .error cause) :
    (Change.increment [parent, key]).apply document = .error cause := by
  rw [Change.apply, valueAt_in h]
  exact congrArg (· >>= fun value => setAt [parent, key] value document) hv

/-! ## Entries of a saved document -/

section

variable {content : Option Fields} {version : Value} {now : Timestamp}

theorem get?_withSchema_of_ne (hs : key ≠ "site_schema") (hu : key ≠ "updated_at") :
    Dict.get? (document.withSchema entries content version now) key = Dict.get? document key := by
  rw [withSchema, Dict.get?_set_of_ne hu, Dict.get?_set_of_ne hs]

theorem updatedAt_withSchema :
    Dict.get? (document.withSchema entries content version now) "updated_at" =
      some (.stamp now) :=
  Dict.get?_set_self _ _ _

theorem schema_withSchema :
    Dict.get? (document.withSchema entries content version now) "site_schema" =
      some (.map (savedEntries entries content version now)) := by
  rw [withSchema, Dict.get?_set_of_ne (by decide), Dict.get?_set_self]

theorem content_savedEntries :
    Dict.get? (savedEntries entries content version now) "content" =
      some (.ofFields content) := by
  rw [savedEntries, Dict.get?_set_of_ne (by decide), Dict.get?_set_of_ne (by decide),
    Dict.get?_set_self]

theorem version_savedEntries :
    Dict.get? (savedEntries entries content version now) "version" = some version := by
  rw [savedEntries, Dict.get?_set_of_ne (by decide), Dict.get?_set_self]

theorem updatedAt_savedEntries :
    Dict.get? (savedEntries entries content version now) "updated_at" = some (.stamp now) :=
  Dict.get?_set_self _ _ _

end

end Document

namespace Project

variable {document changed : Document} {content : Option Fields} {now : Timestamp}

def firstChanges (content : Option Fields) (now : Timestamp) : List Document.Change :=
  [.set ["site_schema"] (SchemaRecord.toValue { content, updatedAt := now }),
   .set ["updated_at"] (.stamp now)]

def laterChanges (content : Option Fields) (now : Timestamp) : List Document.Change :=
  [.set ["site_schema", "content"] (.ofFields content),
   .increment ["site_schema", "version"],
   .set ["site_schema", "updated_at"] (.stamp now),
   .set ["updated_at"] (.stamp now)]

theorem saveChanges_of_unsaved (h : document.Unsaved) (content : Option Fields)
    (now : Timestamp) : saveChanges document content now = firstChanges content now :=
  if_pos h

theorem saveChanges_of_saved (h : ¬ document.Unsaved) (content : Option Fields)
    (now : Timestamp) : saveChanges document content now = laterChanges content now :=
  if_neg h

/-- The first changes are those of a schema that has no entries yet. -/
theorem change_firstChanges (document : Document) (content : Option Fields) (now : Timestamp) :
    Document.change document (firstChanges content now) =
      (document.withSchema [] content (.json (.int 1)) now, .ok ()) := rfl

theorem change_laterChanges {entries : Dict Value} {version : Value}
    (h : Document.mapAt "site_schema" document = .ok entries)
    (hv : Document.incremented (Dict.get? entries "version") = .ok version)
    (content : Option Fields) (now : Timestamp) :
    Document.change document (laterChanges content now) =
      (document.withSchema entries content version now, .ok ()) := by
  have hkept : Dict.get? (Dict.set "content" (.ofFields content) entries) "version" =
      Dict.get? entries "version" := Dict.get?_set_of_ne (by decide) _ _
  rw [laterChanges, Document.change_cons (Document.apply_set_in h _),
    Document.change_cons (Document.apply_increment_in
      (Document.mapAt_of_map (Dict.get?_set_self _ _ _)) (hkept ▸ hv)),
    Document.change_cons (Document.apply_set_in
      (Document.mapAt_of_map (Dict.get?_set_self _ _ _)) _),
    Dict.set_set_self, Dict.set_set_self]
  rfl

theorem change_laterChanges_of_mismatch {entries : Dict Value} {cause : Mismatch}
    (h : Document.mapAt "site_schema" document = .ok entries)
    (hv : Document.incremented (Dict.get? entries "version") = .error cause)
    (content : Option Fields) (now : Timestamp) :
    (Document.change document (laterChanges content now)).2 = .error cause := by
  have hkept : Dict.get? (Dict.set "content" (.ofFields content) entries) "version" =
      Dict.get? entries "version" := Dict.get?_set_of_ne (by decide) _ _
  rw [laterChanges, Document.change_cons (Document.apply_set_in h _),
    Document.change_cons_of_error (Document.apply_increment_error
      (Document.mapAt_of_map (Dict.get?_set_self _ _ _)) (hkept ▸ hv))]

theorem change_laterChanges_of_no_map {cause : Mismatch}
    (h : Document.mapAt "site_schema" document = .error cause) (content : Option Fields)
    (now : Timestamp) :
    Document.change document (laterChanges content now) = (document, .error cause) := by
  refine Document.change_cons_of_error ?_ _
  rw [Document.Change.apply, Document.setAt, h]
  · rfl
  · nofun

/-- A save makes its changes if the schema has entries and their version can be counted up, and then
it writes them so. -/
theorem change_saveChanges_eq_ok_iff :
    Document.change document (saveChanges document content now) = (changed, .ok ()) ↔
      ∃ entries version, document.schemaEntries? = some entries ∧
        Document.incremented (Dict.get? entries "version") = .ok version ∧
        changed = document.withSchema entries content version now := by
  by_cases hu : document.Unsaved
  · rw [saveChanges_of_unsaved hu, change_firstChanges, Document.schemaEntries?_of_unsaved hu]
    constructor
    · rintro ⟨⟩
      exact ⟨[], _, rfl, rfl, rfl⟩
    · rintro ⟨_, version, ⟨⟩, ⟨⟩, rfl⟩
      rfl
  rw [saveChanges_of_saved hu]
  rcases Document.mapAt_cases hu with ⟨entries, hentries, hmap⟩ | ⟨hnone, cause, hmap⟩
  · rw [hentries]
    cases hv : Document.incremented (Dict.get? entries "version") with
    | ok version =>
        rw [change_laterChanges hmap hv]
        constructor
        · rintro ⟨⟩
          exact ⟨entries, version, rfl, hv, rfl⟩
        · rintro ⟨_, other, ⟨⟩, hother, rfl⟩
          cases hv.symm.trans hother
          rfl
    | error cause =>
        have hfail := change_laterChanges_of_mismatch hmap hv content now
        refine iff_of_false (fun h => ?_) ?_
        · rw [h] at hfail
          cases hfail
        · rintro ⟨_, version, ⟨⟩, hversion, -⟩
          cases hv.symm.trans hversion
  · rw [change_laterChanges_of_no_map hmap, hnone]
    simp

end Project

/-! ## Documents of projects -/

namespace Project

/-- The first save of a project writes the whole entry, and every later one counts its version. -/
theorem saveChanges_toDocument (project : Project) (content : Option Fields) (now : Timestamp) :
    saveChanges project.toDocument content now =
      match project.schema with
      | none => firstChanges content now
      | some _ => laterChanges content now := by
  obtain ⟨id, name, slug, status, brief, owner, schema, createdAt, updatedAt⟩ := project
  cases schema <;> rfl

/-- A project is read back from its document. The changes of a save, be it the first one or a later
one, make the document of the project with that content, the next version and the time of the save,
and so this is what is read from then on. -/
theorem document_roundTrip (project : Project) :
    (∀ now, ofDocument project.id now project.toDocument = .ok project) ∧
    ∀ (content : Option Fields) (now : Timestamp),
      let changes := saveChanges project.toDocument content now
      let version :=
        match project.schema with
        | none => 1
        | some record => record.version + 1
      let saved : Project :=
        { project with schema := some { content, version, updatedAt := now }, updatedAt := now }
      (changes = match project.schema with
        | none => firstChanges content now
        | some _ => laterChanges content now) ∧
      Document.change project.toDocument changes = (saved.toDocument, .ok ()) ∧
      ∀ later, ofDocument project.id later saved.toDocument = .ok saved := by
  refine ⟨fun now => ofDocument_toDocument project.id now project, fun content now => ?_⟩
  intro changes version saved
  have hsaved : project.save content now = saved := by
    cases hs : project.schema <;> simp [save, SchemaRecord.saved, saved, version, hs]
  refine ⟨saveChanges_toDocument project content now, ?_, fun later => ?_⟩
  · rw [← hsaved]
    exact change_saveChanges project content now
  · exact ofDocument_toDocument saved.id later saved

end Project

/-! ## Reading -/

namespace SchemaRecord

variable {document : Document} {entries : Dict Value} {now : Timestamp}

theorem ofEntries_eq_ok_iff {record : SchemaRecord} :
    ofEntries now entries = .ok record ↔
      Checked.optional "content" none (Value.nullable Value.dictionary) entries =
          .ok record.content ∧
        Checked.optional "version" 1 Value.integer entries = .ok record.version ∧
        Checked.optional "updated_at" now Value.timestamp entries = .ok record.updatedAt := by
  rw [ofEntries, Checked.record₃_eq_ok_iff]
  constructor
  · rintro ⟨content, version, updatedAt, hc, hv, hu, rfl⟩
    exact ⟨hc, hv, hu⟩
  · rintro ⟨hc, hv, hu⟩
    exact ⟨_, _, _, hc, hv, hu, rfl⟩

theorem ofDocument?_eq_ok_iff_of_full {value : Value} {found : Option SchemaRecord}
    (hs : Dict.get? document "site_schema" = some value) (hf : ¬ value.isEmpty = true) :
    ofDocument? now document = .ok found ↔
      ∃ record, ofValue now value = .ok record ∧ found = some record := by
  rw [ofDocument?, hs]
  simp only [if_neg hf]
  cases ofValue now value with
  | error issues =>
      refine iff_of_false (fun h => by cases h) ?_
      rintro ⟨_, ⟨⟩, -⟩
  | ok record =>
      constructor
      · rintro ⟨⟩
        exact ⟨record, rfl, rfl⟩
      · rintro ⟨_, ⟨⟩, rfl⟩
        rfl

/-- No schema is found where there is no entry or an empty one; any other is read from its
entries. -/
theorem ofDocument?_eq_ok {found : Option SchemaRecord} (h : ofDocument? now document = .ok found)
    (he : document.schemaEntries? = some entries) :
    entries = [] ∧ found = none ∨
      Document.mapAt "site_schema" document = .ok entries ∧
        ∃ record, found = some record ∧ ofEntries now entries = .ok record := by
  rw [Document.schemaEntries?] at he
  cases hs : Dict.get? document "site_schema" with
  | none =>
      rw [ofDocument?, hs] at h
      rw [hs] at he
      cases h
      cases he
      exact .inl ⟨rfl, rfl⟩
  | some value =>
      simp only [hs] at he
      by_cases hempty : value.isEmpty = true
      · simp only [ofDocument?, hs, if_pos hempty] at h
        cases h
        refine .inl ⟨?_, rfl⟩
        by_cases hnull : value.isNull = true
        · rw [if_pos hnull] at he
          exact (Option.some.inj he).symm
        · rw [if_neg hnull] at he
          exact Value.entries_of_isEmpty hempty he
      · have hnull : ¬ value.isNull = true := fun hn => hempty (Value.isEmpty_of_isNull hn)
        rw [if_neg hnull] at he
        obtain ⟨record, hrecord, rfl⟩ := (ofDocument?_eq_ok_iff_of_full hs hempty).mp h
        rw [ofValue, Value.record, he] at hrecord
        exact .inr ⟨by simp only [Document.mapAt, hs, he], record, rfl, hrecord⟩

variable {content : Option Fields} {version : Value}

theorem ofEntries_savedEntries_eq_ok_iff {record : SchemaRecord} {later : Timestamp} :
    ofEntries later (Document.savedEntries entries content version now) = .ok record ↔
      ∃ n, version.integer = .ok n ∧ record = { content, version := n, updatedAt := now } := by
  have hcontent : Value.nullable Value.dictionary (.ofFields content) = .ok content := by
    cases content <;> rfl
  rw [ofEntries_eq_ok_iff,
    Checked.optional_eq_ok_iff_of_get? Document.content_savedEntries,
    Checked.optional_eq_ok_iff_of_get? Document.version_savedEntries,
    Checked.optional_eq_ok_iff_of_get? Document.updatedAt_savedEntries, hcontent]
  constructor
  · obtain ⟨found, n, time⟩ := record
    rintro ⟨⟨⟩, hn, ⟨⟩⟩
    exact ⟨n, hn, rfl⟩
  · rintro ⟨n, hn, rfl⟩
    exact ⟨rfl, hn, rfl⟩

/-- The schema of a saved document is read if its version is an integer. -/
theorem ofDocument?_withSchema_eq_ok_iff {found : Option SchemaRecord} {later : Timestamp} :
    ofDocument? later (document.withSchema entries content version now) = .ok found ↔
      ∃ n, version.integer = .ok n ∧ found = some { content, version := n, updatedAt := now } := by
  have hfull : ¬ Value.isEmpty (.map (Document.savedEntries entries content version now)) := by
    intro hempty
    have hnil := Value.entries_of_isEmpty hempty rfl
    have htime : Dict.get? (Document.savedEntries entries content version now) "updated_at" =
        some (.stamp now) := Document.updatedAt_savedEntries
    rw [hnil] at htime
    cases htime
  rw [ofDocument?_eq_ok_iff_of_full Document.schema_withSchema hfull]
  constructor
  · rintro ⟨record, hrecord, rfl⟩
    obtain ⟨n, hn, rfl⟩ := ofEntries_savedEntries_eq_ok_iff.mp hrecord
    exact ⟨n, hn, rfl⟩
  · rintro ⟨n, hn, rfl⟩
    exact ⟨_, ofEntries_savedEntries_eq_ok_iff.mpr ⟨n, hn, rfl⟩, rfl⟩

end SchemaRecord

namespace Document

variable {document changed : Document} {entries : Dict Value} {content : Option Fields}
  {version : Value} {now : Timestamp}

def Gives {α : Type} (document : Document) (key : String) (check : Value → Checked α) : Prop :=
  ∃ value, Dict.get? document key = some value ∧ ∃ a, check value = .ok a

def Admits {α : Type} (document : Document) (key : String) (check : Value → Checked α) : Prop :=
  ∀ value, Dict.get? document key = some value → ∃ a, check value = .ok a

/-- The document has what a project is read from, but for its schema and the time of its last
change. -/
structure Whole (document : Document) : Prop where
  name : document.Gives "name" Value.text
  slug : document.Admits "slug" Value.text
  status : document.Admits "status" Value.text
  brief : document.Admits "brief" (Value.nullable Value.dictionary)
  owner : document.Admits "owner" Value.text
  createdAt : document.Gives "created_at" Value.timestamp

theorem Whole.of_get?_eq (h : document.Whole)
    (hsame : ∀ key, key ≠ "site_schema" → key ≠ "updated_at" →
      Dict.get? changed key = Dict.get? document key) : changed.Whole where
  name := by rw [Gives, hsame _ (by decide) (by decide)]; exact h.name
  slug := by rw [Admits, hsame _ (by decide) (by decide)]; exact h.slug
  status := by rw [Admits, hsame _ (by decide) (by decide)]; exact h.status
  brief := by rw [Admits, hsame _ (by decide) (by decide)]; exact h.brief
  owner := by rw [Admits, hsame _ (by decide) (by decide)]; exact h.owner
  createdAt := by rw [Gives, hsame _ (by decide) (by decide)]; exact h.createdAt

theorem whole_withSchema_iff :
    (document.withSchema entries content version now).Whole ↔ document.Whole :=
  ⟨fun h => h.of_get?_eq fun _ hs hu => (get?_withSchema_of_ne hs hu).symm,
    fun h => h.of_get?_eq fun _ hs hu => get?_withSchema_of_ne hs hu⟩

end Document

namespace Project

variable {document : Document} {id : String} {now : Timestamp} {project : Project}

theorem requireEntry_eq_ok_iff {key : String} {value : Value} :
    requireEntry document key = .ok value ↔ Dict.get? document key = some value := by
  rw [requireEntry]
  cases Dict.get? document key <;> simp

theorem ofDocument_eq_ok_iff :
    ofDocument id now document = .ok project ↔
      ∃ schema name createdAt updatedAt,
        SchemaRecord.ofDocument? now document = .ok schema ∧
          Dict.get? document "name" = some name ∧
          Dict.get? document "created_at" = some createdAt ∧
          Dict.get? document "updated_at" = some updatedAt ∧
          checkDocument id schema document name createdAt updatedAt = .ok project := by
  simp only [ofDocument, Outcome.bind_eq_ok_iff, requireEntry_eq_ok_iff]
  constructor
  · rintro ⟨schema, hs, name, hn, createdAt, hc, updatedAt, hu, h⟩
    refine ⟨schema, name, createdAt, updatedAt, hs, hn, hc, hu, ?_⟩
    split at h
    · cases h
      assumption
    · cases h
  · rintro ⟨schema, name, createdAt, updatedAt, hs, hn, hc, hu, h⟩
    exact ⟨schema, hs, name, hn, createdAt, hc, updatedAt, hu, by rw [h]⟩

theorem schema_of_checkDocument {schema : Option SchemaRecord} {name createdAt updatedAt : Value}
    (h : checkDocument id schema document name createdAt updatedAt = .ok project) :
    project.schema = schema := by
  simp only [checkDocument, Checked.seq_eq_ok_iff, Checked.map_eq_ok_iff] at h
  obtain ⟨_, _, ⟨_, _, ⟨_, _, ⟨_, _, ⟨_, _, ⟨_, _, ⟨_, -, rfl⟩, -, rfl⟩, -, rfl⟩, -, rfl⟩, -, rfl⟩,
    -, rfl⟩, -, rfl⟩ := h
  rfl

theorem ofDocument?_of_ofDocument (h : ofDocument id now document = .ok project) :
    SchemaRecord.ofDocument? now document = .ok project.schema := by
  obtain ⟨schema, name, createdAt, updatedAt, hs, -, -, -, hcheck⟩ := ofDocument_eq_ok_iff.mp h
  rw [schema_of_checkDocument hcheck]
  exact hs

/-- When a saved document is read does not matter. -/
theorem ofDocument_withSchema {entries : Dict Value} {content : Option Fields} {version : Value}
    {saved : Timestamp}
    (h : ofDocument id now (document.withSchema entries content version saved) = .ok project)
    (later : Timestamp) :
    ofDocument id later (document.withSchema entries content version saved) = .ok project := by
  obtain ⟨schema, name, createdAt, updatedAt, hs, hrest⟩ := ofDocument_eq_ok_iff.mp h
  rw [SchemaRecord.ofDocument?_withSchema_eq_ok_iff] at hs
  exact ofDocument_eq_ok_iff.mpr ⟨schema, name, createdAt, updatedAt,
    SchemaRecord.ofDocument?_withSchema_eq_ok_iff.mpr hs, hrest⟩

theorem exists_checkDocument_iff {schema : Option SchemaRecord} {name createdAt updatedAt : Value} :
    (∃ project, checkDocument id schema document name createdAt updatedAt = .ok project) ↔
      (∃ text, name.text = .ok text) ∧ document.Admits "slug" Value.text ∧
        document.Admits "status" Value.text ∧
        document.Admits "brief" (Value.nullable Value.dictionary) ∧
        document.Admits "owner" Value.text ∧ (∃ time, createdAt.timestamp = .ok time) ∧
        ∃ time, updatedAt.timestamp = .ok time := by
  simp only [checkDocument, Checked.exists_seq_iff, Checked.exists_map_iff,
    Checked.exists_optional_iff, Checked.within_eq_ok_iff, and_assoc, Document.Admits]

/-- Whether a project can be read from a document. -/
theorem exists_ofDocument_iff :
    (∃ project, ofDocument id now document = .ok project) ↔
      (∃ schema, SchemaRecord.ofDocument? now document = .ok schema) ∧ document.Whole ∧
        document.Gives "updated_at" Value.timestamp := by
  constructor
  · rintro ⟨project, h⟩
    obtain ⟨schema, name, createdAt, updatedAt, hs, hn, hc, hu, hcheck⟩ := ofDocument_eq_ok_iff.mp h
    obtain ⟨hname, hslug, hstatus, hbrief, howner, hcreated, hupdated⟩ :=
      exists_checkDocument_iff.mp ⟨project, hcheck⟩
    exact ⟨⟨schema, hs⟩, ⟨⟨name, hn, hname⟩, hslug, hstatus, hbrief, howner,
      createdAt, hc, hcreated⟩, updatedAt, hu, hupdated⟩
  · rintro ⟨⟨schema, hs⟩, ⟨⟨name, hn, hname⟩, hslug, hstatus, hbrief, howner, createdAt, hc,
      hcreated⟩, updatedAt, hu, hupdated⟩
    obtain ⟨project, hcheck⟩ := exists_checkDocument_iff.mpr
      ⟨hname, hslug, hstatus, hbrief, howner, hcreated, hupdated⟩
    exact ⟨project, ofDocument_eq_ok_iff.mpr
      ⟨schema, name, createdAt, updatedAt, hs, hn, hc, hu, hcheck⟩⟩

end Project

/-! ## Saving -/

namespace DocumentStore

variable {store : DocumentStore} {id : String} {document : Document} {entries : Dict Value}
  {version : Value} {content : Option Fields} {now : Timestamp} {saved : Project}

/-- A save whose changes can be made. -/
theorem save_of_schemaEntries (hd : store.document? id = some document)
    (he : document.schemaEntries? = some entries)
    (hv : Document.incremented (Dict.get? entries "version") = .ok version) :
    store.save id content now =
      (store.put id (document.withSchema entries content version now),
        Project.ofDocument id now (document.withSchema entries content version now)) := by
  have hchange : document.change (Project.saveChanges document content now) =
      (document.withSchema entries content version now, .ok ()) :=
    Project.change_saveChanges_eq_ok_iff.mpr ⟨entries, version, he, hv, rfl⟩
  simp only [save, planSave, hd, update_of_document? hd hchange, readBack, document?_put]

/-- What the changes of a save have been if they did not fail. -/
theorem of_update_eq_ok (hd : store.document? id = some document)
    (h : (store.update id (Project.saveChanges document content now)).2 = .ok ()) :
    ∃ entries version, document.schemaEntries? = some entries ∧
      Document.incremented (Dict.get? entries "version") = .ok version := by
  rw [update, hd] at h
  rcases hc : document.change (Project.saveChanges document content now) with ⟨changed, _ | _⟩
  · simp only [hc] at h
    cases h
  · obtain ⟨entries, version, he, hv, -⟩ := Project.change_saveChanges_eq_ok_iff.mp hc
    exact ⟨entries, version, he, hv⟩

/-- What a save has read, counted and read back if it did not fail. -/
theorem of_save_eq_ok (h : (store.save id content now).2 = .ok saved) :
    ∃ document entries version, store.document? id = some document ∧
      document.schemaEntries? = some entries ∧
      Document.incremented (Dict.get? entries "version") = .ok version ∧
      Project.ofDocument id now (document.withSchema entries content version now) = .ok saved := by
  cases hd : store.document? id with
  | none =>
      simp only [save, planSave, hd] at h
      cases h
  | some document =>
      have hupdate : (store.update id (Project.saveChanges document content now)).2 = .ok () := by
        simp only [save, planSave, hd] at h
        rcases hu : store.update id (Project.saveChanges document content now) with ⟨updated, _ | _⟩
        · rw [hu] at h
          cases h
        · rfl
      obtain ⟨entries, version, he, hv⟩ := of_update_eq_ok hd hupdate
      rw [save_of_schemaEntries hd he hv] at h
      exact ⟨document, entries, version, rfl, he, hv, h⟩

end DocumentStore

end Sitewright
