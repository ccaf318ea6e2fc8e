import Sitewright.Proofs.Project.Documents

/-!
# Saves that fail

A save reads the document back only after it has updated it, and what it reads is checked only then.
So a save in a document that no project can be read from fails when the schema and the time are
already stored. It leaves the documents as they were if it does not find its document at all.
-/

namespace Sitewright

namespace Document

/-- A save in the document can be read back: nothing else is missing or of the wrong kind, and the
version that it counts is an integer. -/
def ReadsBack (document : Document) : Prop :=
  document.Whole ∧ ∃ entries version n, document.schemaEntries? = some entries ∧
    incremented (Dict.get? entries "version") = .ok version ∧ version.integer = .ok n

structure Writes (document : Document) (content : Option Fields) (now : Timestamp)
    (changed : Document) : Prop where
  content : valueAt ["site_schema", "content"] changed = .ok (some (.ofFields content))
  updatedAt : Dict.get? changed "updated_at" = some (.stamp now)
  others : ∀ key, key ≠ "site_schema" → key ≠ "updated_at" →
    Dict.get? changed key = Dict.get? document key

variable {document : Document} {entries : Dict Value} {content : Option Fields} {version : Value}
  {now : Timestamp}

theorem writes_withSchema :
    document.Writes content now (document.withSchema entries content version now) where
  content := by rw [valueAt_in (mapAt_of_map schema_withSchema), content_savedEntries]
  updatedAt := updatedAt_withSchema
  others _ hs hu := get?_withSchema_of_ne hs hu

theorem readsBack_iff (he : document.schemaEntries? = some entries)
    (hv : incremented (Dict.get? entries "version") = .ok version) :
    document.ReadsBack ↔ document.Whole ∧ ∃ n, version.integer = .ok n := by
  refine and_congr_right fun _ => ⟨?_, fun ⟨n, hn⟩ => ⟨entries, version, n, he, hv, hn⟩⟩
  rintro ⟨same, next, n, hsame, hnext, hn⟩
  cases he.symm.trans hsame
  cases hv.symm.trans hnext
  exact ⟨n, hn⟩

end Document

namespace Project

variable {document : Document} {entries : Dict Value} {content : Option Fields} {version : Value}
  {id : String} {now later : Timestamp}

theorem exists_ofDocument_withSchema_iff :
    (∃ project, ofDocument id later (document.withSchema entries content version now) =
        .ok project) ↔ document.Whole ∧ ∃ n, version.integer = .ok n := by
  rw [exists_ofDocument_iff, Document.whole_withSchema_iff]
  simp only [SchemaRecord.ofDocument?_withSchema_eq_ok_iff]
  constructor
  · rintro ⟨⟨_, n, hn, -⟩, hw, -⟩
    exact ⟨hw, n, hn⟩
  · rintro ⟨hw, n, hn⟩
    exact ⟨⟨_, n, hn, rfl⟩, hw, _, Document.updatedAt_withSchema, now, rfl⟩

theorem requireEntry_ne_projectNotFound {key other : String} :
    requireEntry document key ≠ .error (.projectNotFound other) := by
  intro h
  rw [requireEntry] at h
  cases hv : Dict.get? document key with
  | none =>
      rw [hv] at h
      cases h
  | some value =>
      rw [hv] at h
      cases h

/-- A document that is there is not reported as missing. -/
theorem ofDocument_ne_projectNotFound (id other : String) (now : Timestamp)
    (document : Document) : ofDocument id now document ≠ .error (.projectNotFound other) := by
  intro h
  rw [ofDocument] at h
  rcases Outcome.bind_eq_error_iff.mp h with h | ⟨schema, -, h⟩
  · rw [SchemaRecord.ofDocument?] at h
    split at h
    · cases h
    · split at h
      · cases h
      · split at h <;> cases h
  rcases Outcome.bind_eq_error_iff.mp h with h | ⟨name, -, h⟩
  · exact requireEntry_ne_projectNotFound h
  rcases Outcome.bind_eq_error_iff.mp h with h | ⟨createdAt, -, h⟩
  · exact requireEntry_ne_projectNotFound h
  rcases Outcome.bind_eq_error_iff.mp h with h | ⟨updatedAt, -, h⟩
  · exact requireEntry_ne_projectNotFound h
  split at h <;> cases h

end Project

namespace DocumentStore

variable {store : DocumentStore} {id : String} {content : Option Fields} {now : Timestamp}

theorem save_of_missing (hd : store.document? id = none) (content : Option Fields)
    (now : Timestamp) : store.save id content now = (store, .error (.projectNotFound id)) := by
  simp only [save, planSave, hd]

/-- A save whose changes can be made has written them, and fails if they cannot be read back. -/
theorem save_of_document {document : Document} (hd : store.document? id = some document)
    (hupdate : (store.update id (Project.saveChanges document content now)).2 = .ok ()) :
    (∃ changed, (store.save id content now).1 = store.put id changed ∧
      document.Writes content now changed) ∧
    ((∃ cause, (store.save id content now).2 = .error cause) ↔ ¬ document.ReadsBack) ∧
    (store.save id content now).2 ≠ .error (.projectNotFound id) := by
  obtain ⟨entries, version, he, hv⟩ := of_update_eq_ok hd hupdate
  rw [save_of_schemaEntries hd he hv, Document.readsBack_iff he hv, Outcome.exists_error_iff,
    Project.exists_ofDocument_withSchema_iff]
  exact ⟨⟨_, rfl, Document.writes_withSchema⟩, Iff.rfl,
    Project.ofDocument_ne_projectNotFound _ _ _ _⟩

/-- A save fails in just the documents that cannot be read back, as long as its update does not. If
it fails for want of a document, nothing has changed; otherwise what it writes has been written. -/
theorem save_failing (hupdate : ∀ changes, store.planSave id content now = .ok changes →
      (store.update id changes).2 = .ok ()) :
    let after := store.save id content now
    ((∃ cause, after.2 = .error cause) ↔
      ∀ document, store.document? id = some document → ¬ document.ReadsBack) ∧
    ∀ cause, after.2 = .error cause →
      store.document? id = none ∧ cause = .projectNotFound id ∧ after.1 = store ∨
      ∃ document changed, store.document? id = some document ∧ cause ≠ .projectNotFound id ∧
        after.1 = store.put id changed ∧ document.Writes content now changed ∧
        (Dict.get? document "updated_at" ≠ some (.stamp now) → changed ≠ document) := by
  intro after
  cases hd : store.document? id with
  | none =>
      have hafter : after = (store, .error (.projectNotFound id)) := save_of_missing hd content now
      rw [hafter]
      refine ⟨iff_of_true ⟨_, rfl⟩ ?_, ?_⟩
      · rintro _ ⟨⟩
      · rintro _ ⟨⟩
        exact .inl ⟨rfl, rfl, rfl⟩
  | some document =>
      have hplan : store.planSave id content now =
          .ok (Project.saveChanges document content now) := by
        simp only [planSave, hd]
      obtain ⟨⟨changed, hafter, hwrites⟩, hfails, hother⟩ := save_of_document hd (hupdate _ hplan)
      constructor
      · rw [hfails]
        constructor
        · rintro h _ ⟨⟩
          exact h
        · intro h
          exact h document rfl
      · intro cause hcause
        refine .inr ⟨document, changed, rfl, ?_, hafter, hwrites, fun hne hsame => ?_⟩
        · rintro rfl
          exact hother hcause
        · exact hne (hsame ▸ hwrites.updatedAt)

def namelessDocument : Document :=
  [("created_at", .stamp { micros := 0 }), ("updated_at", .stamp { micros := 0 })]

def namelessStore : DocumentStore where
  documents := [("p", namelessDocument)]

theorem update_namelessStore : ∀ changes,
    namelessStore.planSave "p" none { micros := 5 } = .ok changes →
      (namelessStore.update "p" changes).2 = .ok () := by
  rintro _ ⟨⟩
  rfl

theorem save_failing_nameless :
    let after := namelessStore.save "p" none { micros := 5 }
    (∀ changes, namelessStore.planSave "p" none { micros := 5 } = .ok changes →
      (namelessStore.update "p" changes).2 = .ok ()) ∧
      after.2 = .error (.missingEntry "name") ∧
      ∃ changed, after.1 = namelessStore.put "p" changed ∧
        namelessDocument.Writes none { micros := 5 } changed ∧ changed ≠ namelessDocument := by
  intro after
  have hfail : after.2 = .error (.missingEntry "name") := rfl
  refine ⟨update_namelessStore, hfail, ?_⟩
  rcases (save_failing update_namelessStore).2 _ hfail with
    ⟨hnone, -⟩ | ⟨_, changed, ⟨⟩, -, hafter, hwrites, hchanged⟩
  · cases hnone
  · refine ⟨changed, hafter, hwrites, hchanged fun h => ?_⟩
    cases h

/-- A save that fails can leave a document changed. -/
theorem save_failing_after_update :
    ¬ ∀ (store : DocumentStore) (id : String) (content : Option Fields) (now : Timestamp)
        (cause : StoreFailure),
      (∀ changes, store.planSave id content now = .ok changes →
        (store.update id changes).2 = .ok ()) →
      (store.save id content now).2 = .error cause →
      ∀ other, (store.save id content now).1.document? other = store.document? other := by
  intro hall
  have hsame := hall namelessStore "p" none { micros := 5 } (.missingEntry "name")
    update_namelessStore rfl "p"
  have hlength := congrArg (Option.map List.length) hsame
  cases hlength

end DocumentStore

end Sitewright
