import Sitewright.Project.Saving
import Sitewright.Proofs.Project.Documents
import Sitewright.Proofs.Turns

/-!
# Saves that overlap

Whether a save writes a whole schema entry or counts up the version of the one that is there is
decided by the document that it has read. A save that has found no schema writes the entry anew,
also when another one has saved in between, and the version starts again at one. So of saves that
overlap the versions are counted from the last such entry on.
-/

namespace Sitewright

/-! ## Plans -/

namespace Document

def Keeps (document : Document) (record : SchemaRecord) : Prop :=
  Dict.get? document "site_schema" = some record.toValue

def Change.isIncrement : Change → Bool
  | .increment _ => true
  | .set _ _ => false

variable {document : Document} {record : SchemaRecord}

theorem keeps_withSchema_nil (document : Document) (content : Option Fields) (now : Timestamp) :
    (document.withSchema [] content (.json (.int 1)) now).Keeps { content, updatedAt := now } :=
  schema_withSchema

end Document

namespace Project

variable {document : Document} {record : SchemaRecord}

theorem saveChanges_of_keeps (h : document.Keeps record) (content : Option Fields)
    (now : Timestamp) : saveChanges document content now = laterChanges content now := by
  rw [Document.Keeps] at h
  rw [saveChanges, h]
  rfl

theorem change_laterChanges_of_keeps (h : document.Keeps record) (content : Option Fields)
    (now : Timestamp) :
    ∃ changed, Document.change document (laterChanges content now) = (changed, .ok ()) ∧
      changed.Keeps { content, version := record.version + 1, updatedAt := now } :=
  ⟨_, change_laterChanges (Document.mapAt_of_map h) rfl content now, Document.schema_withSchema⟩

end Project

/-! ## Steps -/

namespace DocumentStore

variable {store : DocumentStore} {id : String} {document changed : Document}
  {changes : List Document.Change}

def Awaits (store : DocumentStore) (id : String) : Prop :=
  ∃ document, store.document? id = some document ∧ document.Unsaved

def Holds (store : DocumentStore) (id : String) (record : SchemaRecord) : Prop :=
  ∃ document, store.document? id = some document ∧ document.Keeps record

theorem Holds.version_eq {store : DocumentStore} {id : String} {record other : SchemaRecord}
    (h : store.Holds id record) (ho : store.Holds id other) : record.version = other.version := by
  obtain ⟨document, hd, hkeeps⟩ := h
  obtain ⟨same, hsame, hother⟩ := ho
  cases hd.symm.trans hsame
  have hvalue := Option.some.inj (hkeeps.symm.trans hother)
  simp only [SchemaRecord.toValue, Value.map.injEq, List.cons.injEq, Prod.mk.injEq,
    Value.json.injEq, Json.int.injEq, true_and] at hvalue
  exact hvalue.2.1

/-- The changes of a save that has found no schema can be made in any document. -/
theorem exists_update_first (hd : store.document? id = some document) (content : Option Fields)
    (now : Timestamp) :
    ∃ updated, store.update id (Project.firstChanges content now) = (updated, .ok ()) ∧
      updated.Holds id { content, updatedAt := now } :=
  ⟨_, update_of_document? hd (Project.change_firstChanges document content now), _,
    document?_put store id _, Document.keeps_withSchema_nil document content now⟩

theorem exists_update_later {record : SchemaRecord} (h : store.Holds id record)
    (content : Option Fields) (now : Timestamp) :
    ∃ updated, store.update id (Project.laterChanges content now) = (updated, .ok ()) ∧
      updated.Holds id { content, version := record.version + 1, updatedAt := now } := by
  obtain ⟨document, hd, hkeeps⟩ := h
  obtain ⟨changed, hchanged, hafter⟩ := Project.change_laterChanges_of_keeps hkeeps content now
  exact ⟨store.put id changed, update_of_document? hd hchanged, changed,
    document?_put store id changed, hafter⟩

end DocumentStore

namespace Saving

variable {store : DocumentStore} {id : String} {saving : Saving} {front back : List Saving}

/-- Three steps without any in between are a save. -/
theorem steps_eq_save (store : DocumentStore) (id : String) (content : Option Fields)
    (now : Timestamp) :
    let first := step id now store (.asked content)
    let second := step id now first.1 first.2
    let third := step id now second.1 second.2
    (third.1, third.2.outcome?) = ((store.save id content now).1,
      some (store.save id content now).2) := by
  simp only [step, DocumentStore.save]
  cases store.planSave id content now with
  | error cause => rfl
  | ok changes =>
      rcases hu : store.update id changes with ⟨updated, _ | _⟩
      · simp only [hu]
        rfl
      · simp only [hu]
        rfl

def hasUpdated : Saving → Bool
  | .updated _ | .done _ _ => true
  | _ => false

def foundNone : Saving → Bool
  | .planned changes | .updated changes | .done changes _ =>
      !changes.any Document.Change.isIncrement
  | _ => false

/-- A save that is not refused. Its plan may write the entry anew or count the version up, if there
are plans of the kind. -/
inductive Sound (renews counts : Prop) : Saving → Prop
  | asked (content : Option Fields) : Sound renews counts (.asked content)
  | first (h : renews) (content : Option Fields) (now : Timestamp) :
      Sound renews counts (.planned (Project.firstChanges content now))
  | later (h : counts) (content : Option Fields) (now : Timestamp) :
      Sound renews counts (.planned (Project.laterChanges content now))
  | updated (changes : List Document.Change) : Sound renews counts (.updated changes)
  | done (changes : List Document.Change) (outcome : Except StoreFailure Project) :
      Sound renews counts (.done changes outcome)

variable {renews counts : Prop}

theorem Sound.mono (h : saving.Sound renews False) : saving.Sound renews counts := by
  cases h with
  | asked content => exact .asked content
  | first h content now => exact .first h content now
  | later hfalse => exact hfalse.elim
  | updated changes => exact .updated changes
  | done changes outcome => exact .done changes outcome

/-- What a step of a save does: nothing to the store, or it writes an entry anew, or it counts the
version of the entry up. -/
inductive Effect (id : String) (renews counts : Prop) (store : DocumentStore) (saving : Saving) :
    DocumentStore × Saving → Prop
  | quiet {next : Saving} (hs : next.Sound renews counts) (hu : next.hasUpdated = saving.hasUpdated)
      (hf : next.hasUpdated = true → next.foundNone = saving.foundNone) :
      Effect id renews counts store saving (store, next)
  | renewed {updated : DocumentStore} {next : Saving} (hr : renews) (hu : saving.hasUpdated = false)
      (hs : next.Sound renews counts) (hn : next.hasUpdated = true) (hf : next.foundNone = true)
      {content : Option Fields} {now : Timestamp}
      (h : updated.Holds id { content, updatedAt := now }) :
      Effect id renews counts store saving (updated, next)
  | counted {updated : DocumentStore} {next : Saving} (hc : counts) (hu : saving.hasUpdated = false)
      (hs : next.Sound renews counts) (hn : next.hasUpdated = true) (hf : next.foundNone = false)
      {record : SchemaRecord} (hbefore : store.Holds id record)
      {content : Option Fields} {now : Timestamp}
      (h : updated.Holds id { content, version := record.version + 1, updatedAt := now }) :
      Effect id renews counts store saving (updated, next)

/-- The document has a schema, or none while some plans write one and none counts on one. -/
def Ready (id : String) (renews counts : Prop) (store : DocumentStore) : Prop :=
  (renews ∧ ¬ counts) ∧ store.Awaits id ∨ counts ∧ ∃ record, store.Holds id record

theorem effect_asked {document : Document} (hd : store.document? id = some document)
    (h : renews ∧ document.Unsaved ∨ counts ∧ ∃ record, document.Keeps record)
    (content : Option Fields) (now : Timestamp) :
    Effect id renews counts store (.asked content) (step id now store (.asked content)) := by
  rw [step, DocumentStore.planSave, hd]
  rcases h with ⟨hr, hunsaved⟩ | ⟨hc, record, hkeeps⟩
  · simp only [Project.saveChanges_of_unsaved hunsaved]
    exact .quiet (.first hr content now) rfl fun hu => absurd hu Bool.false_ne_true
  · simp only [Project.saveChanges_of_keeps hkeeps]
    exact .quiet (.later hc content now) rfl fun hu => absurd hu Bool.false_ne_true

theorem effect_step (hready : Ready id renews counts store) (hs : saving.Sound renews counts)
    (now : Timestamp) : Effect id renews counts store saving (step id now store saving) := by
  obtain ⟨document, hd, hdocument⟩ : ∃ document, store.document? id = some document ∧
      (renews ∧ document.Unsaved ∨ counts ∧ ∃ record, document.Keeps record) := by
    rcases hready with ⟨⟨hr, -⟩, document, hd, hunsaved⟩ | ⟨hc, record, document, hd, hkeeps⟩
    · exact ⟨document, hd, .inl ⟨hr, hunsaved⟩⟩
    · exact ⟨document, hd, .inr ⟨hc, record, hkeeps⟩⟩
  cases hs with
  | asked content => exact effect_asked hd hdocument content now
  | first hr content planned =>
      obtain ⟨updated, hupdate, hholds⟩ :=
        DocumentStore.exists_update_first hd content planned
      rw [step, hupdate]
      exact .renewed hr rfl (.updated _) rfl rfl hholds
  | later hc content planned =>
      rcases hready with ⟨⟨-, hn⟩, -⟩ | ⟨-, record, hbefore⟩
      · exact absurd hc hn
      · obtain ⟨updated, hupdate, hholds⟩ :=
          DocumentStore.exists_update_later hbefore content planned
        rw [step, hupdate]
        exact .counted hc rfl (.updated _) rfl rfl hbefore hholds
  | updated changes => exact .quiet (.done changes _) rfl fun _ => rfl
  | done changes outcome => exact .quiet (.done changes outcome) rfl fun _ => rfl

/-! ## Counting -/

def updates (savings : List Saving) : Nat :=
  savings.countP hasUpdated

def renewals (savings : List Saving) : Nat :=
  savings.countP fun saving => saving.hasUpdated && saving.foundNone

theorem renewals_le_updates (savings : List Saving) : renewals savings ≤ updates savings :=
  List.countP_mono_left fun _ _ h => (Bool.and_eq_true_iff.mp h).1

theorem updates_quiet {next : Saving} (hu : next.hasUpdated = saving.hasUpdated) :
    updates (front ++ next :: back) = updates (front ++ saving :: back) := by
  simp only [updates, List.countP_append, List.countP_cons, hu]

theorem renewals_quiet {next : Saving} (hu : next.hasUpdated = saving.hasUpdated)
    (hf : next.hasUpdated = true → next.foundNone = saving.foundNone) :
    renewals (front ++ next :: back) = renewals (front ++ saving :: back) := by
  have hsame : (next.hasUpdated && next.foundNone) = (saving.hasUpdated && saving.foundNone) := by
    cases hn : next.hasUpdated with
    | false => rw [← hu, hn, Bool.false_and, Bool.false_and]
    | true => rw [← hu, hn, hf hn]
  simp only [renewals, List.countP_append, List.countP_cons, hsame]

theorem updates_next (front back : List Saving) {next : Saving} (hu : saving.hasUpdated = false)
    (hn : next.hasUpdated = true) :
    updates (front ++ next :: back) = updates (front ++ saving :: back) + 1 := by
  simp only [updates, List.countP_append, List.countP_cons, hu, hn]
  rfl

theorem renewals_next (front back : List Saving) {next : Saving} (hu : saving.hasUpdated = false)
    (hn : next.hasUpdated = true) :
    renewals (front ++ next :: back) =
      renewals (front ++ saving :: back) + if next.foundNone then 1 else 0 := by
  simp only [renewals, List.countP_append, List.countP_cons, hu, hn, Bool.true_and,
    Bool.false_and, Bool.false_eq_true, if_false, Nat.add_zero, Nat.add_assoc]

/-- How far saves have come that started on a document without a schema. -/
inductive Progress (id : String) (store : DocumentStore) (savings : List Saving) : Prop
  | waiting (hstore : store.Awaits id) (hs : ∀ saving ∈ savings, saving.Sound True False)
      (hnone : updates savings = 0)
  | saved {record : SchemaRecord} (hstore : store.Holds id record)
      (hs : ∀ saving ∈ savings, saving.Sound True True) (hversion : 1 ≤ record.version)
      (hbound : record.version + renewals savings ≤ updates savings + 1)
      (hsome : 1 ≤ renewals savings)
      (hone : renewals savings = 1 → record.version = updates savings)

theorem progress_step (now : Timestamp) (h : Progress id store (front ++ saving :: back)) :
    Progress id (step id now store saving).1 (front ++ (step id now store saving).2 :: back) := by
  have hm : saving ∈ front ++ saving :: back := by simp
  have hle := renewals_le_updates (front ++ saving :: back)
  cases h with
  | waiting hstore hs hnone =>
      have heffect := effect_step (.inl ⟨⟨trivial, not_false⟩, hstore⟩) (hs saving hm) now
      generalize step id now store saving = result at heffect ⊢
      cases heffect with
      | quiet hsound hu hf =>
          exact .waiting hstore (Table.forall_next hs hsound) ((updates_quiet hu).trans hnone)
      | @renewed updated next hr hu hsound hn hf content time hholds =>
          show Progress id updated (front ++ next :: back)
          have hall := Table.forall_next hs hsound
          have hupdates : updates (front ++ next :: back) = 1 := by
            rw [updates_next front back hu hn, hnone]
          have hrenewals : renewals (front ++ next :: back) = 1 := by
            rw [renewals_next front back hu hn, hf, if_pos rfl]
            omega
          refine .saved hholds (fun other ho => (hall other ho).mono) (Int.le_refl 1) ?_ ?_ ?_
          · rw [hupdates, hrenewals]
            exact Int.le_refl 2
          · exact hrenewals ▸ Nat.le_refl 1
          · exact fun _ => hupdates ▸ rfl
      | counted hc => exact hc.elim
  | @saved record hstore hs hversion hbound hsome hone =>
      have heffect := effect_step (.inr ⟨trivial, record, hstore⟩) (hs saving hm) now
      generalize step id now store saving = result at heffect ⊢
      cases heffect with
      | quiet hsound hu hf =>
          rw [← updates_quiet hu, ← renewals_quiet hu hf] at *
          exact .saved hstore (Table.forall_next hs hsound) hversion hbound hsome hone
      | @renewed updated next hr hu hsound hn hf content time hholds =>
          show Progress id updated (front ++ next :: back)
          have hupdates := updates_next front back hu hn
          have hrenewals := renewals_next front back hu hn
          rw [hf, if_pos rfl] at hrenewals
          refine .saved hholds (Table.forall_next hs hsound) (Int.le_refl 1) ?_ ?_ ?_
          · show (1 : Int) + _ ≤ _
            omega
          · omega
          · intro hagain
            omega
      | @counted updated next hc hu hsound hn hf before hbefore content time hholds =>
          show Progress id updated (front ++ next :: back)
          have hupdates := updates_next front back hu hn
          have hrenewals := renewals_next front back hu hn
          rw [hf, if_neg Bool.false_ne_true] at hrenewals
          rw [← hstore.version_eq hbefore] at hholds
          refine .saved hholds (Table.forall_next hs hsound) ?_ ?_ ?_ ?_
          · show 1 ≤ record.version + 1
            omega
          · show record.version + 1 + _ ≤ _
            omega
          · omega
          · intro honce
            show record.version + 1 = _
            have := hone (by omega)
            omega

/-- How far saves have come that started on a document with a schema of the version. -/
structure Counted (id : String) (version : Int) (store : DocumentStore) (savings : List Saving) :
    Prop where
  sound : ∀ saving ∈ savings, saving.Sound False True
  stored : ∃ record, store.Holds id record ∧ record.version = version + updates savings

theorem counted_step {version : Int} (now : Timestamp)
    (h : Counted id version store (front ++ saving :: back)) :
    Counted id version (step id now store saving).1
      (front ++ (step id now store saving).2 :: back) := by
  obtain ⟨hs, record, hholds, hversion⟩ := h
  have heffect := effect_step (.inr ⟨trivial, record, hholds⟩) (hs saving (by simp)) now
  generalize step id now store saving = result at heffect ⊢
  cases heffect with
  | quiet hsound hu hf =>
      refine ⟨Table.forall_next hs hsound, record, hholds, ?_⟩
      rw [updates_quiet hu, hversion]
  | renewed hr => exact hr.elim
  | counted hc hu hsound hn hf hbefore hafter =>
      refine ⟨Table.forall_next hs hsound, _, hafter, ?_⟩
      rw [updates_next front back hu hn, ← hholds.version_eq hbefore, hversion, Int.add_assoc]
      rfl

/-! ## Overlapping saves -/

def start (store : DocumentStore) (contents : List (Option Fields)) :
    Table DocumentStore Saving where
  shared := store
  parties := contents.map .asked

theorem sound_start (store : DocumentStore) (contents : List (Option Fields)) :
    ∀ saving ∈ (start store contents).parties, saving.Sound renews counts := by
  intro saving hm
  obtain ⟨content, -, rfl⟩ := List.mem_map.mp hm
  exact .asked content

theorem updates_start (store : DocumentStore) (contents : List (Option Fields)) :
    updates (start store contents).parties = 0 := by
  refine List.countP_eq_zero.mpr fun saving hm => ?_
  obtain ⟨content, -, rfl⟩ := List.mem_map.mp hm
  exact Bool.false_ne_true

theorem Sound.hasUpdated (h : saving.Sound renews counts) (hf : saving.isFinished = true) :
    saving.hasUpdated = true := by
  cases h with
  | asked | first | later | updated => cases hf
  | done => rfl

theorem updates_of_finished {savings : List Saving}
    (hs : ∀ saving ∈ savings, saving.Sound renews counts)
    (hf : ∀ saving ∈ savings, saving.isFinished = true) : updates savings = savings.length :=
  List.countP_eq_length.mpr fun saving hm => (hs saving hm).hasUpdated (hf saving hm)

theorem renewals_of_finished {savings : List Saving}
    (hs : ∀ saving ∈ savings, saving.Sound renews counts)
    (hf : ∀ saving ∈ savings, saving.isFinished = true) :
    renewals savings = savings.countP foundNone := by
  refine List.countP_congr fun saving hm => ?_
  rw [(hs saving hm).hasUpdated (hf saving hm), Bool.true_and]

/-- No version is lost once the document has a schema, in whatever order the saves take their
steps. -/
theorem version_of_later_saves {record : SchemaRecord} (h : store.Holds id record)
    (contents : List (Option Fields)) (turns : List (Nat × Timestamp))
    (hf : ∀ saving ∈ ((start store contents).run (step id) turns).parties,
      saving.isFinished = true) :
    ∃ after, ((start store contents).run (step id) turns).shared.Holds id after ∧
      after.version = record.version + contents.length := by
  have hbegin : Counted id record.version (start store contents).shared
      (start store contents).parties := by
    refine ⟨sound_start store contents, record, h, ?_⟩
    rw [updates_start]
    exact (Int.add_zero _).symm
  obtain ⟨hs, after, hafter, hversion⟩ :=
    Table.run_invariant (fun now _ _ _ _ h => counted_step now h) hbegin turns
  rw [updates_of_finished hs hf, Table.length_run, start, List.length_map] at hversion
  exact ⟨after, hafter, hversion⟩

/-- Of the saves that start on a document without a schema each one that has found none costs a
version at least, but for one of them: all saves are counted exactly if a single one has. -/
theorem version_of_first_saves {document : Document} (hd : store.document? id = some document)
    (hn : document.Unsaved) {contents : List (Option Fields)} (hne : contents ≠ [])
    (turns : List (Nat × Timestamp))
    (hf : ∀ saving ∈ ((start store contents).run (step id) turns).parties,
      saving.isFinished = true) :
    let done := (start store contents).run (step id) turns
    ∃ stored record, done.shared.document? id = some stored ∧
      (∀ now, SchemaRecord.ofDocument? now stored = .ok (some record)) ∧
      1 ≤ record.version ∧ 1 ≤ done.parties.countP foundNone ∧
      record.version + done.parties.countP foundNone ≤ contents.length + 1 ∧
      (record.version = contents.length ↔ done.parties.countP foundNone = 1) := by
  intro done
  have hprogress : Progress id done.shared done.parties :=
    Table.run_invariant (fun now _ _ _ _ h => progress_step now h)
      (.waiting ⟨document, hd, hn⟩ (sound_start store contents) (updates_start store contents))
      turns
  have hlength : done.parties.length = contents.length :=
    (Table.length_run _ _ _).trans (List.length_map _)
  cases hprogress with
  | waiting hstore hs hnone =>
      rw [updates_of_finished hs hf, hlength] at hnone
      exact absurd (List.eq_nil_of_length_eq_zero hnone) hne
  | @saved record hstore hs hversion hbound hsome hone =>
      obtain ⟨stored, hstored, hkeeps⟩ := hstore
      rw [updates_of_finished hs hf, hlength, renewals_of_finished hs hf] at *
      refine ⟨stored, record, hstored, SchemaRecord.ofDocument?_of_get? hkeeps, hversion, hsome,
        hbound, fun hall => ?_, hone⟩
      omega

def newDocument : Document :=
  Project.toDocument
    { id := "p", name := "A", slug := "a", createdAt := ⟨0, none⟩, updatedAt := ⟨0, none⟩ }

def newStore : DocumentStore where
  documents := [("p", newDocument)]

theorem newStore_document? : newStore.document? "p" = some newDocument :=
  rfl

/-- Two saves, of which the second one begins when the first one has updated the document. -/
def oneByOne : List (Nat × Timestamp) :=
  [(0, ⟨1, none⟩), (0, ⟨2, none⟩), (1, ⟨3, none⟩), (0, ⟨4, none⟩), (1, ⟨5, none⟩), (1, ⟨6, none⟩)]

theorem version_of_first_saves_oneByOne :
    let done := (start newStore [none, some []]).run (step "p") oneByOne
    (∀ saving ∈ done.parties, saving.isFinished = true) ∧
      ∃ stored record, done.shared.document? "p" = some stored ∧
        (∀ now, SchemaRecord.ofDocument? now stored = .ok (some record)) ∧
        1 ≤ record.version ∧ 1 ≤ done.parties.countP foundNone ∧
        record.version + done.parties.countP foundNone ≤ 3 ∧
        (record.version = 2 ↔ done.parties.countP foundNone = 1) := by
  have hf : ∀ saving ∈ ((start newStore [none, some []]).run (step "p") oneByOne).parties,
      saving.isFinished = true := by
    decide +kernel
  exact ⟨hf, version_of_first_saves newStore_document? rfl (by decide) oneByOne hf⟩

/-- Two saves that both read the document before either of them updates it. -/
def crossing : List (Nat × Timestamp) :=
  [(0, ⟨1, none⟩), (1, ⟨2, none⟩), (0, ⟨3, none⟩), (1, ⟨4, none⟩), (0, ⟨5, none⟩), (1, ⟨6, none⟩)]

/-- The version is not always that of all saves. -/
theorem version_lost_by_crossing :
    ¬ ∀ (store : DocumentStore) (id : String) (document : Document)
        (contents : List (Option Fields)) (turns : List (Nat × Timestamp)),
      store.document? id = some document → document.Unsaved → contents ≠ [] →
      (∀ saving ∈ ((start store contents).run (step id) turns).parties,
        saving.isFinished = true) →
      ∃ record, ((start store contents).run (step id) turns).shared.Holds id record ∧
        record.version = contents.length := by
  intro hall
  obtain ⟨record, hholds, hversion⟩ := hall newStore "p" newDocument [none, some []] crossing rfl
    rfl (by decide) (by decide +kernel)
  have hstored : ((start newStore [none, some []]).run (step "p") crossing).shared.Holds "p"
      { content := some [], updatedAt := ⟨2, none⟩ } := ⟨_, rfl, rfl⟩
  have hone := hholds.version_eq hstored
  rw [hversion] at hone
  exact absurd hone (by decide)

end Saving

end Sitewright
