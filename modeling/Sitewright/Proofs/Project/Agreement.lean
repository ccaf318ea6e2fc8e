import Sitewright.Project.DocumentStore
import Sitewright.Project.Store
import Sitewright.Proofs.Dictionary
import Sitewright.Proofs.Sorting

/-!
# Two stores side by side

A store in memory and one in a database serve the same calls, in which every project goes by its id
in the store that is asked. They hold the same projects row by row, since a document says of a
project all but its id. So they give the same answers, up to the ids and as long as a list has room
for all projects and no two of them are of one time.
-/

namespace Sitewright

/-! ## Documents -/

theorem SchemaRecord.ofValue_toValue (now : Timestamp) (record : SchemaRecord) :
    SchemaRecord.ofValue now record.toValue = Checked.valid record := by
  obtain ⟨content, version, updatedAt⟩ := record
  cases content <;> rfl

theorem SchemaRecord.ofDocument?_of_get? {document : Document} {record : SchemaRecord}
    (h : Dict.get? document "site_schema" = some record.toValue) (now : Timestamp) :
    SchemaRecord.ofDocument? now document = .ok (some record) := by
  have hfull : record.toValue.isEmpty = false := rfl
  simp only [ofDocument?, h, hfull, ofValue_toValue]
  rfl

theorem SchemaRecord.ofDocument?_toDocument (now : Timestamp) (project : Project) :
    SchemaRecord.ofDocument? now project.toDocument = .ok project.schema := by
  obtain ⟨id, name, slug, status, brief, owner, schema, createdAt, updatedAt⟩ := project
  cases schema with
  | none => rfl
  | some record => exact ofDocument?_of_get? rfl now

/-- A project is read back from its document under the id of the document. -/
theorem Project.ofDocument_toDocument (id : String) (now : Timestamp) (project : Project) :
    Project.ofDocument id now project.toDocument = .ok { project with id } := by
  rw [ofDocument, SchemaRecord.ofDocument?_toDocument]
  obtain ⟨-, name, slug, status, brief, owner, schema, createdAt, updatedAt⟩ := project
  cases brief <;> rfl

/-- The changes of a save, of which there are two kinds, make the document of the saved project. -/
theorem Project.change_saveChanges (project : Project) (content : Option Fields)
    (now : Timestamp) :
    Document.change project.toDocument (saveChanges project.toDocument content now) =
      ((project.save content now).toDocument, .ok ()) := by
  obtain ⟨id, name, slug, status, brief, owner, schema, createdAt, updatedAt⟩ := project
  cases schema <;> rfl

namespace DocumentStore

variable {store : DocumentStore} {id : String}

theorem document?_put (store : DocumentStore) (id : String) (document : Document) :
    (store.put id document).document? id = some document :=
  Dict.get?_set_self _ _ _

theorem update_of_document? {document changed : Document} {changes : List Document.Change}
    (hd : store.document? id = some document)
    (hc : document.change changes = (changed, .ok ())) :
    store.update id changes = (store.put id changed, .ok ()) := by
  rw [update, hd]
  simp only [hc]
  rfl

/-- A save in the document of a project. -/
theorem save_of_document? {project : Project} (hd : store.document? id = some project.toDocument)
    (content : Option Fields) (now : Timestamp) :
    store.save id content now =
      (store.put id (project.save content now).toDocument,
        .ok { project.save content now with id }) := by
  have hupdate := update_of_document? hd (Project.change_saveChanges project content now)
  simp only [save, planSave, hd, hupdate, readBack, document?_put, Project.ofDocument_toDocument]

end DocumentStore

/-! ## Twins -/

/-- Ids that stand for the same project or, in both stores, for none. -/
def Corresponds (pairs : List (String × String)) (id other : String) : Prop :=
  (id, other) ∈ pairs ∨ id ∉ pairs.map (·.1) ∧ other ∉ pairs.map (·.2)

inductive StoreCall.Matches (pairs : List (String × String)) : StoreCall → StoreCall → Prop
  | create (name : String) (brief : Option Fields) :
      Matches pairs (.create name brief) (.create name brief)
  | get {id other : String} (h : Corresponds pairs id other) : Matches pairs (.get id) (.get other)
  | list : Matches pairs .list .list
  | save {id other : String} (h : Corresponds pairs id other) (content : Option Fields) :
      Matches pairs (.save id content) (.save other content)
  | ping : Matches pairs .ping .ping

def Project.Matches (pairs : List (String × String)) (project other : Project) : Prop :=
  (project.id, other.id) ∈ pairs ∧ other = { project with id := other.id }

inductive StoreAnswer.Matches (pairs : List (String × String)) : StoreAnswer → StoreAnswer → Prop
  | project {project other : Project} (h : project.Matches pairs other) :
      Matches pairs (.project project) (.project other)
  | missing : Matches pairs (.found none) (.found none)
  | found {project other : Project} (h : project.Matches pairs other) :
      Matches pairs (.found (some project)) (.found (some other))
  | projects {projects others : List Project}
      (h : List.Forall₂ (Project.Matches pairs) projects others) :
      Matches pairs (.projects projects) (.projects others)
  | reachable (yes : Bool) : Matches pairs (.reachable yes) (.reachable yes)
  | projectNotFound {id other : String} (h : Corresponds pairs id other) :
      Matches pairs (.failed (.projectNotFound id)) (.failed (.projectNotFound other))

/-- A store in memory and one in a database, and the ids that each project has got in them. -/
structure Twins where
  memory : ProjectStore
  ids : IdSource
  database : DocumentStore
  pairs : List (String × String)

namespace Twins

def start (ids : IdSource) (idAt : Nat → String) : Twins :=
  { memory := {}, ids, database := { idAt }, pairs := [] }

def madePair? : StoreCall → StoreAnswer → StoreAnswer → Option (String × String)
  | .create _ _, .project project, .project other => some (project.id, other.id)
  | _, _, _ => none

def step (twins : Twins) (now : Timestamp) (call other : StoreCall) :
    Twins × StoreAnswer × StoreAnswer :=
  let (memory, ids, answer) := twins.memory.step twins.ids now call
  let (database, reply, _) := twins.database.step now other
  let pairs := twins.pairs ++ (madePair? call answer reply).toList
  ({ memory, ids, database, pairs }, answer, reply)

def run : Twins → List (Timestamp × StoreCall × StoreCall) → Twins
  | twins, [] => twins
  | twins, (now, call, other) :: calls => (twins.step now call other).1.run calls

/-- Each call matches that to the other store by what has been made before it. -/
def Called : Twins → List (Timestamp × StoreCall × StoreCall) → Prop
  | _, [] => True
  | twins, (now, call, other) :: calls =>
      call.Matches twins.pairs other ∧ (twins.step now call other).1.Called calls

def Agree : Twins → List (Timestamp × StoreCall × StoreCall) → Prop
  | _, [] => True
  | twins, (now, call, other) :: calls =>
      (twins.step now call other).2.1.Matches (twins.step now call other).1.pairs
        (twins.step now call other).2.2 ∧ (twins.step now call other).1.Agree calls

def created? : Timestamp × StoreCall × StoreCall → Option Int
  | (now, .create _ _, _) => some now.instant
  | _ => none

/-! ## Rows -/

structure Row where
  project : Project
  document : String

namespace Row

def mirror (row : Row) : Project :=
  { row.project with id := row.document }

def pair (row : Row) : String × String :=
  (row.project.id, row.document)

def instant (row : Row) : Int :=
  row.project.createdAt.instant

def saved (row : Row) (content : Option Fields) (now : Timestamp) : Row :=
  { row with project := row.project.save content now }

end Row

structure Hold (twins : Twins) (rows : List Row) : Prop where
  projects : twins.memory.projects = rows.map fun row => (row.project.id, row.project)
  documents : twins.database.documents = rows.map fun row =>
    (row.document, row.project.toDocument)
  pairs : twins.pairs = rows.map Row.pair
  reachable : twins.memory.reachable = true
  outage : twins.database.outage = none

/-- No two rows have an id or a time in common, and a list has room for them. -/
structure Distinct (rows : List Row) : Prop where
  ids : (rows.map (·.project.id)).Nodup
  documents : (rows.map (·.document)).Nodup
  instants : (rows.map Row.instant).Nodup
  count : rows.length ≤ DocumentStore.defaultLimit

variable {twins : Twins} {rows : List Row} {row : Row} {now : Timestamp} {call other : StoreCall}
  {id document : String}

theorem hold_start (ids : IdSource) (idAt : Nat → String) : (start ids idAt).Hold [] :=
  ⟨rfl, rfl, rfl, rfl, rfl⟩

theorem matches_mirror (h : twins.Hold rows) (hr : row ∈ rows) :
    row.project.Matches twins.pairs row.mirror := by
  refine ⟨?_, rfl⟩
  rw [h.pairs]
  exact List.mem_map.mpr ⟨row, hr, rfl⟩

theorem get?_of_row (h : twins.Hold rows) (hd : Distinct rows) (hr : row ∈ rows) :
    twins.memory.get? row.project.id = some row.project := by
  rw [ProjectStore.get?, h.projects]
  refine Dict.get?_of_mem ?_ (List.mem_map.mpr ⟨row, hr, rfl⟩)
  rw [Dict.keys, List.map_map]
  exact hd.ids

theorem document?_of_row (h : twins.Hold rows) (hd : Distinct rows) (hr : row ∈ rows) :
    twins.database.document? row.document = some row.project.toDocument := by
  rw [DocumentStore.document?, h.documents]
  refine Dict.get?_of_mem ?_ (List.mem_map.mpr ⟨row, hr, rfl⟩)
  rw [Dict.keys, List.map_map]
  exact hd.documents

/-- Ids that correspond are those of a row, or neither store knows its own. -/
theorem row_or_unknown (h : twins.Hold rows) (hc : Corresponds twins.pairs id document) :
    (∃ row ∈ rows, row.project.id = id ∧ row.document = document) ∨
      twins.memory.get? id = none ∧ twins.database.document? document = none := by
  rcases hc with hm | ⟨hid, hdocument⟩
  · rw [h.pairs] at hm
    obtain ⟨row, hr, he⟩ := List.mem_map.mp hm
    cases he
    exact .inl ⟨row, hr, rfl, rfl⟩
  · refine .inr ⟨?_, ?_⟩
    · rw [ProjectStore.get?, h.projects, Dict.get?_eq_none_iff, Dict.keys, List.map_map]
      rwa [h.pairs, List.map_map] at hid
    · rw [DocumentStore.document?, h.documents, Dict.get?_eq_none_iff, Dict.keys, List.map_map]
      rwa [h.pairs, List.map_map] at hdocument

/-! ## One call -/

def madeRow (twins : Twins) (now : Timestamp) (name : String) (brief : Option Fields) : Row where
  project := (twins.memory.create name brief now twins.ids).1
  document := twins.database.idAt twins.database.made

theorem hold_create (h : twins.Hold rows) (name : String) (brief : Option Fields)
    (hid : (twins.madeRow now name brief).project.id ∉ rows.map (·.project.id))
    (hdocument : (twins.madeRow now name brief).document ∉ rows.map (·.document)) :
    (twins.step now (.create name brief) (.create name brief)).1.Hold
      (rows ++ [twins.madeRow now name brief]) where
  projects := by
    have hset : (twins.step now (.create name brief) (.create name brief)).1.memory.projects =
        Dict.set (twins.madeRow now name brief).project.id (twins.madeRow now name brief).project
          twins.memory.projects := rfl
    rw [hset, h.projects, Dict.set_of_not_mem, List.map_append, List.map_singleton]
    rwa [Dict.keys, List.map_map]
  documents := by
    have hset : (twins.step now (.create name brief) (.create name brief)).1.database.documents =
        Dict.set (twins.madeRow now name brief).document
          (twins.madeRow now name brief).project.toDocument twins.database.documents := rfl
    rw [hset, h.documents, Dict.set_of_not_mem, List.map_append, List.map_singleton]
    rwa [Dict.keys, List.map_map]
  pairs := by
    rw [List.map_append, List.map_singleton, ← h.pairs]
    rfl
  reachable := h.reachable
  outage := h.outage

theorem save_of_row (h : twins.Hold rows) (hd : Distinct rows) (hr : row ∈ rows)
    (content : Option Fields) :
    twins.database.save row.document content now =
      (twins.database.put row.document (row.saved content now).project.toDocument,
        .ok (row.saved content now).mirror) :=
  DocumentStore.save_of_document? (document?_of_row h hd hr) content now

theorem step_save_of_row (h : twins.Hold rows) (hd : Distinct rows) (hr : row ∈ rows)
    (content : Option Fields) :
    twins.step now (.save row.project.id content) (.save row.document content) =
      ({ twins with
          memory :=
            { twins.memory with
                projects := Dict.set row.project.id (row.saved content now).project
                  twins.memory.projects }
          database := twins.database.put row.document (row.saved content now).project.toDocument },
        .project (row.saved content now).project, .project (row.saved content now).mirror) := by
  simp only [step, ProjectStore.step, ProjectStore.stepAt, ProjectStore.save, get?_of_row h hd hr,
    DocumentStore.step, save_of_row h hd hr, madePair?, Option.toList_none, List.append_nil]
  rfl

theorem not_mem_front {f : Row → String} {front back : List Row}
    (h : ((front ++ row :: back).map f).Nodup) : f row ∉ front.map f := by
  rw [List.map_append, List.map_cons] at h
  exact fun hm => List.disjoint_of_nodup_append h hm List.mem_cons_self

/-- A save changes one row, and not its time of creation. -/
theorem hold_save (h : twins.Hold rows) (hd : Distinct rows) (hr : row ∈ rows) (now : Timestamp)
    (content : Option Fields) :
    ∃ rows', (twins.step now (.save row.project.id content) (.save row.document content)).1.Hold
        rows' ∧ rows'.map Row.instant = rows.map Row.instant ∧ row.saved content now ∈ rows' := by
  obtain ⟨front, back, rfl⟩ := List.append_of_mem hr
  have hid := not_mem_front hd.ids
  have hdocument := not_mem_front hd.documents
  have hinstant : (row.saved content now).instant = row.instant := rfl
  refine ⟨front ++ row.saved content now :: back, ?_, by simp [hinstant], by simp⟩
  rw [step_save_of_row h hd hr]
  refine ⟨?_, ?_, ?_, h.reachable, h.outage⟩
  · simp only [h.projects, List.map_append, List.map_cons]
    rw [Dict.set_append_of_not_mem (by rwa [Dict.keys, List.map_map]), Dict.set, if_pos rfl]
    rfl
  · simp only [DocumentStore.put, h.documents, List.map_append, List.map_cons]
    rw [Dict.set_append_of_not_mem (by rwa [Dict.keys, List.map_map]), Dict.set, if_pos rfl]
    rfl
  · simp only [h.pairs, List.map_append, List.map_cons]
    rfl

/-! ## Lists -/

def newestFirst (rows : List Row) : List Row :=
  rows.mergeSort fun a b => b.instant ≤ a.instant

theorem mem_newestFirst : row ∈ newestFirst rows ↔ row ∈ rows :=
  List.mem_mergeSort

theorem pairwise_newestFirst (rows : List Row) :
    (newestFirst rows).Pairwise fun a b => b.instant ≤ a.instant :=
  Sorting.pairwise_descending Row.instant rows

theorem list_memory (h : twins.Hold rows) :
    twins.memory.list = (newestFirst rows).map (·.project) := by
  have hvalues : Dict.values twins.memory.projects = rows.map (·.project) := by
    rw [h.projects, Dict.values, List.map_map]
    rfl
  rw [ProjectStore.list, hvalues, newestFirst]
  refine (List.map_mergeSort (f := Row.project) ?_).symm
  intro row _ other _
  rfl

/-- The time of creation and the id by which the database orders the document of a row. -/
def Row.dated (row : Row) : Value × String :=
  (.stamp row.project.createdAt, row.document)

/-- The number by which the database orders documents whose time is a timestamp. -/
def rank (entry : Value × String) : Int :=
  match entry.1 with
  | .stamp created => created.instant
  | _ => 0

theorem dated_database (h : twins.Hold rows) : twins.database.dated = rows.map Row.dated := by
  rw [DocumentStore.dated, h.documents, List.filterMap_map]
  exact List.filterMap_eq_map (f := Row.dated) ▸ rfl

theorem eq_of_rank_eq (hd : Distinct rows) {a b : Value × String} (ha : a ∈ rows.map Row.dated)
    (hb : b ∈ rows.map Row.dated) (he : rank a = rank b) : a = b := by
  obtain ⟨row, hr, rfl⟩ := List.mem_map.mp ha
  obtain ⟨other, ho, rfl⟩ := List.mem_map.mp hb
  exact congrArg Row.dated (List.inj_on_of_nodup_map hd.instants hr ho he)

/-- As no two times are equal, the ids never decide the order of two documents. -/
theorem goesBy_rank (hd : Distinct rows) :
    Sorting.GoesBy DocumentStore.precedes rank (rows.map Row.dated) := by
  intro a ha b hb
  obtain ⟨row, hr, rfl⟩ := List.mem_map.mp ha
  obtain ⟨other, ho, rfl⟩ := List.mem_map.mp hb
  by_cases he : row.instant = other.instant
  · obtain rfl : row = other := List.inj_on_of_nodup_map hd.instants hr ho he
    simp [DocumentStore.precedes, Row.dated, Value.equals]
  · have hne : row.project.createdAt.instant ≠ other.project.createdAt.instant := he
    simp [DocumentStore.precedes, Row.dated, Value.equals, Value.precedes, hne]
    rfl

theorem listed_database (h : twins.Hold rows) (hd : Distinct rows) :
    twins.database.listed = .ok ((newestFirst rows).map (·.document)) := by
  have hreverse : (rows.map Row.dated).reverse.Perm (rows.map Row.dated) := List.reverse_perm _
  obtain ⟨all, hsort, hperm, hsorted⟩ := Sorting.exists_sort ((goesBy_rank hd).of_perm hreverse)
  have hnewest : all.reverse = (newestFirst rows).map Row.dated := by
    have hall : all.reverse.Perm (rows.map Row.dated) :=
      (List.reverse_perm all).trans (hperm.trans hreverse)
    have hrows : ((newestFirst rows).map Row.dated).Perm (rows.map Row.dated) :=
      (List.mergeSort_perm _ _).map _
    have hrank : ((newestFirst rows).map Row.dated).Pairwise fun a b => rank b ≤ rank a :=
      List.pairwise_map.mpr (pairwise_newestFirst rows)
    refine List.Perm.eq_of_pairwise ?_ (List.pairwise_reverse.mpr hsorted) hrank
      (hall.trans hrows.symm)
    intro a b ha hb hab hba
    exact eq_of_rank_eq hd (hall.mem_iff.mp ha) (hrows.mem_iff.mp hb) (Int.le_antisymm hba hab)
  rw [DocumentStore.listed, dated_database h, hsort]
  simp only [Except.map, ← List.map_reverse, hnewest, List.map_map]
  rfl

theorem list_database (h : twins.Hold rows) (hd : Distinct rows) :
    twins.database.list DocumentStore.defaultLimit now =
      .ok ((newestFirst rows).map Row.mirror) := by
  have hback : ∀ row ∈ newestFirst rows,
      twins.database.readBack row.document now = .ok row.mirror := by
    intro row hr
    simp only [DocumentStore.readBack, document?_of_row h hd (mem_newestFirst.mp hr),
      Project.ofDocument_toDocument]
    rfl
  have hlength : ((newestFirst rows).map (·.document)).length ≤ DocumentStore.defaultLimit := by
    simpa [newestFirst] using hd.count
  have hmap : ((newestFirst rows).map (·.document)).mapM
      (fun id => twins.database.readBack id now) = .ok ((newestFirst rows).map Row.mirror) := by
    rw [List.mapM_map]
    exact Outcome.mapM_eq_ok_map hback
  simp only [DocumentStore.list, h.outage, listed_database h hd, List.take_of_length_le hlength]
  exact hmap

/-! ## Steps and runs -/

theorem step_get_of_row (h : twins.Hold rows) (hd : Distinct rows) (hr : row ∈ rows) :
    twins.step now (.get row.project.id) (.get row.document) =
      (twins, .found (some row.project), .found (some row.mirror)) := by
  have hget : twins.database.get row.document now = .ok (some row.mirror) := by
    simp only [DocumentStore.get, document?_of_row h hd hr, Project.ofDocument_toDocument]
    rfl
  simp only [step, ProjectStore.step, ProjectStore.stepAt, get?_of_row h hd hr, DocumentStore.step,
    hget, madePair?, Option.toList_none, List.append_nil]

theorem step_get_of_unknown (hid : twins.memory.get? id = none)
    (hdocument : twins.database.document? document = none) :
    twins.step now (.get id) (.get document) = (twins, .found none, .found none) := by
  simp only [step, ProjectStore.step, ProjectStore.stepAt, hid, DocumentStore.step,
    DocumentStore.get, hdocument, madePair?, Option.toList_none, List.append_nil]

theorem step_save_of_unknown (hid : twins.memory.get? id = none)
    (hdocument : twins.database.document? document = none) (content : Option Fields) :
    twins.step now (.save id content) (.save document content) =
      (twins, .failed (.projectNotFound id), .failed (.projectNotFound document)) := by
  simp only [step, ProjectStore.step, ProjectStore.stepAt, ProjectStore.save, hid,
    DocumentStore.step, DocumentStore.save, DocumentStore.planSave, hdocument, madePair?,
    Option.toList_none, List.append_nil]
  rfl

theorem step_list (h : twins.Hold rows) (hd : Distinct rows) :
    twins.step now .list .list =
      (twins, .projects ((newestFirst rows).map (·.project)),
        .projects ((newestFirst rows).map Row.mirror)) := by
  simp only [step, ProjectStore.step, ProjectStore.stepAt, list_memory h, DocumentStore.step,
    list_database h hd, madePair?, Option.toList_none, List.append_nil]

theorem step_ping (h : twins.Hold rows) :
    twins.step now .ping .ping = (twins, .reachable true, .reachable true) := by
  simp only [step, ProjectStore.step, ProjectStore.stepAt, h.reachable, DocumentStore.step,
    DocumentStore.ping, h.outage, madePair?, Option.toList_none, List.append_nil]

/-- Matching calls are given matching answers, and both stores go on holding the same rows. -/
theorem hold_step (h : twins.Hold rows) (hd : Distinct rows) (hc : call.Matches twins.pairs other)
    (hids : ((twins.step now call other).1.pairs.map (·.1)).Nodup)
    (hdocuments : ((twins.step now call other).1.pairs.map (·.2)).Nodup) :
    ∃ rows', (twins.step now call other).1.Hold rows' ∧
      rows'.map Row.instant = rows.map Row.instant ++ (created? (now, call, other)).toList ∧
      (twins.step now call other).2.1.Matches (twins.step now call other).1.pairs
        (twins.step now call other).2.2 := by
  cases hc with
  | create name brief =>
      have hpairs : (twins.step now (.create name brief) (.create name brief)).1.pairs =
          rows.map Row.pair ++ [(twins.madeRow now name brief).pair] := by
        rw [← h.pairs]
        rfl
      -- That both ids are new is known from the pairs alone, which this call has extended.
      rw [hpairs, List.map_append, List.map_map] at hids hdocuments
      have hnext := hold_create h name brief
        (fun hm => List.disjoint_of_nodup_append hids hm List.mem_cons_self)
        (fun hm => List.disjoint_of_nodup_append hdocuments hm List.mem_cons_self)
      refine ⟨_, hnext, by rw [List.map_append]; rfl, .project ?_⟩
      exact matches_mirror hnext (List.mem_append_right _ List.mem_cons_self)
  | get hid =>
      rcases row_or_unknown h hid with ⟨row, hr, rfl, rfl⟩ | ⟨hnone, hdocument⟩
      · rw [step_get_of_row h hd hr]
        exact ⟨rows, h, (List.append_nil _).symm, .found (matches_mirror h hr)⟩
      · rw [step_get_of_unknown hnone hdocument]
        exact ⟨rows, h, (List.append_nil _).symm, .missing⟩
  | list =>
      rw [step_list h hd]
      refine ⟨rows, h, (List.append_nil _).symm, .projects ?_⟩
      rw [List.forall₂_map_left_iff, List.forall₂_map_right_iff, List.forall₂_same]
      exact fun row hr => matches_mirror h (mem_newestFirst.mp hr)
  | save hid content =>
      rcases row_or_unknown h hid with ⟨row, hr, rfl, rfl⟩ | ⟨hnone, hdocument⟩
      · obtain ⟨rows', hnext, hinstants, hmem⟩ := hold_save h hd hr now content
        refine ⟨rows', hnext, hinstants.trans (List.append_nil _).symm, ?_⟩
        have hmatch := matches_mirror hnext hmem
        rw [step_save_of_row h hd hr] at hmatch ⊢
        exact .project hmatch
      · rw [step_save_of_unknown hnone hdocument]
        exact ⟨rows, h, (List.append_nil _).symm, .projectNotFound hid⟩
  | ping =>
      rw [step_ping h]
      exact ⟨rows, h, (List.append_nil _).symm, .reachable true⟩

theorem pairs_prefix_step (twins : Twins) (now : Timestamp) (call other : StoreCall) :
    twins.pairs <+: (twins.step now call other).1.pairs :=
  List.prefix_append _ _

theorem pairs_prefix_run (twins : Twins) (calls : List (Timestamp × StoreCall × StoreCall)) :
    twins.pairs <+: (twins.run calls).pairs := by
  induction calls generalizing twins with
  | nil => exact List.prefix_rfl
  | cons entry calls ih =>
      obtain ⟨now, call, other⟩ := entry
      exact (pairs_prefix_step twins now call other).trans (ih _)

theorem distinct_of_pairs (h : twins.Hold rows) (hids : (twins.pairs.map (·.1)).Nodup)
    (hdocuments : (twins.pairs.map (·.2)).Nodup)
    (hcount : twins.pairs.length ≤ DocumentStore.defaultLimit)
    (hinstants : (rows.map Row.instant).Nodup) : Distinct rows := by
  rw [h.pairs] at hids hdocuments hcount
  rw [List.map_map] at hids hdocuments
  exact ⟨hids, hdocuments, hinstants, by simpa using hcount⟩

theorem agree_of_hold (h : twins.Hold rows) (calls : List (Timestamp × StoreCall × StoreCall))
    (hcalled : twins.Called calls) (hids : ((twins.run calls).pairs.map (·.1)).Nodup)
    (hdocuments : ((twins.run calls).pairs.map (·.2)).Nodup)
    (hcount : (twins.run calls).pairs.length ≤ DocumentStore.defaultLimit)
    (hinstants : (rows.map Row.instant ++ calls.filterMap created?).Nodup) :
    twins.Agree calls := by
  induction calls generalizing twins rows with
  | nil => trivial
  | cons entry calls ih =>
      obtain ⟨now, call, other⟩ := entry
      obtain ⟨hfirst, hrest⟩ := hcalled
      -- The pairs so far are a prefix of those at the end, and so distinct and few as well.
      have hnext : (twins.step now call other).1.pairs <+:
          (twins.run ((now, call, other) :: calls)).pairs := pairs_prefix_run _ calls
      have hnow := (pairs_prefix_step twins now call other).trans hnext
      have htimes : ((now, call, other) :: calls).filterMap created? =
          (created? (now, call, other)).toList ++ calls.filterMap created? := by
        cases hc : created? (now, call, other) <;> simp [hc]
      rw [htimes, ← List.append_assoc] at hinstants
      have hd : Distinct rows := distinct_of_pairs h (hids.sublist (hnow.map _).sublist)
        (hdocuments.sublist (hnow.map _).sublist) (Nat.le_trans hnow.length_le hcount)
        (List.nodup_append.mp (List.nodup_append.mp hinstants).1).1
      obtain ⟨rows', hrows, hadded, hanswer⟩ := hold_step h hd hfirst
        (hids.sublist (hnext.map _).sublist) (hdocuments.sublist (hnext.map _).sublist)
      rw [← hadded] at hinstants
      exact ⟨hanswer, ih hrows hrest hids hdocuments hcount hinstants⟩

/-- Two stores that start empty and are asked for the same give the same answers, up to the ids of
the projects, if neither gives out an id twice and at most a hundred projects are made, no two of
them at one time. -/
theorem agree_start (ids : IdSource) (idAt : Nat → String)
    (calls : List (Timestamp × StoreCall × StoreCall)) (hcalled : (start ids idAt).Called calls)
    (hids : (((start ids idAt).run calls).pairs.map (·.1)).Nodup)
    (hdocuments : (((start ids idAt).run calls).pairs.map (·.2)).Nodup)
    (hcount : ((start ids idAt).run calls).pairs.length ≤ 100)
    (hinstants : (calls.filterMap created?).Nodup) :
    (start ids idAt).Agree calls :=
  agree_of_hold (hold_start ids idAt) calls hcalled hids hdocuments hcount hinstants

def callsToBoth : List (Timestamp × StoreCall × StoreCall) :=
  [({ micros := 0 }, .create "A" none, .create "A" none),
   ({ micros := 1 }, .save "prj_19700101000000_a" none, .save "auto1" none),
   ({ micros := 2 }, .create "B" (some []), .create "B" (some [])),
   ({ micros := 1 }, .save "prj_19700101000000_a" (some []), .save "auto1" (some [])),
   ({ micros := 3 }, .get "prj_19700101000000_c", .get "auto3"),
   ({ micros := 4 }, .list, .list)]

theorem agree_callsToBoth :
    (start (.ofList ["a", "b"]) DocumentStore.autoId).Called callsToBoth ∧
      ((start (.ofList ["a", "b"]) DocumentStore.autoId).run callsToBoth).pairs.length = 2 ∧
      (start (.ofList ["a", "b"]) DocumentStore.autoId).Agree callsToBoth := by
  have hpairs : ((start (.ofList ["a", "b"]) DocumentStore.autoId).run callsToBoth).pairs =
      [("prj_19700101000000_a", "auto1"), ("prj_19700101000000_b", "auto2")] := by
    decide +kernel
  have hcalled : (start (.ofList ["a", "b"]) DocumentStore.autoId).Called callsToBoth :=
    ⟨.create _ _, .save (.inl (by decide +kernel)) _, .create _ _,
      .save (.inl (by decide +kernel)) _, .get (.inr (by decide +kernel)), .list, trivial⟩
  refine ⟨hcalled, by rw [hpairs]; rfl, agree_start _ _ _ hcalled ?_ ?_ ?_ (by decide)⟩
  all_goals rw [hpairs]; decide

end Twins

end Sitewright
