import Sitewright.Proofs.Project.Agreement
import Sitewright.Proofs.Service.Reporting
import Sitewright.Proofs.Turns
import Sitewright.Service.Visit

/-!
# Requests that overlap

A reader that has found no schema saves the default schema, also when another request has saved a
schema in between. The last save decides what is stored. So a schema that has been put there stays
unless a reader comes late with the default schema, and no reader does so that has found a schema.
-/

namespace Sitewright

/-! ## Repositories -/

namespace Repository

/-- The repository has the project as its own saves leave it. -/
def Holds (repository : Repository) (id : String) (project : Project) : Prop :=
  project.id = id ∧
    match repository with
    | .memory store => store.get? id = some project
    | .documents store => store.document? id = some project.toDocument

variable {repository : Repository} {id : String} {project : Project}

theorem get_of_holds (h : repository.Holds id project) (now : Timestamp) :
    repository.get id now = .ok (some project) := by
  obtain ⟨rfl, h⟩ := h
  cases repository with
  | memory store => exact congrArg Except.ok h
  | documents store =>
      simp only [get, DocumentStore.get, h, Project.ofDocument_toDocument]
      rfl

theorem exists_save_of_holds (h : repository.Holds id project) (content : Option Fields)
    (now : Timestamp) :
    ∃ saved, repository.save id content now = (saved, .ok (project.save content now)) ∧
      saved.Holds id (project.save content now) := by
  obtain ⟨rfl, h⟩ := h
  cases repository with
  | memory store =>
      refine ⟨.memory { store with
        projects := Dict.set project.id (project.save content now) store.projects }, ?_, rfl,
          Dict.get?_set_self _ _ _⟩
      simp only [save, ProjectStore.save, h]
  | documents store =>
      refine ⟨.documents (store.put project.id (project.save content now).toDocument), ?_, rfl,
        Dict.get?_set_self _ _ _⟩
      simp only [save, DocumentStore.save_of_document? h]
      rfl

end Repository

namespace Visit

variable {service : Service} {id : String} {repository : Repository} {original current : Project}
  {visit next : Visit} {front back : List Visit} {now : Timestamp}

/-! ## Two calls in a row -/

theorem steps_eq_readSchema (service : Service) (state : Service.State) (now : Timestamp)
    (id : String) :
    let first := step service id now (.memory state.store) { request := .read state.ids }
    let second := step service id now first.1 first.2
    second.1 = .memory (service.readSchema state now id).1.store ∧
      second.2.reply? = some (service.readSchema state now id).2 := by
  cases hp : state.store.get? id with
  | none => simp [step, Repository.get, hp, Service.readSchema, reply?]
  | some project =>
      cases hs : project.schema with
      | some record =>
          simp [step, Repository.get, hp, goOn, hs, Service.readSchema, Service.answer,
            reply?, answer]
      | none =>
          cases hd : service.plan.defaultSchema project.name state.ids with
          | error cause =>
              simp [step, Repository.get, hp, goOn, hs, hd, Service.readSchema, reply?]
          | ok result =>
              obtain ⟨schema, ids⟩ := result
              have hfree : reservedField?
                  (Service.entry .info "Created default schema" id []).fields = none := rfl
              simp [step, Repository.get, Repository.save, hp, goOn, hs, hd,
                Service.readSchema, Service.save, ProjectStore.save, Project.save,
                Service.report_of_unreserved hfree, Service.answer, reply?, answer]

theorem steps_eq_writeSchema (service : Service) (state : Service.State) (now : Timestamp)
    (id : String) (schema : Schema) :
    let first := step service id now (.memory state.store) { request := .write schema }
    let second := step service id now first.1 first.2
    second.1 = .memory (Service.writeSchema state now id schema).1.store ∧
      second.2.reply? = some (Service.writeSchema state now id schema).2 := by
  cases hp : state.store.get? id with
  | none => simp [step, Repository.get, hp, Service.writeSchema, reply?]
  | some project =>
      simp [step, Repository.get, Repository.save, hp, goOn, Service.writeSchema,
        Service.saveAndAnswer, Service.save, ProjectStore.save, Project.save, reply?, answer,
        Service.answer]

/-! ## One call -/

/-- The schemas that a request may come to save: the default schema only if the project has had
none to begin with. -/
def Chooses (service : Service) (original : Project) : SchemaRequest → Schema → Prop
  | .write wanted, schema => schema = wanted
  | .read ids, schema =>
      original.schema = none ∧
        ∃ rest, service.plan.defaultSchema original.name ids = .ok (schema, rest)

/-- A request to a project that is there. A writer is answered when it has saved its schema. -/
inductive Sound (service : Service) (original : Project) : Visit → Prop
  | asked (request : SchemaRequest) : Sound service original { request }
  | decided {request : SchemaRequest} {schema : Schema}
      (h : Chooses service original request schema) :
      Sound service original { request, stage := .decided schema }
  | saved {request : SchemaRequest} {schema : Schema} {record : SchemaRecord}
      (h : Chooses service original request schema) (hr : record.content = some schema.fields) :
      Sound service original { request, stage := .served (some record) (answer record) }
  | unsaved (ids : IdSource) (reply : Reply) :
      Sound service original { request := .read ids, stage := .served none reply }

/-- What a call does: nothing to the repository, or it saves a record of a version of its own. -/
inductive Effect (service : Service) (id : String) (original current : Project)
    (repository : Repository) (visit : Visit) : Repository × Visit → Prop
  | quiet {next : Visit} (hs : next.Sound service original) (hq : next.saved? = visit.saved?) :
      Effect service id original current repository visit (repository, next)
  | saved {updated : Repository} {next : Visit} {after : Project} {record : SchemaRecord}
      (hs : next.Sound service original) (hq : visit.saved? = none) (hn : next.saved? = some record)
      (h : updated.Holds id after) (hname : after.name = original.name)
      (hschema : after.schema = some record)
      (hv : ∀ before, current.schema = some before → before.version < record.version) :
      Effect service id original current repository visit (updated, next)

theorem sound_goOn (service : Service) (hname : current.name = original.name)
    (hnone : current.schema = none → original.schema = none) (request : SchemaRequest) :
    Sound service original { request, stage := goOn service current request } ∧
      saved? { request, stage := goOn service current request } = none := by
  cases request with
  | write schema => exact ⟨.decided rfl, rfl⟩
  | read ids =>
      cases hs : current.schema with
      | some record =>
          simp only [goOn, hs]
          exact ⟨.unsaved ids _, rfl⟩
      | none =>
          cases hd : service.plan.defaultSchema current.name ids with
          | error cause =>
              simp only [goOn, hs, hd]
              exact ⟨.unsaved ids _, rfl⟩
          | ok result =>
              obtain ⟨schema, rest⟩ := result
              simp only [goOn, hs, hd]
              exact ⟨.decided ⟨hnone hs, rest, hname ▸ hd⟩, rfl⟩

theorem version_lt_saved (content : Option Fields) (now : Timestamp) {before : SchemaRecord}
    (h : current.schema = some before) :
    before.version < (SchemaRecord.saved current.schema content now).version := by
  rw [h]
  exact Int.lt_succ before.version

theorem effect_step (hr : repository.Holds id current) (hname : current.name = original.name)
    (hnone : current.schema = none → original.schema = none) (hs : visit.Sound service original)
    (now : Timestamp) :
    Effect service id original current repository visit (step service id now repository visit) := by
  cases hs with
  | asked request =>
      obtain ⟨hsound, hq⟩ := sound_goOn service hname hnone request
      simp only [step, Repository.get_of_holds hr]
      exact .quiet hsound hq
  | @decided request schema hchosen =>
      obtain ⟨updated, hsave, hafter⟩ :=
        Repository.exists_save_of_holds hr (some schema.fields) now
      simp only [step, hsave, Project.save]
      exact .saved (.saved hchosen rfl) rfl rfl hafter hname rfl fun before hb =>
        version_lt_saved _ now hb
  | saved hchosen hcontent => exact .quiet (.saved hchosen hcontent) rfl
  | unsaved ids reply => exact .quiet (.unsaved ids reply) rfl

/-! ## All calls -/

def saves (visits : List Visit) : List SchemaRecord :=
  visits.filterMap saved?

theorem saves_quiet (hq : next.saved? = visit.saved?) :
    saves (front ++ next :: back) = saves (front ++ visit :: back) := by
  simp only [saves, List.filterMap_append, List.filterMap_cons, hq]

theorem mem_saves_saved (front back : List Visit) {record : SchemaRecord} (hq : visit.saved? = none)
    (hn : next.saved? = some record) (other : SchemaRecord) :
    other ∈ saves (front ++ next :: back) ↔
      other = record ∨ other ∈ saves (front ++ visit :: back) := by
  simp only [saves, List.filterMap_append, List.filterMap_cons, hq, hn, List.mem_append,
    List.mem_cons]
  exact or_left_comm

theorem version_le_saved {record : SchemaRecord} (hq : visit.saved? = none)
    (hn : next.saved? = some record)
    (h : ∀ other ∈ saves (front ++ visit :: back), other.version ≤ record.version) :
    ∀ other ∈ saves (front ++ next :: back), other.version ≤ record.version := by
  intro other ho
  rcases (mem_saves_saved front back hq hn other).mp ho with rfl | hold
  · exact Int.le_rfl
  · exact h other hold

/-- What is stored while requests are served is the project as it was or, once a schema has been
saved, the last record that has been, which has the greatest version. -/
inductive Progress (service : Service) (id : String) (original : Project) (repository : Repository)
    (visits : List Visit) : Prop
  | waiting (hr : repository.Holds id original)
      (hs : ∀ visit ∈ visits, visit.Sound service original)
      (hnone : saves visits = [])
  | saved {current : Project} {record : SchemaRecord} (hr : repository.Holds id current)
      (hname : current.name = original.name) (hschema : current.schema = some record)
      (hs : ∀ visit ∈ visits, visit.Sound service original) (hm : record ∈ saves visits)
      (hlast : ∀ other ∈ saves visits, other.version ≤ record.version)

theorem progress_step (now : Timestamp)
    (h : Progress service id original repository (front ++ visit :: back)) :
    Progress service id original (step service id now repository visit).1
      (front ++ (step service id now repository visit).2 :: back) := by
  have hm : visit ∈ front ++ visit :: back := by simp
  cases h with
  | waiting hr hs hnone =>
      have heffect := effect_step hr rfl (fun hn => hn) (hs visit hm) now
      generalize step service id now repository visit = result at heffect ⊢
      cases heffect with
      | quiet hsound hq =>
          exact .waiting hr (Table.forall_next hs hsound) ((saves_quiet hq).trans hnone)
      | saved hsound hq hn hafter hname hschema hv =>
          refine .saved hafter hname hschema (Table.forall_next hs hsound)
            ((mem_saves_saved front back hq hn _).mpr (.inl rfl)) (version_le_saved hq hn ?_)
          rw [hnone]
          exact List.forall_mem_nil _
  | saved hr hname hschema hs hrecord hlast =>
      have heffect := effect_step hr hname
        (fun hnone => absurd (hschema.symm.trans hnone) (Option.some_ne_none _)) (hs visit hm) now
      generalize step service id now repository visit = result at heffect ⊢
      cases heffect with
      | quiet hsound hq =>
          rw [← saves_quiet hq] at hrecord hlast
          exact .saved hr hname hschema (Table.forall_next hs hsound) hrecord hlast
      | saved hsound hq hn hafter hname' hschema' hv =>
          refine .saved hafter hname' hschema' (Table.forall_next hs hsound)
            ((mem_saves_saved front back hq hn _).mpr (.inl rfl)) (version_le_saved hq hn ?_)
          intro other hold
          exact Int.le_of_lt (Int.lt_of_le_of_lt (hlast other hold) (hv _ hschema))

/-! ## Overlapping requests -/

def start (repository : Repository) (requests : List SchemaRequest) : Table Repository Visit where
  shared := repository
  parties := requests.map fun request => { request }

theorem request_step (service : Service) (id : String) (now : Timestamp)
    (repository : Repository) (visit : Visit) :
    (step service id now repository visit).2.request = visit.request := by
  unfold step
  split
  · split <;> rfl
  · split
    · split <;> rfl
    · rfl
  · rfl

theorem requests_run (service : Service) (id : String) (table : Table Repository Visit)
    (turns : List (Nat × Timestamp)) :
    (table.run (step service id) turns).parties.map Visit.request =
      table.parties.map Visit.request := by
  refine Table.run_invariant
    (P := fun _ visits => visits.map Visit.request = table.parties.map Visit.request) ?_ rfl turns
  intro now repository front visit back h
  rw [← h, List.map_append, List.map_append, List.map_cons, List.map_cons, request_step]

theorem progress_run (service : Service) (h : repository.Holds id original)
    (requests : List SchemaRequest) (turns : List (Nat × Timestamp)) :
    Progress service id original
      ((start repository requests).run (step service id) turns).shared
      ((start repository requests).run (step service id) turns).parties := by
  refine Table.run_invariant (fun now _ _ _ _ h => progress_step now h) (.waiting h ?_ ?_) turns
  · intro visit hm
    obtain ⟨request, -, rfl⟩ := List.mem_map.mp hm
    exact .asked request
  · refine List.filterMap_eq_nil_iff.mpr fun visit hm => ?_
    obtain ⟨request, -, rfl⟩ := List.mem_map.mp hm
    rfl

/-- A writer that has been served has saved its schema. -/
theorem Sound.exists_saved (h : visit.Sound service original) {schema : Schema}
    (hw : visit.request = .write schema) (hserved : visit.isServed = true) :
    ∃ record, visit.saved? = some record ∧ record.content = some schema.fields ∧
      visit.reply? = some (answer record) := by
  cases h with
  | asked => cases hserved
  | decided => cases hserved
  | @saved request chosen record hchosen hr =>
      cases hw
      cases hchosen
      exact ⟨record, rfl, hr, rfl⟩
  | unsaved => cases hw

theorem Sound.exists_chosen (h : visit.Sound service original) {record : SchemaRecord}
    (hsaved : visit.saved? = some record) :
    ∃ schema, Chooses service original visit.request schema ∧
      record.content = some schema.fields := by
  cases h with
  | asked => cases hsaved
  | decided => cases hsaved
  | @saved request chosen record hchosen hr =>
      cases hsaved
      exact ⟨chosen, hchosen, hr⟩
  | unsaved => cases hsaved

/-- Every reader that has saved a default schema has done so before some writer: the versions tell
which save is the later one. -/
def ReadersEarly (visits : List Visit) : Prop :=
  ∀ reader ∈ visits, ∀ ids early, reader.request = .read ids → reader.saved? = some early →
    ∃ writer ∈ visits, ∃ schema late, writer.request = .write schema ∧
      writer.saved? = some late ∧ early.version < late.version

theorem request_of_last {visits : List Visit} {last : Visit} {record : SchemaRecord}
    {schema : Schema} (hm : last ∈ visits) (hsaved : last.saved? = some record)
    (hlast : ∀ other ∈ saves visits, other.version ≤ record.version)
    (hchosen : Chooses service original last.request schema)
    (h : original.schema ≠ none ∨ ReadersEarly visits) : last.request = .write schema := by
  cases hl : last.request with
  | write wanted =>
      rw [hl] at hchosen
      exact congrArg SchemaRequest.write hchosen.symm
  | read ids =>
      rw [hl] at hchosen
      rcases h with hsome | hearly
      · exact absurd hchosen.1 hsome
      · obtain ⟨writer, hwriter, -, late, -, hlate, hlt⟩ := hearly last hm ids record hl hsaved
        have hle := hlast late (List.mem_filterMap.mpr ⟨writer, hwriter, hlate⟩)
        exact absurd hlt (Int.not_lt.mpr hle)

/-- Once a writer has been answered and all requests are served, the record of the last save is
stored, which no reader has made if the project has had a schema to begin with. It is the schema of
a writer as well if every reader that has saved a default schema has done so before some writer. -/
theorem schema_of_requests (h : repository.Holds id original) (requests : List SchemaRequest)
    (turns : List (Nat × Timestamp))
    (hserved : ∀ visit ∈ ((start repository requests).run (step service id) turns).parties,
      visit.isServed = true)
    (hput : ∃ visit ∈ ((start repository requests).run (step service id) turns).parties,
      ∃ schema, visit.request = .write schema ∧ visit.reply?.map Reply.status = some 200) :
    let done := (start repository requests).run (step service id) turns
    done.parties.map Visit.request = requests ∧
    ∃ after record, done.shared.Holds id after ∧ after.schema = some record ∧
      (∃ visit ∈ done.parties, visit.saved? = some record ∧
        ∃ schema, Chooses service original visit.request schema ∧
          record.content = some schema.fields) ∧
      (∀ visit ∈ done.parties, ∀ other, visit.saved? = some other →
        other.version ≤ record.version) ∧
      (original.schema ≠ none ∨ ReadersEarly done.parties →
        ∃ schema, .write schema ∈ requests ∧ record.content = some schema.fields) := by
  intro done
  have hrequests : done.parties.map Visit.request = requests := by
    rw [requests_run, start, List.map_map]
    exact List.map_id requests
  refine ⟨hrequests, ?_⟩
  obtain ⟨writer, hwriter, wanted, hw, -⟩ := hput
  cases progress_run service h requests turns with
  | waiting hr hs hnone =>
      obtain ⟨record, hsaved, -⟩ := (hs writer hwriter).exists_saved hw (hserved writer hwriter)
      have hm : record ∈ saves done.parties := List.mem_filterMap.mpr ⟨writer, hwriter, hsaved⟩
      rw [hnone] at hm
      cases hm
  | @saved after record hr hname hschema hs hrecord hlast =>
      obtain ⟨last, hm, hsaved⟩ := List.mem_filterMap.mp hrecord
      obtain ⟨schema, hchosen, hcontent⟩ := (hs last hm).exists_chosen hsaved
      refine ⟨after, record, hr, hschema, ⟨last, hm, hsaved, schema, hchosen, hcontent⟩,
        fun visit hv other ho => hlast other (List.mem_filterMap.mpr ⟨visit, hv, ho⟩), ?_⟩
      intro hwrites
      have hrequest := List.mem_map_of_mem (f := Visit.request) hm
      rw [request_of_last hm hsaved hlast hchosen hwrites, hrequests] at hrequest
      exact ⟨schema, hrequest, hcontent⟩

def newProject : Project where
  id := "p"
  name := "A"
  slug := "a"
  createdAt := ⟨0, none⟩
  updatedAt := ⟨0, none⟩

def newRepository : Repository :=
  .documents { documents := [("p", newProject.toDocument)] }

theorem newRepository_holds : newRepository.Holds "p" newProject :=
  ⟨rfl, rfl⟩

def wantedSchema : Schema where
  website := { name := "A", colors := .default, pages := [] }
  extra := [("theme", .string "dark")]

def readerAndWriter : List SchemaRequest :=
  [.read (.ofList ["a"]), .write wantedSchema]

/-- The reader comes to its save before the writer does. -/
def readerFirst : List (Nat × Timestamp) :=
  [(0, ⟨1, none⟩), (1, ⟨2, none⟩), (0, ⟨3, none⟩), (1, ⟨4, none⟩)]

theorem schema_of_requests_readerFirst :
    let done := (start newRepository readerAndWriter).run (step ⟨.default⟩ "p") readerFirst
    (∀ visit ∈ done.parties, visit.isServed = true) ∧
      ∃ after record, done.shared.Holds "p" after ∧ after.schema = some record ∧
        ∃ schema, .write schema ∈ readerAndWriter ∧ record.content = some schema.fields := by
  have hserved : ∀ visit ∈ ((start newRepository readerAndWriter).run (step ⟨.default⟩ "p")
      readerFirst).parties, visit.isServed = true := by
    decide +kernel
  have hput : ∃ visit ∈ ((start newRepository readerAndWriter).run (step ⟨.default⟩ "p")
      readerFirst).parties, ∃ schema, visit.request = .write schema ∧
        visit.reply?.map Reply.status = some 200 :=
    ⟨_, List.mem_cons_of_mem _ List.mem_cons_self, wantedSchema, rfl, rfl⟩
  obtain ⟨-, after, record, hr, hschema, -, -, hwriter⟩ :=
    schema_of_requests newRepository_holds readerAndWriter readerFirst hserved hput
  refine ⟨hserved, after, record, hr, hschema, hwriter (.inr ?_)⟩
  intro reader hm ids early hread hearly
  refine ⟨_, List.mem_cons_of_mem _ List.mem_cons_self, wantedSchema, _, rfl, rfl, ?_⟩
  rcases List.mem_cons.mp hm with rfl | hm
  · cases hearly
    decide +kernel
  · rcases List.mem_cons.mp hm with rfl | hm
    · cases hread
    · cases hm

/-- The writer is answered between the two calls of the reader. -/
def readerLast : List (Nat × Timestamp) :=
  [(0, ⟨1, none⟩), (1, ⟨2, none⟩), (1, ⟨3, none⟩), (0, ⟨4, none⟩)]

/-- A writer does not always find its schema, or that of another writer, stored in the end. -/
theorem schema_replaced_by_reader :
    ¬ ∀ (service : Service) (id : String) (repository : Repository) (original : Project)
        (requests : List SchemaRequest) (turns : List (Nat × Timestamp)),
      repository.Holds id original →
      (∀ visit ∈ ((start repository requests).run (step service id) turns).parties,
        visit.isServed = true) →
      (∃ visit ∈ ((start repository requests).run (step service id) turns).parties,
        ∃ schema, visit.request = .write schema ∧ visit.reply?.map Reply.status = some 200) →
      ∃ after record, ((start repository requests).run (step service id) turns).shared.Holds id
          after ∧ after.schema = some record ∧
        ∃ schema, .write schema ∈ requests ∧ record.content = some schema.fields := by
  intro hall
  obtain ⟨after, record, hr, hschema, schema, hm, hcontent⟩ := hall ⟨.default⟩ "p" newRepository
    newProject readerAndWriter readerLast newRepository_holds (by decide +kernel)
    ⟨_, List.mem_cons_of_mem _ List.mem_cons_self, wantedSchema, rfl, rfl⟩
  have hwanted : schema = wantedSchema := by
    simpa [readerAndWriter] using hm
  have hlength : ((((start newRepository readerAndWriter).run (step ⟨.default⟩ "p")
      readerLast).shared.get "p" ⟨5, none⟩).toOption.join.bind (·.schema)).bind
        (fun record => record.content.map List.length) = some 1 := by
    decide +kernel
  rw [Repository.get_of_holds hr] at hlength
  simp [Except.toOption, hschema, hcontent, hwanted, wantedSchema, Schema.fields,
    Json.dumpedFields] at hlength

end Visit

end Sitewright
