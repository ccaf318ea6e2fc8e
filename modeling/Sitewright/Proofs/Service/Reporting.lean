import Sitewright.Proofs.Service.Sound

/-!
# What reporting changes

All entries that the service reports keep to field names of their own, but for the one that
announces an archive: it uses a reserved name. So whatever the journal hears, the service stores the
same and draws the same ids as one whose journal is silent, and gives the same answers, except that
a journal that hears what is informative turns every archive into a crash.
-/

namespace Sitewright

/-! ## Journals -/

namespace Journal

def silent : Journal where
  enabled := false

end Journal

def Reply.under (journal : Journal) : Reply → Reply
  | .archive made => if journal.hears .info then .crash else .archive made
  | reply => reply

/-- What becomes of a response when the service reports to a journal; a crash carries no id. -/
def Response.under (journal : Journal) (response : Response) : Response :=
  match response.reply with
  | .archive _ => if journal.hears .info then ⟨.crash, none⟩ else response
  | _ => response

def Response.isArchive (response : Response) : Bool :=
  match response.reply with
  | .archive _ => true
  | _ => false

theorem Response.isArchive_of_reply {response : Response} {archive : Archive}
    (h : response.reply = .archive archive) : response.isArchive = true := by
  rw [isArchive, h]

theorem Response.isArchive_under {journal : Journal} (h : journal.hears .info = true)
    (response : Response) : (response.under journal).isArchive = false := by
  obtain ⟨reply, id⟩ := response
  cases reply <;> simp [under, isArchive, h]

namespace Service

variable {α : Type} {service : Service} {journal : Journal} {loud quiet : State}
  {now : Timestamp} {id : String}

/-! ## Two services side by side -/

/-- Two states that differ in their journals alone: the one hears what `journal` hears, and the
other one nothing. -/
structure State.Matches (journal : Journal) (loud quiet : State) : Prop where
  store : loud.store = quiet.store
  ids : loud.ids = quiet.ids
  hears : ∀ level, loud.journal.hears level = journal.hears level
  silent : ∀ level, quiet.journal.hears level = false

/-- Two outcomes whose states match and of whose replies the one is the other under the journal. -/
structure Matches (journal : Journal) (loud quiet : State × Reply) : Prop where
  state : loud.1.Matches journal quiet.1
  reply : loud.2 = quiet.2.under journal

theorem matches_reply (h : loud.Matches journal quiet) {reply : Reply}
    (hr : reply.under journal = reply) : Matches journal (loud, reply) (quiet, reply) :=
  ⟨h, hr.symm⟩

theorem matches_answer (h : loud.Matches journal quiet) (status : Nat) (fields : Fields) :
    Matches journal (answer status fields loud) (answer status fields quiet) :=
  matches_reply h rfl

theorem under_ofError (cause : SiteError) :
    (Reply.ofError cause).under journal = .ofError cause := by
  cases cause <;> rfl

theorem matches_ofError (h : loud.Matches journal quiet) (cause : SiteError) :
    Matches journal (loud, .ofError cause) (quiet, .ofError cause) :=
  matches_reply h (under_ofError cause)

theorem State.Matches.noting (h : loud.Matches journal quiet) (entry : Entry) :
    State.Matches journal { loud with journal := loud.journal.noting entry }
      { quiet with journal := quiet.journal.noting entry } where
  store := h.store
  ids := h.ids
  hears level := (Journal.hears_noting _ entry level).trans (h.hears level)
  silent level := (Journal.hears_noting _ entry level).trans (h.silent level)

theorem matches_report {entry : Entry} {next next' : State → State × Reply}
    (hu : reservedField? entry.fields = none) (h : loud.Matches journal quiet)
    (hn : ∀ loud quiet : State, loud.Matches journal quiet →
      Matches journal (next loud) (next' quiet)) :
    Matches journal (loud.report entry next) (quiet.report entry next') := by
  rw [report_of_unreserved hu, report_of_unreserved hu]
  exact hn _ _ (h.noting entry)

theorem State.Matches.withIds (h : loud.Matches journal quiet) (ids : IdSource) :
    State.Matches journal { loud with ids } { quiet with ids } :=
  ⟨h.store, rfl, h.hears, h.silent⟩

theorem State.Matches.withStore (h : loud.Matches journal quiet) (store : ProjectStore) :
    State.Matches journal { loud with store } { quiet with store } :=
  ⟨rfl, h.ids, h.hears, h.silent⟩

/-! ## The parts of the handlers -/

theorem matches_withBody (h : loud.Matches journal quiet) {check : Fields → Checked α}
    {next next' : α → State × Reply} (text : String)
    (hn : ∀ body, Matches journal (next body) (next' body)) :
    Matches journal (withBody loud text check next) (withBody quiet text check next') := by
  unfold withBody
  cases Body.read check text with
  | ok body => exact hn body
  | error refusal => cases refusal <;> exact matches_reply h rfl

theorem matches_withSchema (h : loud.Matches journal quiet) {next next' : Schema → State × Reply}
    (hn : ∀ schema, Matches journal (next schema) (next' schema)) :
    Matches journal (withSchema loud id next) (withSchema quiet id next') := by
  unfold withSchema
  rw [h.store]
  cases quiet.store.get? id with
  | none => exact matches_reply h rfl
  | some project =>
      cases hc : project.schema.bind (·.content) with
      | none =>
          simp only [hc]
          exact matches_reply h rfl
      | some content =>
          cases hs : Schema.ofJson (.object content) with
          | ok schema =>
              simp only [hc, hs]
              exact hn schema
          | error issues =>
              simp only [hc, hs]
              have hu : reservedField? (entry .error "Stored schema is invalid" id
                  [("errors", .int issues.length)]).fields = none := rfl
              exact matches_report hu h fun _ _ h => matches_reply h rfl

theorem matches_save (h : loud.Matches journal quiet) {content : Fields}
    {next next' : SchemaRecord → State → State × Reply}
    (hn : ∀ record (loud quiet : State), loud.Matches journal quiet →
      Matches journal (next record loud) (next' record quiet)) :
    Matches journal (save loud now id content next) (save quiet now id content next') := by
  unfold save
  rw [h.store]
  cases quiet.store.save id (some content) now with
  | error cause => exact matches_ofError h cause
  | ok result =>
      obtain ⟨project, store⟩ := result
      cases hr : project.schema with
      | none =>
          simp only [hr]
          exact matches_reply (h.withStore store) rfl
      | some record =>
          simp only [hr]
          exact hn record _ _ (h.withStore store)

theorem matches_saveAndAnswer (h : loud.Matches journal quiet) (schema : Schema) (status : Nat)
    (fields : Fields) :
    Matches journal (saveAndAnswer loud now id schema status fields)
      (saveAndAnswer quiet now id schema status fields) :=
  matches_save h fun _ _ _ h => matches_answer h _ _

/-! ## Handlers -/

theorem matches_createProject (h : loud.Matches journal quiet) (body : Body.NewProject) :
    Matches journal (createProject loud now body) (createProject quiet now body) := by
  unfold createProject
  rw [h.store, h.ids]
  obtain ⟨project, store, ids⟩ := quiet.store.create body.name body.brief now quiet.ids
  have hu : reservedField? (entry .info "Project created" project.id
      [("slug", .string project.slug)]).fields = none := rfl
  exact matches_report hu ((h.withStore store).withIds ids) fun _ _ h => matches_answer h _ _

theorem matches_readSchema (h : loud.Matches journal quiet) :
    Matches journal (service.readSchema loud now id) (service.readSchema quiet now id) := by
  unfold readSchema
  rw [h.store, h.ids]
  cases quiet.store.get? id with
  | none => exact matches_reply h rfl
  | some project =>
      cases hr : project.schema with
      | some record =>
          simp only [hr]
          exact matches_answer h _ _
      | none =>
          cases hd : service.plan.defaultSchema project.name quiet.ids with
          | error cause =>
              simp only [hr, hd]
              exact matches_ofError h cause
          | ok result =>
              simp only [hr, hd]
              have hi := (h.withStore quiet.store).withIds result.2
              refine matches_save hi fun record loud quiet h => ?_
              have hu : reservedField? (entry .info "Created default schema" id []).fields = none :=
                rfl
              exact matches_report hu h fun _ _ h => matches_answer h _ _

theorem matches_writeSchema (h : loud.Matches journal quiet) (schema : Schema) :
    Matches journal (writeSchema loud now id schema) (writeSchema quiet now id schema) := by
  unfold writeSchema
  rw [h.store]
  cases quiet.store.get? id with
  | none => exact matches_reply h rfl
  | some project => exact matches_saveAndAnswer h schema _ _

theorem matches_perform (h : loud.Matches journal quiet) (edit : Edit) (schema : Schema) :
    Matches journal (service.perform loud now id edit schema)
      (service.perform quiet now id edit schema) := by
  unfold perform
  rw [h.ids]
  cases edit.apply service.registry ⟨schema, quiet.ids⟩ with
  | error cause => exact matches_ofError h cause
  | ok result => exact matches_saveAndAnswer (h.withIds result.1.ids) _ _ _

theorem matches_edit (h : loud.Matches journal quiet) (edit : Edit) :
    Matches journal (withSchema loud id (service.perform loud now id edit))
      (withSchema quiet id (service.perform quiet now id edit)) :=
  matches_withSchema h (matches_perform h edit)

theorem matches_generateSchema (h : loud.Matches journal quiet) (brief : Brief) :
    Matches journal (service.generateSchema loud brief) (service.generateSchema quiet brief) := by
  unfold generateSchema
  rw [h.ids]
  split
  · exact matches_reply h rfl
  · cases service.plan.synthesize brief quiet.ids with
    | error cause => exact matches_ofError h cause
    | ok result =>
        have hu : reservedField? (service.plan.report brief).fields = none := rfl
        exact matches_report hu (h.withIds result.2) fun _ _ h => matches_answer h _ _

theorem matches_generateContent (h : loud.Matches journal quiet) (schema : Schema) :
    Matches journal (service.generateContent loud schema)
      (service.generateContent quiet schema) := by
  unfold generateContent
  cases service.registry.enrich schema with
  | error cause => exact matches_ofError h cause
  | ok enriched =>
      have hu : reservedField? schema.enrichmentReport.fields = none := rfl
      exact matches_report hu h fun _ _ h => matches_answer h _ _

theorem matches_generationFailed (h : loud.Matches journal quiet) :
    Matches journal (generationFailed loud id) (generationFailed quiet id) := by
  have hu : reservedField? (entry .error "Failed to generate project code" id []).fields = none :=
    rfl
  exact matches_report hu h fun _ _ h => matches_reply h rfl

/-- The entry that announces an archive uses a reserved name, so a journal that hears it refuses
it. -/
theorem matches_announced (h : loud.Matches journal quiet) (archive : Archive) :
    let announcement :=
      entry .info "Project archive ready" id [("filename", .string archive.filename)]
    Matches journal (loud.report announcement fun state => (state, .archive archive))
      (quiet.report announcement fun state => (state, .archive archive)) := by
  intro announcement
  have hreserved : reservedField? announcement.fields = some "filename" := rfl
  have hquiet : quiet.report announcement (fun state => (state, .archive archive)) =
      (quiet, .archive archive) := by
    simp only [State.report, Journal.add, h.silent, Bool.false_eq_true, if_false]
  rw [hquiet]
  have hinfo : loud.journal.hears announcement.level = journal.hears .info := h.hears .info
  cases hj : journal.hears .info with
  | false =>
      have hloud : loud.report announcement (fun state => (state, .archive archive)) =
          (loud, .archive archive) := by
        simp only [State.report, Journal.add, hinfo, hj, Bool.false_eq_true, if_false]
      rw [hloud]
      exact ⟨h, by simp [Reply.under, hj]⟩
  | true =>
      have hloud : loud.report announcement (fun state => (state, .archive archive)) =
          (loud, .crash) := by
        simp only [State.report, Journal.add, hinfo, hj, if_true, hreserved]
      rw [hloud]
      exact ⟨h, by simp [Reply.under, hj]⟩

theorem matches_generateCode (h : loud.Matches journal quiet) :
    Matches journal (service.generateCode loud id) (service.generateCode quiet id) := by
  unfold generateCode
  rw [h.store]
  cases (quiet.store.get? id).bind (·.schema) with
  | none => exact matches_reply h rfl
  | some record =>
      cases hc : record.content with
      | none =>
          simp only [hc]
          exact matches_reply h rfl
      | some content =>
          cases hs : Schema.ofJson (.object content) with
          | error issues =>
              simp only [hc, hs]
              exact matches_generationFailed h
          | ok schema =>
              cases hg : service.registry.generate schema with
              | error cause =>
                  simp only [hc, hs, hg]
                  exact matches_generationFailed h
              | ok files =>
                  simp only [hc, hs, hg]
                  have hu : reservedField? (schema.generationReport files).fields = none := rfl
                  refine matches_report hu h fun loud quiet h => ?_
                  cases (Archive.package? schema files).bind Archive.written? with
                  | none => exact matches_generationFailed h
                  | some archive => exact matches_announced h archive

/-! ## Requests and runs -/

theorem matches_handle (h : loud.Matches journal quiet) (body : String) (target : Route) :
    Matches journal (service.handle loud now body target)
      (service.handle quiet now body target) := by
  cases target with
  | health | sectionTypes => exact matches_reply h rfl
  | databaseHealth =>
      rw [handle, handle, databaseHealth, databaseHealth, h.store]
      exact matches_reply h rfl
  | listProjects =>
      rw [handle, handle, listProjects, listProjects, h.store]
      exact matches_reply h rfl
  | createProject => exact matches_withBody h body (matches_createProject h)
  | readSchema id => exact matches_readSchema h
  | writeSchema id => exact matches_withBody h body (matches_writeSchema h)
  | generateSchema => exact matches_withBody h body (matches_generateSchema h)
  | generateContent => exact matches_withBody h body (matches_generateContent h)
  | generateCode id =>
      rw [handle, handle]
      exact matches_generateCode h
  | addPage id =>
      rw [handle, handle]
      refine matches_withBody h body fun title => ?_
      rw [← @withSchema_addPage service, ← @withSchema_addPage service]
      exact matches_edit h (.addPage title)
  | addSection id slug =>
      rw [handle, handle]
      refine matches_withBody h body fun type => ?_
      rw [← withSchema_addSection, ← withSchema_addSection]
      exact matches_edit h (.addSection slug (.string type))
  | removeSection id slug sectionId =>
      rw [handle, handle, ← @withSchema_removeSection service, ← @withSchema_removeSection service]
      exact matches_edit h (.removeSection slug sectionId)
  | updateProps id slug sectionId =>
      rw [handle, handle]
      refine matches_withBody h body fun partialProps => ?_
      rw [← @withSchema_updateProps service, ← @withSchema_updateProps service]
      exact matches_edit h (.updateProps slug sectionId partialProps)

theorem under_of_route {method path : String} {reply : Reply}
    (h : route method path = .error reply) : reply.under journal = reply := by
  unfold route at h
  split at h
  · split at h <;> cases h <;> rfl
  · split at h
    · cases h
    · cases h
      rfl

theorem matches_served (service : Service) (now : Timestamp) (h : loud.Matches journal quiet)
    (request : Request) :
    Matches journal (service.reply loud now request) (service.reply quiet now request) := by
  unfold reply
  cases hr : route request.method request.path with
  | error reply => exact matches_reply h (under_of_route hr)
  | ok target => exact matches_handle h request.body target

theorem sent_under (reply : Reply) : (reply.under journal).sent = reply.sent.under journal := by
  cases reply with
  | json status body =>
      simp only [Reply.under, Reply.sent]
      split <;> rfl
  | archive archive => cases hj : journal.hears .info <;> simp [Reply.under, Reply.sent, hj]
  | moved | crash => rfl

theorem under_response (request : Request) (reply : Reply) :
    Response.mk (reply.under journal) (answeredId request (reply.under journal)) =
      (Response.mk reply (answeredId request reply)).under journal := by
  cases reply with
  | archive archive =>
      cases hj : journal.hears .info <;> simp [Reply.under, Response.under, answeredId, hj]
  | json | moved | crash => rfl

theorem matches_serve (service : Service) (now : Timestamp) (h : loud.Matches journal quiet)
    (request : Request) :
    (service.serve loud now request).1.Matches journal (service.serve quiet now request).1 ∧
      (service.serve loud now request).2 = (service.serve quiet now request).2.under journal := by
  obtain ⟨hstate, hreply⟩ := matches_served service now h request
  refine ⟨hstate, ?_⟩
  simp only [serve]
  rw [hreply, sent_under, under_response]

theorem matches_run (service : Service) (h : loud.Matches journal quiet)
    (requests : List (Timestamp × Request)) :
    (service.run loud requests).1.Matches journal (service.run quiet requests).1 ∧
      (service.run loud requests).2 = (service.run quiet requests).2.map (·.under journal) := by
  induction requests generalizing loud quiet with
  | nil => exact ⟨h, rfl⟩
  | cons entry requests ih =>
      obtain ⟨now, request⟩ := entry
      obtain ⟨hstate, hresponse⟩ := matches_serve service now h request
      obtain ⟨hlast, hresponses⟩ := ih hstate
      simp only [run, List.map_cons]
      exact ⟨hlast, by rw [hresponse, hresponses]⟩

theorem matches_empty (journal : Journal) (ids : IdSource) :
    (State.empty ids journal).Matches journal (State.empty ids .silent) :=
  ⟨rfl, rfl, fun _ => rfl, fun _ => rfl⟩

/-- Whatever its journal hears, the service stores what it would store unheard, and it gives the
same answers but for the archives, which a journal that hears what is informative makes crashes. -/
theorem run_under_journal (service : Service) (ids : IdSource) (journal : Journal)
    (requests : List (Timestamp × Request)) :
    let loud := service.run (State.empty ids journal) requests
    let quiet := service.run (State.empty ids .silent) requests
    loud.1.store = quiet.1.store ∧ loud.1.ids = quiet.1.ids ∧
      loud.2 = quiet.2.map (·.under journal) := by
  intro loud quiet
  obtain ⟨hstate, hresponses⟩ := matches_run service (matches_empty journal ids) requests
  exact ⟨hstate.store, hstate.ids, hresponses⟩

/-- A project is created, its default schema is stored, and its code is asked for. -/
def exportRequests : List (Timestamp × Request) :=
  [({ micros := 0 },
    { method := "POST", path := "/api/projects", body := "\x7b\"name\": \"A\"\x7d" }),
   ({ micros := 1 }, { method := "GET", path := "/api/projects/prj_19700101000000_a/schema" }),
   ({ micros := 2 },
    { method := "POST", path := "/api/projects/prj_19700101000000_a/generate/code",
      id := some "r1" })]

/-- A silent journal lets the archive through. -/
theorem any_isArchive_exportRequests :
    (Service.run ⟨.default⟩ (State.empty (.ofList ["a", "b"]) .silent) exportRequests).2.any
      (·.isArchive) = true := by
  let start := State.empty (.ofList ["a", "b"]) .silent
  let before := exportRequests.take 2
  let state := (Service.run ⟨.default⟩ start before).1
  let request : Request := { codeRequest with id := some "r1" }
  have hwhole : (((state.store.get? "prj_19700101000000_a").bind (·.schema)).bind
      (·.content)).any (fun content => (Json.object content).isWhole) = true := by
    decide +kernel
  have hquiet : state.journal.hears .info = false := by decide +kernel
  have hroute : route request.method request.path = .ok (.generateCode "prj_19700101000000_a") :=
    route_codeRequest
  obtain ⟨record, content, hr, hc, hw⟩ := exists_content_of_any hwhole
  have hs := stored_run (maintains_tidy ⟨.default⟩) (.ofList ["a", "b"]) .silent before
  obtain ⟨schema, files, -, hstored, -, hreply⟩ :=
    serve_generateCode_of_stored (maintains_tidy ⟨.default⟩) Registry.renders_default hs hquiet
      { micros := 2 } hroute hr
  cases hc.symm.trans hstored
  rw [Schema.toJson, if_pos hw] at hreply
  have hrequests : exportRequests = before ++ [({ micros := 2 }, request)] := rfl
  have hlast := getElem?_run ⟨.default⟩ start before [] { micros := 2 } request
  rw [hrequests, List.any_eq_true]
  exact ⟨_, List.mem_of_getElem? hlast, Response.isArchive_of_reply hreply⟩

/-- A journal that hears everything loses the archive that a silent one lets through. -/
theorem run_exportRequests_ne_silent :
    (Service.run ⟨.default⟩ (State.empty (.ofList ["a", "b"]) { enabled := true })
        exportRequests).2 ≠
      (Service.run ⟨.default⟩ (State.empty (.ofList ["a", "b"]) .silent) exportRequests).2 := by
  have hunder := (matches_run ⟨.default⟩
    (matches_empty { enabled := true } (.ofList ["a", "b"])) exportRequests).2
  have hgiven := any_isArchive_exportRequests
  intro h
  rw [← h, hunder, List.any_map, List.any_eq_true] at hgiven
  obtain ⟨response, -, harchive⟩ := hgiven
  have hhears : Journal.hears { enabled := true } .info = true := by decide
  exact Bool.eq_false_iff.mp (response.isArchive_under hhears) harchive

end Service

end Sitewright
