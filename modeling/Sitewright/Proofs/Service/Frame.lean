import Sitewright.Proofs.Service.Reporting

/-!
# What a request leaves alone

A request that is refused, or that the service crashes on, leaves the store as it was, unless the
crash comes after the handler is done: an answer that is not whole cannot be sent, and what the
handler has saved for it stays. A request that is served changes at most the record of the project
that it names or creates. Reading changes nothing, but for the first look at the schema of a project
that has none, and neither does generating.
-/

namespace Sitewright.Service

variable {α : Type} {service : Service} {state : State} {now : Timestamp} {request : Request}
  {id : String} {target : Option String} {store : ProjectStore} {edit : Edit} {schema : Schema}

def projectOf? (state : State) (now : Timestamp) (request : Request) : Option String :=
  match route request.method request.path with
  | .ok .createProject => some (ProjectStore.newId now state.ids.next.1)
  | .ok (.readSchema id) => some id
  | .ok (.writeSchema id) => some id
  | .ok (.generateCode id) => some id
  | .ok (.addPage id) => some id
  | .ok (.addSection id _) => some id
  | .ok (.removeSection id _ _) => some id
  | .ok (.updateProps id _ _) => some id
  | _ => none

def ReadsFirst (state : State) (request : Request) : Prop :=
  ∃ id project, route request.method request.path = .ok (.readSchema id) ∧
    state.store.get? id = some project ∧ project.schema = none

/-- The handler succeeds, but its answer has half a pair of surrogates in it and is lost. -/
def LosesAnswer (service : Service) (state : State) (now : Timestamp) (request : Request) : Prop :=
  ∃ status body, status < 400 ∧ (service.reply state now request).2 = .json status body ∧
    body.isWhole = false

/-- An outcome that leaves the store as it was, or one of success after which one record is in the
place of that of the project. -/
inductive Touches (store : ProjectStore) (target : Option String) (outcome : State × Reply) : Prop
  | kept (same : outcome.1.store = store)
  | put {id : String} {project : Project} (about : target = some id)
      (success : outcome.2.status < 400)
      (record : outcome.1.store = { store with projects := Dict.set id project store.projects })

namespace Touches

variable {outcome : State × Reply}

theorem store_of_refused (h : Touches store target outcome) (hs : 400 ≤ outcome.2.status) :
    outcome.1.store = store := by
  cases h with
  | kept same => exact same
  | put about success record => exact absurd hs (Nat.not_le.mpr success)

theorem get?_of_ne (h : Touches store target outcome) (hne : target ≠ some id) :
    outcome.1.store.get? id = store.get? id := by
  cases h with
  | kept same => rw [same]
  | @put touched project about success record =>
      have hid : id ≠ touched := fun he => hne (he ▸ about)
      rw [record, ProjectStore.get?, Dict.get?_set_of_ne hid, ProjectStore.get?]

end Touches

/-! ## The parts of the handlers -/

theorem success_answer {status : Nat} (h : status < 400) (fields : Fields) (state : State) :
    (answer status fields state).2.status < 400 :=
  h

theorem touches_withBody {check : Fields → Checked α} {next : α → State × Reply} (text : String)
    (hn : ∀ body, Touches state.store target (next body)) :
    Touches state.store target (withBody state text check next) := by
  rcases withBody_cases state text check next with ⟨body, -, he⟩ | ⟨issues, -, he⟩ | he
  · exact he ▸ hn body
  · exact .kept (by rw [he])
  · exact .kept (by rw [he])

theorem store_withBody {check : Fields → Checked α} {next : α → State × Reply} (text : String)
    (hn : ∀ body, (next body).1.store = state.store) :
    (withBody state text check next).1.store = state.store := by
  rcases withBody_cases state text check next with ⟨body, -, he⟩ | ⟨issues, -, he⟩ | he
  · rw [he, hn body]
  · rw [he]
  · rw [he]

/-- Saving succeeds if what follows does; the draws may have been used before. -/
theorem touches_save (ids : IdSource) {project : Project}
    (hp : state.store.get? id = some project) (content : Fields)
    {next : SchemaRecord → State → State × Reply}
    (hn : ∀ record state, (next record state).1.store = state.store ∧
      (next record state).2.status < 400) :
    Touches state.store (some id) (save { state with ids } now id content next) := by
  have hp' : ({ state with ids } : State).store.get? id = some project := hp
  rw [save_of_get? content next hp']
  obtain ⟨hstore, hstatus⟩ := hn (SchemaRecord.saved project.schema (some content) now)
    { state with ids, store := saved state.store id project content now }
  exact .put rfl hstatus hstore

theorem touches_perform {record : SchemaRecord} (hs : state.Holds id record schema) :
    Touches state.store (some id) (service.perform state now id edit schema) := by
  obtain ⟨project, hp, -⟩ := Option.bind_eq_some_iff.mp hs.stored
  unfold perform
  cases ha : edit.apply service.registry ⟨schema, state.ids⟩ with
  | error cause => exact .kept rfl
  | ok result =>
      have hstatus : edit.status < 400 := by cases edit <;> simp [Edit.status]
      exact touches_save result.1.ids hp _ fun _ _ => ⟨rfl, hstatus⟩

theorem touches_edit (edit : Edit) :
    Touches state.store (some id) (withSchema state id (service.perform state now id edit)) := by
  rcases withSchema_cases state id (service.perform state now id edit) with
    ⟨record, schema, hs, he⟩ | he | he | ⟨-, he⟩
  · exact he ▸ touches_perform hs
  · exact .kept (by rw [he])
  · exact .kept (by rw [he])
  · exact .kept he

/-! ## Handlers -/

theorem touches_createProject (body : Body.NewProject) :
    Touches state.store (some (ProjectStore.newId now state.ids.next.1))
      (createProject state now body) := by
  -- the entry keeps to names of its own, so no journal refuses it after the project is stored
  have hu (project : Project) : reservedField? (entry .info "Project created" project.id
      [("slug", .string project.slug)]).fields = none := rfl
  simp only [createProject, report_of_unreserved (hu _)]
  exact .put rfl (success_answer (by decide) _ _) rfl

theorem touches_readSchema :
    Touches state.store (some id) (service.readSchema state now id) := by
  unfold readSchema
  cases hp : state.store.get? id with
  | none => exact .kept rfl
  | some project =>
      cases hr : project.schema with
      | some record => exact .kept (by simp only [hr, answer])
      | none =>
          cases hd : service.plan.defaultSchema project.name state.ids with
          | error cause => exact .kept (by simp only [hr, hd])
          | ok result =>
              simp only [hr, hd]
              refine touches_save result.2 hp _ fun _ state => ?_
              have hu : reservedField? (entry .info "Created default schema" id []).fields = none :=
                rfl
              rw [report_of_unreserved hu]
              exact ⟨rfl, success_answer (by decide) _ _⟩

theorem store_readSchema_of_schema {project : Project} {record : SchemaRecord}
    (hp : state.store.get? id = some project) (hr : project.schema = some record) :
    (service.readSchema state now id).1.store = state.store := by
  simp only [readSchema, hp, hr, answer]

theorem touches_writeSchema (schema : Schema) :
    Touches state.store (some id) (writeSchema state now id schema) := by
  unfold writeSchema
  cases hp : state.store.get? id with
  | none => exact .kept rfl
  | some project =>
      exact touches_save state.ids hp _ fun _ _ => ⟨rfl, success_answer (by decide) _ _⟩

/-! ## Routes for reading -/

theorem eq_of_get_mem_ofSegments {segments : List String} {found : Route}
    (h : (Method.get, found) ∈ Route.ofSegments segments) :
    found ∈ [.health, .databaseHealth, .sectionTypes, .listProjects] ∨
      ∃ id, found = .readSchema id := by
  unfold Route.ofSegments at h
  split at h <;> simp_all

theorem get_not_mem_ofSectionSegments (segments : List String) (found : Route) :
    (Method.get, found) ∉ Route.ofSectionSegments segments := by
  unfold Route.ofSectionSegments
  split <;> simp

theorem mem_ofPath_of_route {name path : String} {found : Route}
    (h : route name path = .ok found) :
    ∃ method, Method.ofName? name = some method ∧ (method, found) ∈ Route.ofPath path := by
  unfold route at h
  split at h
  · cases h
  · split at h
    · rename_i hl
      cases h
      obtain ⟨method, hm, hl⟩ := Option.bind_eq_some_iff.mp hl
      obtain ⟨before, after, he, -⟩ := List.lookup_eq_some_iff.mp hl
      exact ⟨method, hm, by rw [he]; simp⟩
    · cases h

theorem eq_of_route_get {path : String} {found : Route} (h : route "GET" path = .ok found) :
    found ∈ [.health, .databaseHealth, .sectionTypes, .listProjects] ∨
      ∃ id, found = .readSchema id := by
  obtain ⟨method, hm, hfound⟩ := mem_ofPath_of_route h
  cases hm
  unfold Route.ofPath Route.find at hfound
  split at hfound
  · cases hfound
  · rcases List.mem_append.mp hfound with hfound | hfound
    · exact absurd hfound (get_not_mem_ofSectionSegments _ _)
    · split at hfound
      · exact eq_of_get_mem_ofSegments hfound
      · cases hfound

/-! ## Requests -/

theorem touches_handle (service : Service) (state : State) (now : Timestamp) (request : Request)
    {found : Route} (h : route request.method request.path = .ok found) :
    Touches state.store (projectOf? state now request)
      (service.handle state now request.body found) := by
  unfold projectOf?
  rw [h]
  cases found with
  | health | databaseHealth | sectionTypes | listProjects => exact .kept rfl
  | createProject => exact touches_withBody _ touches_createProject
  | readSchema id => exact touches_readSchema
  | writeSchema id => exact touches_withBody _ touches_writeSchema
  | generateSchema => exact .kept (store_withBody _ store_generateSchema)
  | generateContent => exact .kept (store_withBody _ fun _ => store_generateContent)
  | generateCode id => exact .kept store_generateCode
  | addPage id =>
      refine touches_withBody _ fun title => ?_
      rw [← @withSchema_addPage service]
      exact touches_edit _
  | addSection id slug =>
      refine touches_withBody _ fun type => ?_
      rw [← withSchema_addSection]
      exact touches_edit _
  | removeSection id slug sectionId =>
      rw [handle, ← @withSchema_removeSection service]
      exact touches_edit _
  | updateProps id slug sectionId =>
      refine touches_withBody _ fun partialProps => ?_
      rw [← @withSchema_updateProps service]
      exact touches_edit _

theorem touches_reply (service : Service) (state : State) (now : Timestamp) (request : Request) :
    Touches state.store (projectOf? state now request) (service.reply state now request) := by
  cases hr : route request.method request.path with
  | error refusal => exact .kept (by simp only [reply, hr])
  | ok found =>
      rw [reply_of_route hr]
      exact touches_handle service state now request hr

theorem store_reply_of_get (h : request.method = "GET") (hr : ¬ ReadsFirst state request) :
    (service.reply state now request).1.store = state.store := by
  cases hroute : route request.method request.path with
  | error refusal => simp only [reply, hroute]
  | ok found =>
      rw [reply_of_route hroute]
      rcases eq_of_route_get (h ▸ hroute) with hm | ⟨id, rfl⟩
      · simp only [List.mem_cons, List.not_mem_nil, or_false] at hm
        rcases hm with rfl | rfl | rfl | rfl <;> rfl
      · rw [handle]
        cases hp : state.store.get? id with
        | none => simp only [readSchema, hp]
        | some project =>
            cases hs : project.schema with
            | none => exact absurd ⟨id, project, hroute, hp, hs⟩ hr
            | some record => exact store_readSchema_of_schema hp hs

theorem reply_of_losesAnswer (h : service.LosesAnswer state now request) :
    (service.serve state now request).2.reply = .crash := by
  obtain ⟨status, body, -, hreply, hw⟩ := h
  simp [serve, hreply, Reply.sent, hw]

theorem exists_json_of_sent_ne {reply : Reply} (h : reply.sent ≠ reply) :
    ∃ status body, reply = .json status body ∧ body.isWhole = false := by
  cases reply with
  | json status body =>
      cases hw : body.isWhole with
      | true => simp [Reply.sent, hw] at h
      | false => exact ⟨status, body, rfl, hw⟩
  | archive | moved | crash => exact absurd rfl h

/-- Unless an answer is lost, the status that is sent is the one that the handler gives. -/
theorem status_reply_of_refused (h : ¬ service.LosesAnswer state now request)
    (hs : 400 ≤ (service.serve state now request).2.reply.status) :
    400 ≤ (service.reply state now request).2.status := by
  by_cases he : (service.reply state now request).2.sent = (service.reply state now request).2
  · rw [← he]
    exact hs
  · obtain ⟨status, body, hreply, hw⟩ := exists_json_of_sent_ne he
    rw [hreply]
    exact Nat.le_of_not_lt fun hl => h ⟨status, body, hl, hreply, hw⟩

/-- A request that is refused or crashed on changes nothing in the store, but for one whose answer is
lost when it is sent. Any other one changes at most the record of the project that it names or
creates; reading, apart from the first look at a missing schema, and generating change none. -/
theorem serve_touches_one_project (service : Service) (state : State) (now : Timestamp)
    (request : Request) :
    let after := service.serve state now request
    (400 ≤ after.2.reply.status →
      after.1.store = state.store ∨
        service.LosesAnswer state now request ∧ after.2.reply = .crash) ∧
    (400 ≤ (service.reply state now request).2.status → after.1.store = state.store) ∧
    (∀ id, projectOf? state now request ≠ some id →
      after.1.store.get? id = state.store.get? id) ∧
    (request.method = "GET" → ¬ ReadsFirst state request → after.1.store = state.store) ∧
    ∀ found, route request.method request.path = .ok found →
      found = .generateSchema ∨ found = .generateContent ∨ (∃ id, found = .generateCode id) →
        after.1.store = state.store := by
  intro after
  have htouches := touches_reply service state now request
  refine ⟨?_, htouches.store_of_refused, fun id => htouches.get?_of_ne, store_reply_of_get, ?_⟩
  · intro hrefused
    by_cases hl : service.LosesAnswer state now request
    · exact Or.inr ⟨hl, reply_of_losesAnswer hl⟩
    · exact Or.inl (htouches.store_of_refused (status_reply_of_refused hl hrefused))
  · intro found hroute hgenerates
    have hreply : after.1.store = (service.handle state now request.body found).1.store :=
      congrArg (·.1.store) (reply_of_route hroute)
    rw [hreply]
    rcases hgenerates with rfl | rfl | ⟨id, rfl⟩
    · exact store_withBody _ store_generateSchema
    · exact store_withBody _ fun _ => store_generateContent
    · exact store_generateCode

/-- The schema of a new project is replaced, and the answer is lost. -/
theorem halvedSchema_saved_unanswered :
    let after := Service.serve ⟨.default⟩ newProjectState { micros := 2 } halvedSchema
    let version (state : State) :=
      ((state.store.get? "prj_19700101000000_a").bind (·.schema)).map (·.version)
    after.2.reply.status = 500 ∧ version newProjectState = some 1 ∧
      version after.1 = some 2 := by
  decide +kernel

/-- Requests that are all refused, and none of them by a crash, leave the store as it was, however
many they are. -/
theorem store_run_of_refused (service : Service) (state : State)
    (requests : List (Timestamp × Request))
    (h : ∀ response ∈ (service.run state requests).2,
      400 ≤ response.reply.status ∧ response.reply ≠ .crash) :
    (service.run state requests).1.store = state.store := by
  induction requests generalizing state with
  | nil => rfl
  | cons entry requests ih =>
      obtain ⟨now, request⟩ := entry
      rw [run] at h ⊢
      obtain ⟨hrefused, hn⟩ := h _ List.mem_cons_self
      have hrest := ih _ fun response hm => h response (List.mem_cons_of_mem _ hm)
      have hl : ¬ service.LosesAnswer state now request := fun hl => hn (reply_of_losesAnswer hl)
      have hfirst := (touches_reply service state now request).store_of_refused
        (status_reply_of_refused hl hrefused)
      exact hrest.trans hfirst

end Sitewright.Service
