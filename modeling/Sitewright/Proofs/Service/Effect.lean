import Sitewright.Proofs.Checked
import Sitewright.Proofs.Dictionary
import Sitewright.Proofs.Editor.Edits
import Sitewright.Service.Run

/-!
# What a request does to the store

A request leaves the store as it is, puts a new project into it or saves one schema of a project
that is there. The schema is the default one, that of the body, or the outcome of an edit of the
stored one. The four requests that edit all run through `Service.perform`.
-/

namespace Sitewright

def Edit.status : Edit → Nat
  | .addPage _ => 201
  | .addSection _ _ => 201
  | _ => 200

namespace Journal

def noting (journal : Journal) (entry : Entry) : Journal :=
  if journal.hears entry.level then { journal with entries := journal.entries ++ [entry] }
  else journal

theorem hears_noting (journal : Journal) (entry : Entry) (level : Level) :
    (journal.noting entry).hears level = journal.hears level := by
  unfold noting
  split <;> rfl

theorem add_of_unreserved {entry : Entry} (h : reservedField? entry.fields = none)
    (journal : Journal) : journal.add entry = .ok (journal.noting entry) := by
  unfold add noting
  rw [h]
  split <;> rfl

end Journal

namespace Service

variable {α : Type} {service : Service} {state : State} {now : Timestamp} {request : Request}
  {id : String} {edit : Edit} {schema : Schema}

/-- The edit that a request with a valid body asks for, and the project it is for. -/
def editOf? (request : Request) : Option (String × Edit) :=
  match route request.method request.path with
  | .ok (.addPage id) =>
      (Body.read Body.pageTitle request.body).toOption.map fun title => (id, .addPage title)
  | .ok (.addSection id slug) =>
      (Body.read Body.sectionType request.body).toOption.map fun type =>
        (id, .addSection slug (.string type))
  | .ok (.removeSection id slug sectionId) => some (id, .removeSection slug sectionId)
  | .ok (.updateProps id slug sectionId) =>
      (Body.read Body.partialProps request.body).toOption.map fun partialProps =>
        (id, .updateProps slug sectionId partialProps)
  | _ => none

/-- The schema that a request with a valid body puts in the place of that of a project. -/
def replacementOf? (request : Request) : Option (String × Schema) :=
  match route request.method request.path with
  | .ok (.writeSchema id) =>
      (Body.read Body.schema request.body).toOption.map fun schema => (id, schema)
  | _ => none

def creationOf? (request : Request) : Option Body.NewProject :=
  match route request.method request.path with
  | .ok .createProject => (Body.read Body.newProject request.body).toOption
  | _ => none

def madeFields : Option Section → Fields
  | some made => [("section", made.toJson)]
  | none => []

def perform (service : Service) (state : State) (now : Timestamp) (id : String) (edit : Edit)
    (schema : Schema) : State × Reply :=
  match edit.apply service.registry ⟨schema, state.ids⟩ with
  | .error cause => (state, .ofError cause)
  | .ok (next, made) =>
      saveAndAnswer { state with ids := next.ids } now id next.schema edit.status (madeFields made)

structure State.Holds (state : State) (id : String) (record : SchemaRecord) (schema : Schema) :
    Prop where
  stored : (state.store.get? id).bind (·.schema) = some record
  valid : ∃ content, record.content = some content ∧ Schema.ofJson (.object content) = .ok schema

theorem State.Holds.unique {record other : SchemaRecord} {schema found : Schema}
    (h : state.Holds id record schema) (ho : state.Holds id other found) : found = schema := by
  cases h.stored.symm.trans ho.stored
  obtain ⟨content, hc, hs⟩ := h.valid
  obtain ⟨read, hr, hf⟩ := ho.valid
  cases hc.symm.trans hr
  cases hs.symm.trans hf
  rfl

/-! ## The parts of the handlers -/

theorem report_cases (state : State) (entry : Entry) (next : State → State × Reply) :
    (∃ journal, state.journal.add entry = .ok journal ∧
      state.report entry next = next { state with journal }) ∨
    state.report entry next = (state, .crash) := by
  unfold State.report
  cases ha : state.journal.add entry with
  | error name => exact Or.inr rfl
  | ok journal => exact Or.inl ⟨journal, rfl, rfl⟩

theorem report_of_unreserved {entry : Entry} (h : reservedField? entry.fields = none)
    (state : State) (next : State → State × Reply) :
    state.report entry next = next { state with journal := state.journal.noting entry } := by
  simp only [State.report, Journal.add_of_unreserved h]

theorem withBody_cases (state : State) (text : String) (check : Fields → Checked α)
    (next : α → State × Reply) :
    (∃ body, Body.read check text = .ok body ∧ withBody state text check next = next body) ∨
    (∃ issues, Body.read check text = .error (.invalid issues) ∧
      withBody state text check next = (state, .invalidBody issues)) ∨
    withBody state text check next = (state, .unreadableBody) := by
  unfold withBody
  cases hr : Body.read check text with
  | ok body => exact Or.inl ⟨body, rfl, rfl⟩
  | error refusal =>
      cases refusal with
      | unreadable => exact Or.inr (Or.inr rfl)
      | invalid issues => exact Or.inr (Or.inl ⟨issues, rfl, rfl⟩)

theorem withBody_of_read {text : String} {check : Fields → Checked α}
    {next : α → State × Reply} {body : α} (h : Body.read check text = .ok body) :
    withBody state text check next = next body := by
  simp only [withBody, h]

theorem withSchema_of_holds {record : SchemaRecord} {next : Schema → State × Reply}
    (h : state.Holds id record schema) : withSchema state id next = next schema := by
  obtain ⟨content, hc, hs⟩ := h.valid
  obtain ⟨project, hp, hr⟩ := Option.bind_eq_some_iff.mp h.stored
  simp only [withSchema, hp, hr, Option.bind_some, hc, hs]

theorem withSchema_cases (state : State) (id : String) (next : Schema → State × Reply) :
    (∃ record schema, state.Holds id record schema ∧ withSchema state id next = next schema) ∨
    withSchema state id next = (state, .projectMissing) ∨
    withSchema state id next = (state, .schemaMissing) ∨
    (∃ record content issues, (state.store.get? id).bind (·.schema) = some record ∧
      record.content = some content ∧ Schema.ofJson (.object content) = .error issues) ∧
      (withSchema state id next).1.store = state.store := by
  cases hp : state.store.get? id with
  | none =>
      have he : withSchema state id next = (state, .projectMissing) := by simp only [withSchema, hp]
      exact Or.inr (Or.inl he)
  | some project =>
      cases hc : project.schema.bind (·.content) with
      | none =>
          have he : withSchema state id next = (state, .schemaMissing) := by
            simp only [withSchema, hp, hc]
          exact Or.inr (Or.inr (Or.inl he))
      | some content =>
          obtain ⟨record, hr, hcontent⟩ := Option.bind_eq_some_iff.mp hc
          have hrecord : (state.store.get? id).bind (·.schema) = some record := by
            rw [hp, Option.bind_some, hr]
          rw [hp] at hrecord
          cases hs : Schema.ofJson (.object content) with
          | ok schema =>
              have he : withSchema state id next = next schema := by
                simp only [withSchema, hp, hc, hs]
              exact Or.inl ⟨record, schema, ⟨by rw [hp]; exact hrecord, content, hcontent, hs⟩, he⟩
          | error issues =>
              refine Or.inr (Or.inr (Or.inr ⟨⟨record, content, issues, hrecord, hcontent, hs⟩, ?_⟩))
              simp only [withSchema, hp, hc, hs]
              rcases report_cases state
                  (entry .error "Stored schema is invalid" id [("errors", .int issues.length)])
                  fun state => (state, .schemaInvalid) with ⟨journal, -, he⟩ | he <;> rw [he]

def saved (store : ProjectStore) (id : String) (project : Project) (content : Fields)
    (now : Timestamp) : ProjectStore :=
  { store with projects := Dict.set id (project.save (some content) now) store.projects }

theorem save_of_get? {project : Project} (content : Fields)
    (next : SchemaRecord → State → State × Reply) (h : state.store.get? id = some project) :
    save state now id content next =
      next (SchemaRecord.saved project.schema (some content) now)
        { state with store := saved state.store id project content now } := by
  simp only [save, ProjectStore.save, h, Project.save, saved]

/-! ## Edits -/

theorem withSchema_addPage (title : String) :
    withSchema state id (service.perform state now id (.addPage title)) =
      addPage state now id title := by
  rw [addPage]
  apply congrArg
  funext schema
  rw [perform, Edit.apply_addPage]
  dsimp only
  cases schema.addPage title <;> rfl

theorem withSchema_addSection (slug type : String) :
    withSchema state id (service.perform state now id (.addSection slug (.string type))) =
      service.addSection state now id slug type := by
  rw [addSection]
  apply congrArg
  funext schema
  rw [perform, Edit.apply_addSection]
  dsimp only
  cases schema.addSection service.registry slug (.string type) state.ids <;> rfl

theorem withSchema_removeSection (slug sectionId : String) :
    withSchema state id (service.perform state now id (.removeSection slug sectionId)) =
      removeSection state now id slug sectionId := by
  rw [removeSection]
  apply congrArg
  funext schema
  rw [perform, Edit.apply_removeSection]
  dsimp only
  cases schema.removeSection slug sectionId <;> rfl

theorem withSchema_updateProps (slug sectionId : String) (partialProps : Fields) :
    withSchema state id (service.perform state now id (.updateProps slug sectionId partialProps)) =
      updateProps state now id slug sectionId partialProps := by
  rw [updateProps]
  apply congrArg
  funext schema
  rw [perform, Edit.apply_updateProps]
  dsimp only
  cases schema.updateProps slug sectionId partialProps <;> rfl

/-- A valid body is the text of an object that passes its check. -/
theorem object_of_read {check : Fields → Checked α} {text : String} {body : α}
    (h : Body.read check text = .ok body) :
    ∃ chars fields, Json.ofChars chars = .ok (.object fields) ∧ check fields = .ok body := by
  have refused_eq_ok {x : Checked α} (hx : Body.refused x = .ok body) : x = .ok body := by
    cases x with
    | ok value =>
        cases hx
        rfl
    | error issues => cases hx
  unfold Body.read at h
  by_cases he : text.isEmpty
  · rw [if_pos he] at h
    cases h
  · rw [if_neg he] at h
    cases hc : Text.recode? text.toList with
    | none => simp [hc] at h
    | some chars =>
        cases hj : Json.ofChars chars with
        | error flaw =>
            cases flaw with
            | fault position =>
                simp only [hc, hj] at h
                cases h
            | longInteger => simp [hc, hj] at h
        | ok value =>
            simp only [hc, hj] at h
            obtain ⟨fields, rfl, hf⟩ := Checked.record_eq_ok_iff.mp (refused_eq_ok h)
            exact ⟨chars, fields, hj, hf⟩

theorem read_of_toOption_map {β : Type} {check : Fields → Checked α} {text : String} {f : α → β}
    {b : β} (h : (Body.read check text).toOption.map f = some b) :
    ∃ body, Body.read check text = .ok body ∧ f body = b := by
  cases hr : Body.read check text with
  | error refusal => simp [hr, Except.toOption] at h
  | ok body => exact ⟨body, rfl, by simpa [hr, Except.toOption] using h⟩

theorem reply_of_route {target : Route} (h : route request.method request.path = .ok target) :
    service.reply state now request = service.handle state now request.body target := by
  simp only [reply, h]

theorem reply_of_editOf? (h : editOf? request = some (id, edit)) :
    service.reply state now request =
      withSchema state id (service.perform state now id edit) := by
  unfold editOf? at h
  cases hr : route request.method request.path with
  | error reply => simp [hr] at h
  | ok target =>
      rw [reply_of_route hr]
      rw [hr] at h
      cases target with
      | addPage project =>
          obtain ⟨title, hb, he⟩ := read_of_toOption_map h
          cases he
          rw [withSchema_addPage, handle, withBody_of_read hb]
      | addSection project slug =>
          obtain ⟨type, hb, he⟩ := read_of_toOption_map h
          cases he
          rw [withSchema_addSection, handle, withBody_of_read hb]
      | removeSection project slug sectionId =>
          cases h
          rw [withSchema_removeSection, handle]
      | updateProps project slug sectionId =>
          obtain ⟨partialProps, hb, he⟩ := read_of_toOption_map h
          cases he
          rw [withSchema_updateProps, handle, withBody_of_read hb]
      | _ => cases h

theorem reply_of_replacementOf? (h : replacementOf? request = some (id, schema)) :
    service.reply state now request = writeSchema state now id schema := by
  unfold replacementOf? at h
  cases hr : route request.method request.path with
  | error reply => simp [hr] at h
  | ok target =>
      rw [reply_of_route hr]
      rw [hr] at h
      cases target with
      | writeSchema project =>
          obtain ⟨body, hb, he⟩ := read_of_toOption_map h
          cases he
          rw [handle, withBody_of_read hb]
      | _ => cases h

theorem read_of_replacementOf? (h : replacementOf? request = some (id, schema)) :
    Body.read Body.schema request.body = .ok schema := by
  unfold replacementOf? at h
  cases hr : route request.method request.path with
  | error reply => simp [hr] at h
  | ok target =>
      rw [hr] at h
      cases target with
      | writeSchema project =>
          obtain ⟨body, hb, he⟩ := read_of_toOption_map h
          cases he
          exact hb
      | _ => cases h

theorem reply_of_creationOf? {body : Body.NewProject} (h : creationOf? request = some body) :
    service.reply state now request = createProject state now body := by
  unfold creationOf? at h
  cases hr : route request.method request.path with
  | error reply => simp [hr] at h
  | ok target =>
      rw [reply_of_route hr]
      rw [hr] at h
      cases target with
      | createProject =>
          have hmap : (Body.read Body.newProject request.body).toOption.map id = some body := by
            rw [Option.map_id]
            exact h
          obtain ⟨found, hb, rfl⟩ := read_of_toOption_map hmap
          rw [handle, withBody_of_read hb]
          rfl
      | _ => cases h

/-! ## Effects -/

inductive Supplies (service : Service) (state : State) (request : Request) (id : String) :
    Schema → Prop
  | default {project : Project} {schema : Schema} {ids : IdSource}
      (found : state.store.get? id = some project)
      (made : service.plan.defaultSchema project.name state.ids = .ok (schema, ids)) :
      Supplies service state request id schema
  | body {schema : Schema} (read : replacementOf? request = some (id, schema)) :
      Supplies service state request id schema
  | edit {edit : Edit} {record : SchemaRecord} {schema : Schema} {next : Edit.State}
      {made : Option Section} (read : editOf? request = some (id, edit))
      (holds : state.Holds id record schema)
      (edited : edit.apply service.registry ⟨schema, state.ids⟩ = .ok (next, made)) :
      Supplies service state request id next.schema

inductive Effect (service : Service) (state : State) (now : Timestamp) (request : Request) :
    ProjectStore → Prop
  | same : Effect service state now request state.store
  | created {body : Body.NewProject} (read : creationOf? request = some body) :
      Effect service state now request (state.store.create body.name body.brief now state.ids).2.1
  | saved {id : String} {project : Project} {schema : Schema}
      (found : state.store.get? id = some project)
      (supplied : Supplies service state request id schema) :
      Effect service state now request (Service.saved state.store id project schema.fields now)

theorem store_report {entry : Entry} {next : State → State × Reply} {store : ProjectStore}
    (hs : state.store = store) (hn : ∀ state, state.store = store → (next state).1.store = store) :
    (state.report entry next).1.store = store := by
  rcases report_cases state entry next with ⟨journal, -, he⟩ | he
  · rw [he]
    exact hn _ hs
  · rw [he]
    exact hs

theorem store_save (ids : IdSource) {project : Project} {content : Fields}
    {next : SchemaRecord → State → State × Reply} (hp : state.store.get? id = some project)
    (hn : ∀ record state, (next record state).1.store = state.store) :
    (save { state with ids } now id content next).1.store =
      saved state.store id project content now := by
  have hp' : ({ state with ids } : State).store.get? id = some project := hp
  rw [save_of_get? content next hp', hn]

theorem store_createProject (state : State) (now : Timestamp) (body : Body.NewProject) :
    (createProject state now body).1.store =
      (state.store.create body.name body.brief now state.ids).2.1 :=
  store_report rfl fun _ h => h

theorem effect_createProject {body : Body.NewProject} (h : creationOf? request = some body) :
    Effect service state now request (createProject state now body).1.store := by
  rw [store_createProject]
  exact Effect.created h

theorem effect_readSchema : Effect service state now request
    (service.readSchema state now id).1.store := by
  unfold readSchema
  cases hp : state.store.get? id with
  | none => exact Effect.same
  | some project =>
      cases hr : project.schema with
      | some record =>
          simp only [hr]
          exact Effect.same
      | none =>
          cases hd : service.plan.defaultSchema project.name state.ids with
          | error cause =>
              simp only [hr, hd]
              exact Effect.same
          | ok result =>
              obtain ⟨schema, ids⟩ := result
              simp only [hr, hd]
              rw [store_save ids hp fun record state => store_report rfl fun _ h => h]
              exact Effect.saved hp (Supplies.default hp hd)

theorem effect_writeSchema (h : replacementOf? request = some (id, schema)) :
    Effect service state now request (writeSchema state now id schema).1.store := by
  unfold writeSchema
  cases hp : state.store.get? id with
  | none => exact Effect.same
  | some project =>
      rw [saveAndAnswer, store_save state.ids hp fun _ _ => rfl]
      exact Effect.saved hp (Supplies.body h)

theorem effect_perform {record : SchemaRecord} (h : editOf? request = some (id, edit))
    (hs : state.Holds id record schema) :
    Effect service state now request (service.perform state now id edit schema).1.store := by
  obtain ⟨project, hp, -⟩ := Option.bind_eq_some_iff.mp hs.stored
  unfold perform
  cases ha : edit.apply service.registry ⟨schema, state.ids⟩ with
  | error cause => exact Effect.same
  | ok result =>
      obtain ⟨next, made⟩ := result
      simp only [saveAndAnswer]
      rw [store_save next.ids hp fun _ _ => rfl]
      exact Effect.saved hp (Supplies.edit h hs ha)

theorem effect_of_editOf? (service : Service) (state : State)
    (h : editOf? request = some (id, edit)) :
    Effect service state now request (service.reply state now request).1.store := by
  rw [reply_of_editOf? h]
  rcases withSchema_cases state id (service.perform state now id edit) with
    ⟨record, schema, hs, he⟩ | he | he | ⟨-, he⟩
  · rw [he]
    exact effect_perform h hs
  · rw [he]
    exact Effect.same
  · rw [he]
    exact Effect.same
  · rw [he]
    exact Effect.same

theorem effect_withBody {check : Fields → Checked α} {next : α → State × Reply} {text : String}
    (h : ∀ body, Body.read check text = .ok body →
      Effect service state now request (next body).1.store) :
    Effect service state now request (withBody state text check next).1.store := by
  rcases withBody_cases state text check next with ⟨body, hb, he⟩ | ⟨issues, -, he⟩ | he
  · rw [he]
    exact h body hb
  · rw [he]
    exact Effect.same
  · rw [he]
    exact Effect.same

/-- A request whose body, if valid, asks for an edit. -/
theorem effect_of_edit_body {target : Route} {check : Fields → Checked α}
    {next : α → State × Reply} (id : String) (edits : α → Edit)
    (hr : route request.method request.path = .ok target)
    (hh : service.handle state now request.body target =
      withBody state request.body check next)
    (he : ∀ body, Body.read check request.body = .ok body →
      editOf? request = some (id, edits body)) :
    Effect service state now request (service.reply state now request).1.store := by
  rw [reply_of_route hr, hh]
  refine effect_withBody fun body hb => ?_
  have h : Effect service state now request (service.reply state now request).1.store :=
    effect_of_editOf? service state (he body hb)
  rwa [reply_of_route hr, hh, withBody_of_read hb] at h

theorem store_generationFailed : (generationFailed state id).1.store = state.store :=
  store_report rfl fun _ h => h

theorem store_generateCode : (service.generateCode state id).1.store = state.store := by
  unfold generateCode
  cases (state.store.get? id).bind (·.schema) with
  | none => rfl
  | some record =>
      cases hc : record.content with
      | none => simp only [hc]
      | some content =>
          cases hs : Schema.ofJson (.object content) with
          | error issues =>
              simp only [hc, hs]
              exact store_generationFailed
          | ok schema =>
              cases hg : service.registry.generate schema with
              | error cause =>
                  simp only [hc, hs, hg]
                  exact store_generationFailed
              | ok files =>
                  simp only [hc, hs, hg]
                  refine store_report rfl fun state' h' => ?_
                  cases (Archive.package? schema files).bind Archive.written? with
                  | none => exact store_generationFailed.trans h'
                  | some archive => exact store_report h' fun _ h => h

theorem store_generateSchema (brief : Brief) :
    (service.generateSchema state brief).1.store = state.store := by
  unfold generateSchema
  split
  · rfl
  · cases service.plan.synthesize brief state.ids with
    | error cause => rfl
    | ok result => exact store_report rfl fun _ h => h

theorem store_generateContent : (service.generateContent state schema).1.store = state.store := by
  unfold generateContent
  cases service.registry.enrich schema with
  | error cause => rfl
  | ok enriched => exact store_report rfl fun _ h => h

/-- Every request has one of the three effects. -/
theorem effect (service : Service) (state : State) (now : Timestamp) (request : Request) :
    Effect service state now request (service.reply state now request).1.store := by
  cases hr : route request.method request.path with
  | error refusal =>
      simp only [reply, hr]
      exact Effect.same
  | ok target =>
      cases target with
      | addPage id =>
          refine effect_of_edit_body id .addPage hr rfl ?_
          intro title hb
          simp [editOf?, hr, hb, Except.toOption]
      | addSection id slug =>
          refine effect_of_edit_body id (fun type => .addSection slug (.string type)) hr rfl ?_
          intro type hb
          simp [editOf?, hr, hb, Except.toOption]
      | updateProps id slug sectionId =>
          refine effect_of_edit_body id (.updateProps slug sectionId) hr rfl ?_
          intro partialProps hb
          simp [editOf?, hr, hb, Except.toOption]
      | removeSection id slug sectionId =>
          have he : editOf? request = some (id, .removeSection slug sectionId) := by
            simp only [editOf?, hr]
          exact effect_of_editOf? service state he
      | createProject =>
          rw [reply_of_route hr, handle]
          refine effect_withBody fun body hb => effect_createProject ?_
          simp [creationOf?, hr, hb, Except.toOption]
      | readSchema id =>
          rw [reply_of_route hr, handle]
          exact effect_readSchema
      | writeSchema id =>
          rw [reply_of_route hr, handle]
          refine effect_withBody fun schema hb => effect_writeSchema ?_
          simp [replacementOf?, hr, hb, Except.toOption]
      | generateSchema =>
          rw [reply_of_route hr, handle]
          refine effect_withBody fun brief _ => ?_
          rw [store_generateSchema]
          exact Effect.same
      | generateContent =>
          rw [reply_of_route hr, handle]
          refine effect_withBody fun schema _ => ?_
          rw [store_generateContent]
          exact Effect.same
      | generateCode id =>
          rw [reply_of_route hr, handle, store_generateCode]
          exact Effect.same
      | health | databaseHealth | sectionTypes | listProjects =>
          rw [reply_of_route hr, handle]
          exact Effect.same

end Service

end Sitewright
