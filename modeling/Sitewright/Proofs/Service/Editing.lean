import Sitewright.Proofs.Service.Reporting

/-!
# Editing through the service

To edit the stored schema of a project through the service is to edit the schema that the content
reads as. An edit that can be made is answered with the edited schema and the next version, and
leaves just this in the store, with null for infinite numbers. One that cannot be made is answered
with the reason, and leaves everything as it was. This holds for every request of a run. An answer
that is not whole cannot be sent, though, and the schema is stored all the same.
-/

namespace Sitewright

def Project.nextVersion (project : Project) : Int :=
  project.schema.elim 1 fun record => record.version + 1

theorem Project.schema_save (project : Project) (content : Option Fields) (now : Timestamp) :
    (project.save content now).schema = some ⟨content, project.nextVersion, now⟩ := by
  cases hs : project.schema <;> simp [save, SchemaRecord.saved, nextVersion, hs]

namespace Edit

variable {registry : Registry} {state : State} {cause : SiteError}

theorem eq_error_of_map_eq_error {α β : Type} {x : Except SiteError α} {f : α → β}
    (h : x.map f = .error cause) : x = .error cause := by
  cases x with
  | ok value => cases h
  | error other =>
      cases h
      rfl

theorem apply_addPage_of_eq_ok {schema edited : Schema} {title : String} {ids : IdSource}
    (h : schema.addPage title = .ok edited) :
    apply registry ⟨schema, ids⟩ (.addPage title) = .ok (⟨edited, ids⟩, none) := by
  rw [apply_addPage, h]
  rfl

theorem changeSection_eq_error {schema : Schema} {slug id : String} {change : Page → Page}
    (h : schema.changeSection slug id change = .error cause) :
    cause = .pageNotFound slug ∨ cause = .sectionNotFound id := by
  unfold Schema.changeSection at h
  cases hp : schema.findPage? slug with
  | none =>
      simp only [hp, Except.error.injEq] at h
      exact Or.inl h.symm
  | some page =>
      by_cases hs : page.hasSection id = true
      · simp [hp, hs] at h
      · simp only [hp, hs, Bool.false_eq_true, if_false, Except.error.injEq] at h
        exact Or.inr h.symm

/-- Unless the draws ran out, the request is to blame for an edit that cannot be made. -/
theorem isSome_statusOf? {edit : Edit} (hn : edit ≠ .enrich)
    (h : edit.apply registry state = .error cause) (hf : cause ≠ .noFreeId) :
    (Reply.statusOf? cause).isSome := by
  cases edit with
  | addPage title =>
      rw [apply_addPage] at h
      have he := eq_error_of_map_eq_error h
      unfold Schema.addPage at he
      simp only at he
      split at he
      · cases he
        rfl
      · split at he
        · cases he
          rfl
        · cases he
  | addSection slug type =>
      rw [apply_addSection] at h
      have he := eq_error_of_map_eq_error h
      unfold Schema.addSection at he
      split at he
      · cases he
        rfl
      · split at he
        · cases he
          rfl
        · split at he
          · cases he
            exact absurd (Registry.createSection_eq_error (by assumption)) hf
          · cases he
  | removeSection slug id =>
      rw [apply_removeSection] at h
      rcases changeSection_eq_error (eq_error_of_map_eq_error h) with rfl | rfl <;> rfl
  | updateProps slug id partialProps =>
      rw [apply_updateProps] at h
      rcases changeSection_eq_error (eq_error_of_map_eq_error h) with rfl | rfl <;> rfl
  | enrich => exact absurd rfl hn

end Edit

namespace Service

variable {service : Service} {state : State} {now : Timestamp} {request : Request} {id : String}
  {edit : Edit} {record : SchemaRecord} {schema : Schema}

theorem ne_enrich_of_editOf? (h : editOf? request = some (id, edit)) : edit ≠ .enrich := by
  rintro rfl
  unfold editOf? at h
  split at h <;> simp at h

/-- A schema has been saved for a project, and the other projects are as they were. What is stored
reads as the schema without its infinite numbers, so as the schema itself exactly if it has none. -/
structure Leaves (state after : State) (now : Timestamp) (id : String) (schema : Schema)
    (version : Int) : Prop where
  record : (after.store.get? id).bind (·.schema) = some ⟨some schema.fields, version, now⟩
  valid : Schema.ofJson (.object schema.fields) = .ok schema.dumped
  exact : Schema.ofJson (.object schema.fields) = .ok schema ↔ schema.IsFinite
  others : ∀ other, other ≠ id → after.store.get? other = state.store.get? other

def shown (status : Nat) (schema : Schema) (version : Int) (fields : Fields) : Reply :=
  (Reply.json status (.object
    ([("schema", schema.toJson), ("version", .int version)] ++ fields))).sent

/-- The response to a request, and the state after it, are those that the editor has for the stored
schema. -/
structure Follows (service : Service) (state : State) (now : Timestamp) (request : Request)
    (response : Response) (after : State) : Prop where
  creates : ∀ body, creationOf? request = some body →
    let (project, store, _) := state.store.create body.name body.brief now state.ids
    response.reply = (Reply.json 201 (.object [("project", project.summary)])).sent ∧
      after.store = store
  starts : ∀ id project schema ids, route request.method request.path = .ok (.readSchema id) →
    state.store.get? id = some project → project.schema = none →
    service.plan.defaultSchema project.name state.ids = .ok (schema, ids) →
      response.reply = shown 200 schema 1 [] ∧ Leaves state after now id schema 1
  edits : ∀ id edit record schema next made, editOf? request = some (id, edit) →
    state.Holds id record schema →
    edit.apply service.registry ⟨schema, state.ids⟩ = .ok (next, made) →
      response.reply = shown edit.status next.schema (record.version + 1) (madeFields made) ∧
      after.ids = next.ids ∧ Leaves state after now id next.schema (record.version + 1)
  refuses : ∀ id edit record schema cause, editOf? request = some (id, edit) →
    state.Holds id record schema →
    edit.apply service.registry ⟨schema, state.ids⟩ = .error cause → cause ≠ .noFreeId →
      ∃ status, Reply.statusOf? cause = some status ∧
        response.reply = (Reply.refusal status cause.message).sent ∧ after = state
  replaces : ∀ id project schema, replacementOf? request = some (id, schema) →
    state.store.get? id = some project →
      response.reply = shown 200 schema project.nextVersion [] ∧
        Leaves state after now id schema project.nextVersion

theorem leaves_saved {after : State} {project : Project} (ht : schema.Tidy)
    (hs : after.store = saved state.store id project schema.fields now) :
    Leaves state after now id schema project.nextVersion where
  record := by rw [hs, get?_saved, Option.bind_some, project.schema_save]
  valid := Schema.ofJson_toJson ht
  exact := by
    have hread : Schema.ofJson (.object schema.fields) = .ok schema.dumped :=
      Schema.ofJson_toJson ht
    rw [hread, Checked.ok_eq_ok_iff, Schema.IsFinite]
  others other ho := by rw [hs, get?_saved_of_ne ho]

theorem schemaFields_saved (project : Project) (schema : Schema) (now : Timestamp) :
    Reply.schemaFields (SchemaRecord.saved project.schema (some schema.fields) now) =
      [("schema", schema.toJson), ("version", .int project.nextVersion)] := by
  cases hr : project.schema <;> simp [Project.nextVersion, SchemaRecord.saved, hr,
    Reply.schemaFields, SchemaRecord.contentJson, Schema.toJson]

theorem saveAndAnswer_of_get? {project : Project} {status : Nat} {fields : Fields}
    (h : state.store.get? id = some project) :
    saveAndAnswer state now id schema status fields =
      ({ state with store := saved state.store id project schema.fields now },
        .json status (.object
          ([("schema", schema.toJson), ("version", .int project.nextVersion)] ++ fields))) := by
  rw [saveAndAnswer, save_of_get? _ _ h, answer, schemaFields_saved]

theorem readSchema_of_default (now : Timestamp) {project : Project} {ids : IdSource}
    (hp : state.store.get? id = some project) (hn : project.schema = none)
    (hd : service.plan.defaultSchema project.name state.ids = .ok (schema, ids)) :
    ∃ journal, service.readSchema state now id =
      ({ state with
          ids, journal, store := saved state.store id project schema.fields now },
        .json 200 (.object [("schema", schema.toJson), ("version", .int 1)])) := by
  have hu : reservedField? (entry .info "Created default schema" id []).fields = none := rfl
  have hp' : ({ state with ids } : State).store.get? id = some project := hp
  have hversion : project.nextVersion = 1 := by rw [Project.nextVersion, hn]; rfl
  simp only [readSchema, hp, hn, hd]
  rw [save_of_get? _ _ hp', report_of_unreserved hu, answer, schemaFields_saved, hversion]
  exact ⟨_, rfl⟩

/-- Every request that is served while all stored schemas are tidy follows the editor. -/
theorem follows_serve (h : state.store.Stored Schema.Tidy) (now : Timestamp) (request : Request) :
    service.Follows state now request (service.serve state now request).2
      (service.serve state now request).1 where
  creates body hc := by
    have hu (project : Project) : reservedField? (entry .info "Project created" project.id
        [("slug", .string project.slug)]).fields = none := rfl
    simp only [serve, reply_of_creationOf? hc, createProject, report_of_unreserved (hu _), answer,
      and_self]
  starts id project schema ids hr hp hn hd := by
    have ht : schema.Tidy := (maintains_tidy service).default hd
    obtain ⟨journal, hread⟩ := readSchema_of_default now hp hn hd
    have hversion : project.nextVersion = 1 := by rw [Project.nextVersion, hn]; rfl
    simp only [serve, reply_of_route hr, handle, hread]
    exact ⟨rfl, hversion ▸ leaves_saved ht rfl⟩
  edits id edit record schema next made he hs ha := by
    obtain ⟨project, hp, hr⟩ := Option.bind_eq_some_iff.mp hs.stored
    have hv : project.nextVersion = record.version + 1 := by rw [Project.nextVersion, hr]; rfl
    have ht : next.schema.Tidy :=
      Edit.tidy_of_apply ha (of_holds (maintains_tidy service) h hs).1
    have hreply : service.reply state now request =
        saveAndAnswer { state with ids := next.ids } now id next.schema edit.status
          (madeFields made) := by
      rw [reply_of_editOf? he, withSchema_of_holds hs, perform, ha]
    have hp' : ({ state with ids := next.ids } : State).store.get? id = some project := hp
    rw [saveAndAnswer_of_get? hp'] at hreply
    simp only [serve, hreply, ← hv, true_and]
    exact ⟨rfl, leaves_saved ht rfl⟩
  refuses id edit record schema cause he hs ha hf := by
    have hreply : service.reply state now request = (state, .ofError cause) := by
      rw [reply_of_editOf? he, withSchema_of_holds hs, perform, ha]
    obtain ⟨status, hstatus⟩ := Option.isSome_iff_exists.mp
      (Edit.isSome_statusOf? (ne_enrich_of_editOf? he) ha hf)
    refine ⟨status, hstatus, ?_, ?_⟩
    · simp only [serve, hreply, Reply.ofError, hstatus]
    · simp only [serve, hreply]
  replaces id project schema hb hp := by
    have ht : schema.Tidy := (maintains_tidy service).body hb
    have hreply : service.reply state now request =
        saveAndAnswer state now id schema 200 [] := by
      rw [reply_of_replacementOf? hb, writeSchema, hp]
    rw [saveAndAnswer_of_get? hp] at hreply
    simp only [serve, hreply]
    exact ⟨rfl, leaves_saved ht rfl⟩

/-! ## Runs -/

def pageRequest : Request where
  method := "POST"
  path := "/api/projects/prj_19700101000000_a/pages"
  body := "\x7b\"title\": \"About\"\x7d"

set_option maxRecDepth 4000 in
theorem route_pageRequest :
    route pageRequest.method pageRequest.path = .ok (.addPage "prj_19700101000000_a") := by
  rfl

theorem editOf?_pageRequest :
    editOf? pageRequest = some ("prj_19700101000000_a", .addPage "About") := by
  have hread : (Body.read Body.pageTitle pageRequest.body).toOption = some "About" := by
    decide +kernel
  simp only [editOf?, route_pageRequest, hread, Option.map_some]

end Service

end Sitewright
