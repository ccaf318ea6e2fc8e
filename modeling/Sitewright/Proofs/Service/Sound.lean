import Sitewright.Proofs.Generation.Written
import Sitewright.Proofs.Service.Stored

/-!
# When the service blames the store

Three answers speak of a stored schema that cannot be used. While its store holds only schemas that
it maintains, its registry has code for every kind and its journal does not hear what is merely
informative, the service gives one of them in one case alone: it is asked for the code of a project
whose content is not whole, and fails to write the archive.
-/

namespace Sitewright

/-! ## Answers -/

namespace Reply

def BlamesStore (reply : Reply) : Prop :=
  reply = .schemaInvalid ∨ reply = .schemaEmpty ∨ reply = .generationFailed

theorem not_blamesStore_json {status : Nat} {body : Json} (h : status ≠ 400 ∧ status ≠ 500) :
    ¬ (json status body).BlamesStore := by
  rintro (he | he | he) <;> cases he <;> omega

theorem head?_append {front : String} {c : Char} (h : front.toList.head? = some c)
    (back : String) : (front ++ back).toList.head? = some c := by
  rw [String.toList_append, List.head?_append, h, Option.some_or]

theorem not_blamesStore_badRequest {detail : String} (h : detail.toList.head? ≠ some 'N') :
    ¬ (refusal 400 detail).BlamesStore := by
  rintro (he | he | he)
  · cases he
  · simp only [refusal, schemaEmpty, json.injEq, Json.object.injEq, List.cons.injEq,
      Prod.mk.injEq, Json.string.injEq, true_and, and_true] at he
    subst he
    exact h rfl
  · cases he

theorem not_blamesStore_crash : ¬ crash.BlamesStore := by
  rintro (he | he | he) <;> cases he

theorem not_blamesStore_archive (archive : Archive) : ¬ (Reply.archive archive).BlamesStore := by
  rintro (he | he | he) <;> cases he

theorem blamesStore_of_sent {reply : Reply} (h : reply.sent.BlamesStore) :
    reply.sent = reply ∧ reply.BlamesStore := by
  cases reply with
  | json status body =>
      unfold sent at h ⊢
      cases hw : body.isWhole with
      | true =>
          simp only [hw, if_true] at h ⊢
          exact ⟨trivial, h⟩
      | false =>
          simp only [hw, Bool.false_eq_true, if_false] at h
          exact absurd h not_blamesStore_crash
  | archive archive => exact ⟨rfl, h⟩
  | moved | crash => exact ⟨rfl, h⟩

theorem not_blamesStore_ofError (cause : SiteError) : ¬ (ofError cause).BlamesStore := by
  cases cause with
  | projectNotFound id => exact not_blamesStore_json (by omega)
  | pageNotFound slug => exact not_blamesStore_json (by omega)
  | sectionNotFound id => exact not_blamesStore_json (by omega)
  | duplicatePage slug => exact not_blamesStore_json (by omega)
  | invalidTitle title =>
      have hm : (SiteError.invalidTitle title).message.toList.head? = some 'C' :=
        head?_append (by decide) _
      exact not_blamesStore_badRequest (hm ▸ by decide)
  | unknownSection type =>
      have hm : (SiteError.unknownSection type).message.toList.head? = some 'U' :=
        head?_append (by decide) _
      exact not_blamesStore_badRequest (hm ▸ by decide)
  | unfillable | noPhrase | missingColor | noFreeId => exact not_blamesStore_crash

end Reply

/-! ## Descriptions of issues -/

namespace Issue

theorem exists_intercalate_cons (mark text : String) (texts : List String) :
    ∃ rest, mark.intercalate (text :: texts) = text ++ rest := by
  cases texts with
  | nil => exact ⟨"", by simp⟩
  | cons next texts => exact ⟨mark ++ mark.intercalate (next :: texts), by
      rw [String.intercalate_cons_cons, String.append_assoc]⟩

theorem exists_text_cons (origin : Origin) (step : Step) (path : List Step) (fault : Fault) :
    ∃ rest, text origin ⟨step :: path, fault⟩ = step.text ++ rest := by
  obtain ⟨rest, hr⟩ := exists_intercalate_cons "." step.text (path.map Step.text)
  refine ⟨rest ++ (": " ++ fault.message origin), ?_⟩
  rw [text, List.map_cons, hr, String.append_assoc, String.append_assoc]

/-- The description of issues that are all within a step starts with the step. -/
theorem describe_within (origin : Origin) (step : Step) (issues : List Issue) :
    issues = [] ∨ ∃ rest, describe origin (issues.map fun issue =>
      { issue with path := step :: issue.path }) = step.text ++ rest := by
  cases issues with
  | nil => exact Or.inl rfl
  | cons issue issues =>
      right
      obtain ⟨rest, hr⟩ := exists_text_cons origin step issue.path issue.fault
      rw [describe, List.map_cons, List.map_cons, hr, String.intercalate_cons_append]
      exact ⟨_, rfl⟩

end Issue

theorem Body.exists_within_of_invalid {α : Type} {check : Fields → Checked α} {text : String}
    {issues : List Issue} (h : Body.read check text = .error (.invalid issues)) :
    ∃ inner : List Issue, issues = inner.map fun issue =>
      { issue with path := .key "body" :: issue.path } := by
  have of_refused {x : Checked α} (hx : Body.refused x = .error (.invalid issues)) :
      ∃ inner : List Issue, issues = inner.map fun issue =>
        { issue with path := .key "body" :: issue.path } := by
    cases x with
    | ok value => cases hx
    | error inner =>
        cases hx
        exact ⟨inner, rfl⟩
  unfold Body.read at h
  by_cases he : text.isEmpty
  · rw [if_pos he] at h
    exact of_refused h
  · rw [if_neg he] at h
    cases hc : Text.recode? text.toList with
    | none => simp [hc] at h
    | some chars =>
        cases hj : Json.ofChars chars with
        | error flaw =>
            cases flaw with
            | fault position =>
                simp only [hc, hj] at h
                exact of_refused h
            | longInteger => simp [hc, hj] at h
        | ok value =>
            simp only [hc, hj] at h
            exact of_refused h

theorem Reply.not_blamesStore_invalidBody {α : Type} {check : Fields → Checked α} {text : String}
    {issues : List Issue} (h : Body.read check text = .error (.invalid issues)) :
    ¬ (invalidBody issues).BlamesStore := by
  apply not_blamesStore_badRequest
  obtain ⟨inner, rfl⟩ := Body.exists_within_of_invalid h
  rcases Issue.describe_within .request (.key "body") inner with rfl | ⟨rest, hr⟩
  · decide
  · rw [hr, head?_append (c := 'b') (by decide)]
    decide

/-! ## Handlers -/

/-- A journal that does not hear what is informative hears nothing below it either. -/
theorem Journal.hears_eq_false {journal : Journal} {level : Level}
    (h : journal.hears .info = false) (hl : level = .debug ∨ level = .info) :
    journal.hears level = false := by
  rcases hl with rfl | rfl
  · rw [hears, Bool.and_eq_false_iff] at h ⊢
    refine h.imp_right fun hn => ?_
    rw [decide_eq_false_iff_not] at hn ⊢
    exact fun hle => hn (Int.le_trans hle (by decide))
  · exact h

namespace Service

variable {α : Type} {service : Service} {state : State} {now : Timestamp} {request : Request}
  {id : String} {P : Schema → Prop}

/-- The journal goes on hearing nothing that is merely informative, and the reply does not blame the
store. -/
structure Sound (result : State × Reply) : Prop where
  quiet : result.1.journal.hears .info = false
  reply : ¬ result.2.BlamesStore

theorem report_eq {entry : Entry} (h : state.journal.hears entry.level = false)
    (next : State → State × Reply) : state.report entry next = next state := by
  unfold State.report Journal.add
  rw [h]
  rfl

theorem sound_report {entry : Entry} {next : State → State × Reply}
    (hq : state.journal.hears .info = false) (hl : entry.level = .debug ∨ entry.level = .info)
    (hn : Sound (next state)) : Sound (state.report entry next) := by
  rw [report_eq (Journal.hears_eq_false hq hl)]
  exact hn

theorem sound_answer (hq : state.journal.hears .info = false) {status : Nat}
    (h : status ≠ 400 ∧ status ≠ 500) (fields : Fields) : Sound (answer status fields state) :=
  ⟨hq, Reply.not_blamesStore_json h⟩

theorem sound_ofError (hq : state.journal.hears .info = false) (cause : SiteError) :
    Sound (state, .ofError cause) :=
  ⟨hq, Reply.not_blamesStore_ofError cause⟩

theorem sound_save (hq : state.journal.hears .info = false) {content : Fields}
    {next : SchemaRecord → State → State × Reply}
    (hn : ∀ record state', state'.journal = state.journal → Sound (next record state')) :
    Sound (save state now id content next) := by
  cases hp : state.store.get? id with
  | none =>
      have he : save state now id content next = (state, .ofError (.projectNotFound id)) := by
        simp only [save, ProjectStore.save, hp]
      exact he ▸ sound_ofError hq _
  | some project =>
      rw [save_of_get? content next hp]
      exact hn _ _ rfl

theorem sound_saveAndAnswer (hq : state.journal.hears .info = false) {schema : Schema}
    {status : Nat} (h : status ≠ 400 ∧ status ≠ 500) (fields : Fields) :
    Sound (saveAndAnswer state now id schema status fields) :=
  sound_save hq fun _ _ hj => sound_answer (hj ▸ hq) h _

theorem sound_withBody (hq : state.journal.hears .info = false) {check : Fields → Checked α}
    {next : α → State × Reply} {text : String} (hn : ∀ body, Sound (next body)) :
    Sound (withBody state text check next) := by
  rcases withBody_cases state text check next with ⟨body, -, he⟩ | ⟨issues, hi, he⟩ | he
  · exact he ▸ hn body
  · exact he ▸ ⟨hq, Reply.not_blamesStore_invalidBody hi⟩
  · rw [he]
    exact ⟨hq, Reply.not_blamesStore_badRequest (by decide)⟩

theorem sound_withSchema (hm : service.Maintains P) (hs : state.store.Stored P)
    (hq : state.journal.hears .info = false) {next : Schema → State × Reply}
    (hn : ∀ schema, Sound (next schema)) : Sound (withSchema state id next) := by
  rcases withSchema_cases state id next with ⟨record, schema, -, he⟩ | he | he | ⟨hbad, -⟩
  · exact he ▸ hn schema
  · exact he ▸ ⟨hq, Reply.not_blamesStore_json (by omega)⟩
  · exact he ▸ ⟨hq, Reply.not_blamesStore_json (by omega)⟩
  · obtain ⟨record, content, issues, hr, hc, hi⟩ := hbad
    obtain ⟨schema, -, -, hh, -⟩ := holds_of_stored hm hs hr
    obtain ⟨other, ho, hv⟩ := hh.valid
    cases hc.symm.trans ho
    cases hi.symm.trans hv

theorem sound_perform (hq : state.journal.hears .info = false) (edit : Edit) (schema : Schema) :
    Sound (service.perform state now id edit schema) := by
  have hstatus : edit.status ≠ 400 ∧ edit.status ≠ 500 := by
    cases edit <;> simp [Edit.status]
  unfold perform
  cases edit.apply service.registry ⟨schema, state.ids⟩ with
  | error cause => exact sound_ofError hq cause
  | ok result =>
      obtain ⟨next, made⟩ := result
      have hq' : ({ state with ids := next.ids } : State).journal.hears .info = false := hq
      exact sound_saveAndAnswer hq' hstatus _

theorem sound_createProject (hq : state.journal.hears .info = false) (body : Body.NewProject) :
    Sound (createProject state now body) := by
  let made := state.store.create body.name body.brief now state.ids
  let created : State := { state with store := made.2.1, ids := made.2.2 }
  have hq' : created.journal.hears .info = false := hq
  exact sound_report hq' (Or.inr rfl) (sound_answer hq' (by omega) _)

theorem sound_readSchema (hq : state.journal.hears .info = false) :
    Sound (service.readSchema state now id) := by
  unfold readSchema
  cases state.store.get? id with
  | none => exact ⟨hq, Reply.not_blamesStore_json (by omega)⟩
  | some project =>
      cases hr : project.schema with
      | some record =>
          simp only [hr]
          exact sound_answer hq (by omega) _
      | none =>
          cases hd : service.plan.defaultSchema project.name state.ids with
          | error cause =>
              simp only [hr, hd]
              exact sound_ofError hq cause
          | ok result =>
              obtain ⟨schema, ids⟩ := result
              simp only [hr, hd]
              have hq' : ({ state with ids } : State).journal.hears .info = false := hq
              refine sound_save hq' fun record state' hj => ?_
              have hq'' : state'.journal.hears .info = false := hj ▸ hq'
              exact sound_report hq'' (Or.inr rfl) (sound_answer hq'' (by omega) _)

theorem sound_writeSchema (hq : state.journal.hears .info = false) (schema : Schema) :
    Sound (writeSchema state now id schema) := by
  unfold writeSchema
  cases state.store.get? id with
  | none => exact ⟨hq, Reply.not_blamesStore_json (by omega)⟩
  | some project => exact sound_saveAndAnswer hq (by omega) _

theorem sound_generateSchema (hq : state.journal.hears .info = false) (brief : Brief) :
    Sound (service.generateSchema state brief) := by
  unfold generateSchema
  split
  · exact ⟨hq, Reply.not_blamesStore_badRequest (by decide)⟩
  · cases service.plan.synthesize brief state.ids with
    | error cause => exact sound_ofError hq cause
    | ok result =>
        have hq' : ({ state with ids := result.2 } : State).journal.hears .info = false := hq
        exact sound_report hq' (Or.inr rfl) (sound_answer hq' (by omega) _)

theorem sound_generateContent (hq : state.journal.hears .info = false) (schema : Schema) :
    Sound (service.generateContent state schema) := by
  unfold generateContent
  cases service.registry.enrich schema with
  | error cause => exact sound_ofError hq cause
  | ok enriched => exact sound_report hq (Or.inl rfl) (sound_answer hq (by omega) _)

theorem generationFailed_eq (state : State) (id : String) :
    ∃ journal : Journal, (∀ level, journal.hears level = state.journal.hears level) ∧
      generationFailed state id = ({ state with journal }, .generationFailed) := by
  have hu : reservedField? (entry .error "Failed to generate project code" id []).fields = none :=
    rfl
  exact ⟨_, Journal.hears_noting _ _, report_of_unreserved hu _ _⟩

/-- The project of a stored schema is generated, and handed out if its JSON is whole. -/
theorem generateCode_of_holds (hreg : service.registry.Renders)
    (hq : state.journal.hears .info = false) {record : SchemaRecord} {schema : Schema}
    (hh : state.Holds id record schema) :
    ∃ files, service.registry.generate schema = .ok files ∧
      service.generateCode state id =
        if schema.toJson.isWhole then (state, .archive ⟨Archive.filenameFor schema.name, files⟩)
        else generationFailed state id := by
  obtain ⟨files, hf⟩ := Registry.exists_generate hreg schema
  obtain ⟨content, hc, hv⟩ := hh.valid
  refine ⟨files, hf, ?_⟩
  have hpackage := Archive.package?_of_generate hf
  simp only [generateCode, hh.stored, hc, hv, hf]
  rw [report_eq (Journal.hears_eq_false hq (Or.inr rfl))]
  simp only [hpackage, Option.bind_some, Archive.written?_of_generate hf]
  cases schema.toJson.isWhole with
  | true =>
      simp only [if_true]
      rw [report_eq (Journal.hears_eq_false hq (Or.inr rfl))]
  | false => simp only [Bool.false_eq_true, if_false]

theorem generateCode_of_stored (hm : service.Maintains P) (hreg : service.registry.Renders)
    (hs : state.store.Stored P) (hq : state.journal.hears .info = false) {record : SchemaRecord}
    (hr : (state.store.get? id).bind (·.schema) = some record) :
    ∃ schema files, P schema ∧ record.content = some schema.fields ∧
      service.registry.generate schema = .ok files ∧
      service.generateCode state id =
        if schema.toJson.isWhole then (state, .archive ⟨Archive.filenameFor schema.name, files⟩)
        else generationFailed state id := by
  obtain ⟨schema, hP, -, hh, hc⟩ := holds_of_stored hm hs hr
  obtain ⟨files, hg, hcode⟩ := generateCode_of_holds hreg hq hh
  exact ⟨schema, files, hP, hc, hg, hcode⟩

theorem serve_generateCode_of_stored (hm : service.Maintains P) (hreg : service.registry.Renders)
    (hs : state.store.Stored P) (hq : state.journal.hears .info = false) (now : Timestamp)
    (hroute : route request.method request.path = .ok (.generateCode id)) {record : SchemaRecord}
    (hr : (state.store.get? id).bind (·.schema) = some record) :
    ∃ schema files, P schema ∧ record.content = some schema.fields ∧
      service.registry.generate schema = .ok files ∧
      (service.serve state now request).2.reply =
        if schema.toJson.isWhole then .archive ⟨Archive.filenameFor schema.name, files⟩
        else .generationFailed := by
  obtain ⟨schema, files, hP, hc, hg, hcode⟩ := generateCode_of_stored hm hreg hs hq hr
  refine ⟨schema, files, hP, hc, hg, ?_⟩
  simp only [serve, reply_of_route hroute, handle, hcode]
  cases schema.toJson.isWhole with
  | true => rfl
  | false =>
      obtain ⟨journal, -, hfailed⟩ := generationFailed_eq state id
      simp only [hfailed, Bool.false_eq_true, if_false]
      rfl

/-- The request asks for the code of a project whose stored content is not whole. -/
def AsksForHalved (state : State) (request : Request) : Prop :=
  ∃ id record content, route request.method request.path = .ok (.generateCode id) ∧
    (state.store.get? id).bind (·.schema) = some record ∧ record.content = some content ∧
    (Json.object content).isWhole = false

/-- The journal goes on hearing nothing that is merely informative, and the reply blames the store
only for a content that is not whole. -/
structure Serves (state : State) (request : Request) (result : State × Reply) : Prop where
  quiet : result.1.journal.hears .info = false
  reply : result.2.BlamesStore → result.2 = .generationFailed ∧ AsksForHalved state request

theorem Sound.serves {result : State × Reply} (h : Sound result) (state : State)
    (request : Request) : Serves state request result :=
  ⟨h.quiet, fun hb => absurd hb h.reply⟩

theorem serves_generateCode (hm : service.Maintains P) (hreg : service.registry.Renders)
    (hs : state.store.Stored P) (hq : state.journal.hears .info = false)
    (hroute : route request.method request.path = .ok (.generateCode id)) :
    Serves state request (service.generateCode state id) := by
  cases hr : (state.store.get? id).bind (·.schema) with
  | none =>
      have he : service.generateCode state id = (state, .schemaMissing) := by
        simp only [generateCode, hr]
      have hsound : Sound (state, .schemaMissing) := ⟨hq, Reply.not_blamesStore_json (by omega)⟩
      exact he ▸ hsound.serves state request
  | some record =>
      obtain ⟨schema, files, -, hc, -, he⟩ := generateCode_of_stored hm hreg hs hq hr
      rw [he]
      cases hw : schema.toJson.isWhole with
      | true =>
          have hsound : Sound (state, .archive ⟨Archive.filenameFor schema.name, files⟩) :=
            ⟨hq, Reply.not_blamesStore_archive _⟩
          exact hsound.serves state request
      | false =>
          obtain ⟨journal, hears, hfailed⟩ := generationFailed_eq state id
          rw [hfailed]
          have hasks : AsksForHalved state request := ⟨id, record, schema.fields, hroute, hr, hc, hw⟩
          exact ⟨(hears .info).trans hq, fun _ => ⟨rfl, hasks⟩⟩

theorem sound_edit (hm : service.Maintains P) (hs : state.store.Stored P)
    (hq : state.journal.hears .info = false) (now : Timestamp) (id : String) (edit : Edit) :
    Sound (withSchema state id (service.perform state now id edit)) :=
  sound_withSchema hm hs hq (sound_perform hq edit)

theorem not_blamesStore_of_route {method path : String} {reply : Reply}
    (h : route method path = .error reply) : ¬ reply.BlamesStore := by
  unfold route at h
  split at h
  · split at h
    · cases h
      rintro (he | he | he) <;> cases he
    · cases h
      exact Reply.not_blamesStore_json (by omega)
  · split at h
    · cases h
    · cases h
      exact Reply.not_blamesStore_json (by omega)

theorem serves_reply (hm : service.Maintains P) (hreg : service.registry.Renders)
    (hs : state.store.Stored P) (hq : state.journal.hears .info = false) (now : Timestamp)
    (request : Request) : Serves state request (service.reply state now request) := by
  cases hr : route request.method request.path with
  | error refusal =>
      have hsound : Sound (state, refusal) := ⟨hq, not_blamesStore_of_route hr⟩
      simp only [reply, hr]
      exact hsound.serves state request
  | ok target =>
      have hserves (h : Sound (service.handle state now request.body target)) :
          Serves state request (service.reply state now request) := by
        rw [reply_of_route hr]
        exact h.serves state request
      cases target with
      | health | sectionTypes | listProjects =>
          exact hserves ⟨hq, Reply.not_blamesStore_json (by omega)⟩
      | databaseHealth =>
          refine hserves ⟨hq, ?_⟩
          rintro (he | he | he) <;>
            simp [handle, databaseHealth, Reply.schemaInvalid, Reply.schemaEmpty,
              Reply.generationFailed, Reply.refusal] at he
      | createProject => exact hserves (sound_withBody hq (sound_createProject hq))
      | readSchema id => exact hserves (sound_readSchema hq)
      | writeSchema id => exact hserves (sound_withBody hq (sound_writeSchema hq))
      | generateSchema => exact hserves (sound_withBody hq (sound_generateSchema hq))
      | generateContent => exact hserves (sound_withBody hq (sound_generateContent hq))
      | generateCode id =>
          rw [reply_of_route hr]
          exact serves_generateCode hm hreg hs hq hr
      | addPage id =>
          refine hserves (sound_withBody hq fun title => ?_)
          have h := sound_edit hm hs hq now id (.addPage title)
          rwa [withSchema_addPage] at h
      | addSection id slug =>
          refine hserves (sound_withBody hq fun type => ?_)
          have h := sound_edit hm hs hq now id (.addSection slug (.string type))
          rwa [withSchema_addSection] at h
      | removeSection id slug sectionId =>
          have h := sound_edit hm hs hq now id (.removeSection slug sectionId)
          rw [withSchema_removeSection] at h
          exact hserves h
      | updateProps id slug sectionId =>
          refine hserves (sound_withBody hq fun partialProps => ?_)
          have h := sound_edit hm hs hq now id (.updateProps slug sectionId partialProps)
          rwa [withSchema_updateProps] at h

end Service

end Sitewright
