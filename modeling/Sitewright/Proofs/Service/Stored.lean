import Sitewright.Proofs.Editor.Tidy
import Sitewright.Proofs.Service.Effect

/-!
# What the store holds

A property of schemas that the service maintains holds of every schema in the store at every point
of a run: no request saves another one. Every stored content is that of such a schema, with null for
its infinite numbers, and reads as it again, so no project is ever left with a content that the
service itself refuses.
-/

namespace Sitewright

/-- Every stored content is that of a schema with the property that has no infinite number. -/
def ProjectStore.Stored (P : Schema → Prop) (store : ProjectStore) : Prop :=
  ∀ (id : String) (project : Project) (record : SchemaRecord), store.get? id = some project →
    project.schema = some record →
      ∃ schema, P schema ∧ schema.IsFinite ∧ record.content = some schema.fields

namespace Service

variable {service : Service} {state : State} {now : Timestamp} {request : Request} {id : String}
  {P : Schema → Prop}

structure Maintains (service : Service) (P : Schema → Prop) : Prop where
  tidy : ∀ {schema : Schema}, P schema → schema.Tidy
  dumped : ∀ {schema : Schema}, P schema → P schema.dumped
  default : ∀ {name : String} {ids next : IdSource} {schema : Schema},
    service.plan.defaultSchema name ids = .ok (schema, next) → P schema
  body : ∀ {request : Request} {id : String} {schema : Schema},
    replacementOf? request = some (id, schema) → P schema
  edit : ∀ {request : Request} {id : String} {edit : Edit} {state next : Edit.State}
    {made : Option Section}, editOf? request = some (id, edit) →
      edit.apply service.registry state = .ok (next, made) → P state.schema → P next.schema

/-! ## One request -/

theorem get?_saved (store : ProjectStore) (id : String) (project : Project) (content : Fields)
    (now : Timestamp) :
    (saved store id project content now).get? id = some (project.save (some content) now) :=
  Dict.get?_set_self id _ _

theorem get?_saved_of_ne {other : String} (h : other ≠ id) (store : ProjectStore)
    (project : Project) (content : Fields) (now : Timestamp) :
    (saved store id project content now).get? other = store.get? other :=
  Dict.get?_set_of_ne h _ _

theorem stored_create (hs : state.store.Stored P) (name : String) (brief : Option Fields) :
    (state.store.create name brief now state.ids).2.1.Stored P := by
  intro id project record hp hr
  by_cases hi : id = (state.store.create name brief now state.ids).1.id
  · subst hi
    have hself := Dict.get?_set_self (state.store.create name brief now state.ids).1.id
      (state.store.create name brief now state.ids).1 state.store.projects
    cases hself.symm.trans hp
    cases hr
  · have hother := Dict.get?_set_of_ne hi (state.store.create name brief now state.ids).1
      state.store.projects
    exact hs id project record (hother.symm.trans hp) hr

theorem stored_saved (hs : state.store.Stored P) {project : Project} {schema : Schema}
    (h : P schema.dumped) : (saved state.store id project schema.fields now).Stored P := by
  intro other found record hp hr
  by_cases hi : other = id
  · subst hi
    cases (get?_saved ..).symm.trans hp
    cases hr
    exact ⟨schema.dumped, h, schema.finite_dumped, (congrArg some schema.fields_dumped).symm⟩
  · rw [get?_saved_of_ne hi] at hp
    exact hs other found record hp hr

/-- Finds the stored content of a project by what can be told of it. -/
theorem exists_content_of_any {store : ProjectStore} {p : Fields → Bool}
    (h : (((store.get? id).bind (·.schema)).bind (·.content)).any p = true) :
    ∃ record content, (store.get? id).bind (·.schema) = some record ∧
      record.content = some content ∧ p content = true := by
  obtain ⟨content, hfound, hp⟩ := (Option.any_eq_true _ _).mp h
  obtain ⟨record, hr, hc⟩ := Option.bind_eq_some_iff.mp hfound
  exact ⟨record, content, hr, hc, hp⟩

/-- Whatever is stored reads as the schema that was stored. -/
theorem holds_of_stored (hm : service.Maintains P) (hs : state.store.Stored P)
    {record : SchemaRecord} (h : (state.store.get? id).bind (·.schema) = some record) :
    ∃ schema, P schema ∧ schema.IsFinite ∧ state.Holds id record schema ∧
      record.content = some schema.fields := by
  obtain ⟨project, hp, hr⟩ := Option.bind_eq_some_iff.mp h
  obtain ⟨schema, hP, hfinite, hcontent⟩ := hs id project record hp hr
  have hv : Schema.ofJson schema.toJson = .ok schema := by
    rw [Schema.ofJson_toJson (hm.tidy hP), hfinite]
  exact ⟨schema, hP, hfinite, ⟨h, schema.fields, hcontent, hv⟩, hcontent⟩

theorem of_holds (hm : service.Maintains P) (hs : state.store.Stored P) {record : SchemaRecord}
    {schema : Schema} (h : state.Holds id record schema) :
    P schema ∧ schema.IsFinite ∧ record.content = some schema.fields := by
  obtain ⟨stored, hP, hfinite, hstored, hcontent⟩ := holds_of_stored hm hs h.stored
  cases h.unique hstored
  exact ⟨hP, hfinite, hcontent⟩

theorem of_supplies (hm : service.Maintains P) (hs : state.store.Stored P) {schema : Schema}
    (h : Supplies service state request id schema) : P schema := by
  cases h with
  | default found made => exact hm.default made
  | body read => exact hm.body read
  | edit read holds edited => exact hm.edit read edited (of_holds hm hs holds).1

theorem stored_of_effect (hm : service.Maintains P) (hs : state.store.Stored P)
    {store : ProjectStore} (h : Effect service state now request store) : store.Stored P := by
  cases h with
  | same => exact hs
  | @created body read => exact stored_create hs body.name body.brief
  | saved found supplied => exact stored_saved hs (hm.dumped (of_supplies hm hs supplied))

theorem stored_serve (hm : service.Maintains P) (hs : state.store.Stored P) (now : Timestamp)
    (request : Request) : (service.serve state now request).1.store.Stored P :=
  stored_of_effect hm hs (effect service state now request)

/-! ## Runs -/

theorem run_append (service : Service) (state : State) (requests more : List (Timestamp × Request)) :
    service.run state (requests ++ more) =
      ((service.run (service.run state requests).1 more).1,
        (service.run state requests).2 ++ (service.run (service.run state requests).1 more).2) := by
  induction requests generalizing state with
  | nil => rfl
  | cons entry requests ih =>
      obtain ⟨now, request⟩ := entry
      simp only [List.cons_append, run, ih]

theorem length_run (service : Service) (state : State) (requests : List (Timestamp × Request)) :
    (service.run state requests).2.length = requests.length := by
  induction requests generalizing state with
  | nil => rfl
  | cons entry requests ih => simp only [run, List.length_cons, ih]

theorem run_singleton (service : Service) (state : State) (now : Timestamp) (request : Request) :
    service.run state [(now, request)] =
      ((service.serve state now request).1, [(service.serve state now request).2]) :=
  rfl

/-- Every response of a run is that to its request in the state that the run has come to. -/
theorem getElem?_run (service : Service) (state : State) (before after : List (Timestamp × Request))
    (now : Timestamp) (request : Request) :
    (service.run state (before ++ (now, request) :: after)).2[before.length]? =
      some (service.serve (service.run state before).1 now request).2 := by
  rw [run_append, List.getElem?_append_right (length_run service state before).le,
    length_run service state before, Nat.sub_self]
  rfl

/-- What every request preserves holds at the end of a run. -/
theorem invariant_run {I : State → Prop}
    (step : ∀ state now request, I state → I (service.serve state now request).1) {start : State}
    (h : I start) (requests : List (Timestamp × Request)) : I (service.run start requests).1 := by
  induction requests generalizing start with
  | nil => exact h
  | cons entry requests ih =>
      obtain ⟨now, request⟩ := entry
      exact ih (step start now request h)

def State.empty (ids : IdSource) (journal : Journal) : State :=
  { ids, journal }

theorem stored_empty (P : Schema → Prop) (ids : IdSource) (journal : Journal) :
    (State.empty ids journal).store.Stored P := by
  intro id project record hp
  cases hp

theorem stored_run (hm : service.Maintains P) (ids : IdSource) (journal : Journal)
    (requests : List (Timestamp × Request)) :
    (service.run (State.empty ids journal) requests).1.store.Stored P :=
  invariant_run (I := fun state => state.store.Stored P)
    (fun _ now request hs => stored_serve hm hs now request) (stored_empty P ids journal) requests

/-- Whatever the registry, the service stores tidy schemas. -/
theorem maintains_tidy (service : Service) : service.Maintains Schema.Tidy where
  tidy h := h
  dumped h := h.dumped
  default h := SitePlan.tidy_of_defaultSchema h
  body h := by
    obtain ⟨chars, fields, -, hf⟩ := object_of_read (read_of_replacementOf? h)
    obtain ⟨value, -, hv⟩ := Checked.required_eq_ok_iff.mp hf
    exact Schema.tidy_of_ofJson hv
  edit _ ha ht := Edit.tidy_of_apply ha ht

/-- A project is created, and its default schema is stored when it is read first. -/
def newProject : List (Timestamp × Request) :=
  [({ micros := 0 },
    { method := "POST", path := "/api/projects", body := "\x7b\"name\": \"A\"\x7d" }),
   ({ micros := 1 }, { method := "GET", path := "/api/projects/prj_19700101000000_a/schema" })]

def newProjectState : State :=
  (Service.run ⟨.default⟩ (State.empty (.ofList ["a", "b"]) { enabled := false }) newProject).1

def codeRequest : Request where
  method := "POST"
  path := "/api/projects/prj_19700101000000_a/generate/code"

set_option maxRecDepth 4000 in
theorem route_codeRequest : route codeRequest.method codeRequest.path =
    .ok (.generateCode "prj_19700101000000_a") := by
  rfl

/-- Puts a schema in its place that has half a pair of surrogates in a note. -/
def halvedSchema : Request where
  method := "PUT"
  path := "/api/projects/prj_19700101000000_a/schema"
  body := "\x7b\"schema\": \x7b\"website\": \x7b\"name\": \"A\"\x7d, \"note\": \"\\ud800\"\x7d\x7d"

end Service

end Sitewright
