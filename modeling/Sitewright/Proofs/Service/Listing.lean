import Sitewright.Proofs.Project.Listing
import Sitewright.Proofs.Service.Reporting

/-!
# The list of projects

The service lists the projects that requests have made, each once and under the summary with which
it has been announced. Edits of schemas do not show in the list, since saves leave every project in
its place and change nothing of its summary.
-/

namespace Sitewright.Service

open ProjectStore

variable {service : Service} {state : State} {now : Timestamp} {request : Request}

def createdBy? (state : State) (now : Timestamp) (request : Request) : Option Project :=
  (creationOf? request).map fun body =>
    (state.store.create body.name body.brief now state.ids).1

/-- The projects that requests make one after the other, each as it is when it is made. -/
def created (service : Service) (state : State) : List (Timestamp × Request) → List Project
  | [] => []
  | (now, request) :: requests =>
      (createdBy? state now request).toList ++
        service.created (service.serve state now request).1 requests

/-- A new project is answered by its summary, whatever the journal. -/
theorem reply_of_createdBy? {project : Project} (h : createdBy? state now request = some project) :
    (service.reply state now request).2 =
      .json 201 (.object [("project", project.summary)]) := by
  obtain ⟨body, hc, rfl⟩ := Option.map_eq_some_iff.mp h
  have hu (project : Project) : reservedField? (entry .info "Project created" project.id
      [("slug", .string project.slug)]).fields = none := rfl
  rw [reply_of_creationOf? hc]
  simp only [createProject, report_of_unreserved (hu _), answer]

/-! ## One request -/

/-- A store has got further projects at the end and keeps the others as they are but for saves. -/
structure Appends (store : ProjectStore) (made : List Project) (later : ProjectStore) : Prop where
  keys : Dict.keys later.projects = Dict.keys store.projects ++ made.map (·.id)
  origins : later.origins = store.origins ++ made

namespace Appends

variable {store mid later : ProjectStore} {made more : List Project}

theorem refl (store : ProjectStore) : Appends store [] store :=
  ⟨(List.append_nil _).symm, (List.append_nil _).symm⟩

theorem trans (h : Appends store made mid) (hm : Appends mid more later) :
    Appends store (made ++ more) later where
  keys := by rw [hm.keys, h.keys, List.map_append, List.append_assoc]
  origins := by rw [hm.origins, h.origins, List.append_assoc]

end Appends

theorem appends_create {name : String} {brief : Option Fields}
    (h : (state.store.create name brief now state.ids).1.id ∉ Dict.keys state.store.projects) :
    Appends state.store [(state.store.create name brief now state.ids).1]
      (state.store.create name brief now state.ids).2.1 where
  keys := Dict.keys_set_of_not_mem h _
  origins := origins_create h

theorem appends_saved {store : ProjectStore} {id : String} {project : Project}
    (h : store.get? id = some project) (content : Fields) (now : Timestamp) :
    Appends store [] (saved store id project content now) where
  keys := by
    have hold : id ∈ Dict.keys store.projects := Dict.mem_keys_of_get? h
    rw [saved, Dict.keys_set_of_mem hold]
    exact (List.append_nil _).symm
  origins := (origins_save h (some content) now).trans (List.append_nil _).symm

theorem appends_serve (service : Service) (state : State) (now : Timestamp) (request : Request)
    (hn : (Dict.keys state.store.projects ++
      (createdBy? state now request).toList.map (·.id)).Nodup) :
    Appends state.store (createdBy? state now request).toList
      (service.serve state now request).1.store := by
  cases hc : creationOf? request with
  | some body =>
      have hmade : createdBy? state now request =
          some (state.store.create body.name body.brief now state.ids).1 := by
        rw [createdBy?, hc, Option.map_some]
      have hstore : (service.serve state now request).1.store =
          (state.store.create body.name body.brief now state.ids).2.1 := by
        rw [← store_createProject, ← reply_of_creationOf? hc]
        rfl
      rw [hmade] at hn ⊢
      rw [hstore]
      exact appends_create fun hold =>
        List.disjoint_of_nodup_append hn hold (List.mem_singleton.mpr rfl)
  | none =>
      have hmade : createdBy? state now request = none := by rw [createdBy?, hc, Option.map_none]
      have heffect := effect service state now request
      rw [hmade]
      change Effect service state now request (service.serve state now request).1.store at heffect
      generalize (service.serve state now request).1.store = later at heffect
      cases heffect with
      | same => exact .refl _
      | created read => cases hc.symm.trans read
      | saved found supplied => exact appends_saved found _ _

/-! ## Runs -/

theorem appends_run (service : Service) (state : State) (requests : List (Timestamp × Request))
    (hn : (Dict.keys state.store.projects ++
      (service.created state requests).map (·.id)).Nodup) :
    Appends state.store (service.created state requests)
      (service.run state requests).1.store := by
  induction requests generalizing state with
  | nil => exact .refl _
  | cons entry requests ih =>
      obtain ⟨now, request⟩ := entry
      rw [created, List.map_append, ← List.append_assoc] at hn
      have hfirst := appends_serve service state now request (List.nodup_append.mp hn).1
      rw [← hfirst.keys] at hn
      exact hfirst.trans (ih _ hn)

theorem reply_of_listProjects
    (h : route request.method request.path = .ok .listProjects) :
    service.reply state now request =
      (state, .json 200 (.object
        [("projects", .array ((state.store.list.map Project.origin).map Project.summary))])) := by
  rw [reply_of_route h, handle, listProjects, List.map_map]
  rfl

/-- Whatever the readings of the clock, a list shows every project once and as it is stored, the
newest first and those of one time in the order in which they were made, and saves leave that order
as it is. So the answer to a request for all projects shows the summaries of those that requests
have made, in this order and as they have been announced. -/
theorem listings_newestFirst :
    (∀ (ids : IdSource) (calls : List (Readings × StoreCall)),
      let store := (ProjectStore.run {} ids calls).1
      let history := (ProjectStore.run {} ids calls).2.2
      history.madeIds.Nodup →
        NewestFirst history.records store.list ∧
        (store.list.map (·.id)).Nodup ∧
        (∀ project, project ∈ store.list ↔ ∃ id, store.get? id = some project) ∧
        ∀ rest saves, (store.run rest (saveCalls saves)).1.list.map (·.id) =
          store.list.map (·.id)) ∧
    (∀ (service : Service) state now request project, createdBy? state now request = some project →
      (service.reply state now request).2 = .json 201 (.object [("project", project.summary)])) ∧
    ∀ (service : Service) (ids : IdSource) (journal : Journal)
      (requests : List (Timestamp × Request)),
      let start := State.empty ids journal
      let made := service.created start requests
      let state := (service.run start requests).1
      (made.map (·.id)).Nodup →
        ∃ listed, NewestFirst made listed ∧
          ∀ now request, route request.method request.path = .ok .listProjects →
            service.reply state now request =
              (state, .json 200 (.object
                [("projects", .array (listed.map Project.summary))])) := by
  refine ⟨?_, fun service state now request project => reply_of_createdBy?, ?_⟩
  · intro ids calls store history hn
    have hreflects : store.Reflects history := reflects_empty.run ids calls hn
    have hkeys : Dict.keys store.projects = history.madeIds := keys_run {} ids calls hn
    have hvalues := hreflects.values_projects hn hkeys
    have hids : (Dict.values store.projects).map (·.id) = history.madeIds := by
      rw [hvalues, StoreHistory.records, List.map_map]
      rfl
    refine ⟨hvalues ▸ newestFirst_list store, ?_, ?_, ?_⟩
    · rw [((list_perm store).map _).nodup_iff, hids]
      exact hn
    · intro project
      rw [(list_perm store).mem_iff]
      exact Dict.mem_values_iff (hkeys ▸ hn)
    · intro rest saves
      have horigins := list_origins_congr (origins_run_saveCalls store rest saves)
      have hids := congrArg (List.map (·.id)) horigins
      rwa [List.map_map, List.map_map] at hids
  · intro service ids journal requests start made state hn
    have happends : Appends start.store made state.store := appends_run service start requests hn
    have horigins : state.store.origins = made := happends.origins
    exact ⟨_, horigins ▸ newestFirst_origins state.store, fun now request hr =>
      reply_of_listProjects hr⟩

/-- Three projects, of which the second one is made at an earlier time than the others, and a save
of it. -/
def callsOfTwoTimes : List (Readings × StoreCall) :=
  [(.constant { micros := 5 }, .create "A" none),
   (.constant { micros := 3 }, .create "B" none),
   (.constant { micros := 5 }, .create "C" none),
   (.constant { micros := 9 }, .save "prj_19700101000000_b" none)]

def creation (name : String) : Request where
  method := "POST"
  path := "/api/projects"
  body := "\x7b\"name\": \"" ++ name ++ "\"\x7d"

def requestsOfTwoTimes : List (Timestamp × Request) :=
  [({ micros := 5 }, creation "A"), ({ micros := 3 }, creation "B"), ({ micros := 5 }, creation "C")]

def listRequest : Request where
  method := "GET"
  path := "/api/projects"

theorem listings_newestFirst_twoTimes :
    (∃ done, done = ProjectStore.run {} (.ofList ["a", "b", "c"]) callsOfTwoTimes ∧
      done.2.2.madeIds.Nodup ∧ NewestFirst done.2.2.records done.1.list ∧
        (done.1.list.filter (·.createdAt.instant = 5)).map (·.name) = ["A", "C"]) ∧
    let service : Service := ⟨.default⟩
    let start := State.empty (.ofList ["a", "b", "c"]) { enabled := false }
    let made := service.created start requestsOfTwoTimes
    let state := (service.run start requestsOfTwoTimes).1
    made.map (·.name) = ["A", "B", "C"] ∧ (made.map (·.id)).Nodup ∧
      ∃ listed, NewestFirst made listed ∧ listed.map (·.name) = ["A", "C", "B"] ∧
        service.reply state { micros := 6 } listRequest =
          (state, .json 200 (.object [("projects", .array (listed.map Project.summary))])) := by
  refine ⟨⟨_, rfl, ?_⟩, ?_⟩
  · have hn : (ProjectStore.run {} (.ofList ["a", "b", "c"]) callsOfTwoTimes).2.2.madeIds.Nodup := by
      decide +kernel
    obtain ⟨hnewest, -⟩ := listings_newestFirst.1 _ _ hn
    refine ⟨hn, hnewest, ?_⟩
    rw [hnewest.ties]
    decide +kernel
  · intro service start made state
    have hnames : made.map (·.name) = ["A", "B", "C"] := by
      decide +kernel
    have hn : (made.map (·.id)).Nodup := by
      decide +kernel
    have htimes : ∀ project ∈ made, project.createdAt.instant = 5 ∨
        project.createdAt.instant = 3 := by
      decide +kernel
    have hfiltered : (made.filter (·.createdAt.instant = 5) ++
        made.filter (·.createdAt.instant = 3)).map (·.name) = ["A", "C", "B"] := by
      decide +kernel
    have hroute : route listRequest.method listRequest.path = .ok .listProjects := by
      rfl
    obtain ⟨listed, hnewest, hreply⟩ :=
      listings_newestFirst.2.2 service (.ofList ["a", "b", "c"]) { enabled := false }
        requestsOfTwoTimes hn
    refine ⟨hnames, hn, listed, hnewest, ?_, hreply _ _ hroute⟩
    rw [hnewest.eq_append (by decide) htimes]
    exact hfiltered

end Sitewright.Service
