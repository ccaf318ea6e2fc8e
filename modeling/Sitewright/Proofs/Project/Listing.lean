import Sitewright.Proofs.Project.Creation
import Sitewright.Proofs.Sorting

/-!
# Projects in a list

A list shows every project of the store once, the newest first and those of one time in the order
in which they were made. Saves change neither that order nor when a project was made, so a history
tells what the list shows, and no save moves a project in it.
-/

namespace Sitewright

/-- The same projects with the newest first, and those of one time in the given order. -/
structure NewestFirst (given listed : List Project) : Prop where
  perm : listed.Perm given
  descending : listed.Pairwise fun a b => b.createdAt.instant ≤ a.createdAt.instant
  ties : ∀ time, listed.filter (·.createdAt.instant = time) =
    given.filter (·.createdAt.instant = time)

namespace NewestFirst

variable {given listed : List Project} {f : Project → Project}

theorem map (h : NewestFirst given listed)
    (hf : ∀ project, (f project).createdAt = project.createdAt) :
    NewestFirst (given.map f) (listed.map f) where
  perm := h.perm.map f
  descending := by
    rw [List.pairwise_map]
    exact h.descending.imp fun hab => by rwa [hf, hf]
  ties time := by
    have hp : (fun project : Project => decide (project.createdAt.instant = time)) ∘ f =
        fun project => decide (project.createdAt.instant = time) := by
      funext project
      simp only [Function.comp_apply, hf]
    rw [List.filter_map, List.filter_map, hp, h.ties]

theorem eq_append_of_pairwise {late early : Int} (hlt : early < late) {projects : List Project}
    (hd : projects.Pairwise fun a b => b.createdAt.instant ≤ a.createdAt.instant)
    (ht : ∀ project ∈ projects, project.createdAt.instant = late ∨
      project.createdAt.instant = early) :
    projects = projects.filter (·.createdAt.instant = late) ++
      projects.filter (·.createdAt.instant = early) := by
  induction projects with
  | nil => rfl
  | cons project projects ih =>
      obtain ⟨hfirst, hrest⟩ := List.pairwise_cons.mp hd
      obtain ⟨htime, htimes⟩ := List.forall_mem_cons.mp ht
      rcases htime with hl | he
      · have hne : project.createdAt.instant ≠ early := by omega
        simpa [hl, hne, hlt.ne'] using ih hrest htimes
      · have hearly : ∀ other ∈ project :: projects, other.createdAt.instant = early := by
          intro other hm
          rcases List.mem_cons.mp hm with rfl | hm
          · exact he
          · have hle := hfirst other hm
            rcases htimes other hm with ho | ho <;> omega
        have hnone : (project :: projects).filter (·.createdAt.instant = late) = [] := by
          rw [List.filter_eq_nil_iff]
          intro other hm
          simpa [hearly other hm] using hlt.ne
        have hall : (project :: projects).filter (·.createdAt.instant = early) =
            project :: projects := by
          rw [List.filter_eq_self]
          intro other hm
          simpa using hearly other hm
        rw [hnone, hall, List.nil_append]

/-- If the projects are of two times, those of the later one come before the others. -/
theorem eq_append (h : NewestFirst given listed) {late early : Int} (hlt : early < late)
    (ht : ∀ project ∈ given, project.createdAt.instant = late ∨
      project.createdAt.instant = early) :
    listed = given.filter (·.createdAt.instant = late) ++
      given.filter (·.createdAt.instant = early) := by
  rw [← h.ties, ← h.ties]
  exact eq_append_of_pairwise hlt h.descending fun project hm => ht project (h.perm.mem_iff.mp hm)

end NewestFirst

def Project.origin (project : Project) : Project :=
  { project with schema := none, updatedAt := project.createdAt }

@[simp] theorem Project.origin_save (project : Project) (content : Option Fields)
    (now : Timestamp) : (project.save content now).origin = project.origin := rfl

namespace StoreHistory

variable {history : StoreHistory}

/-- The projects that have been made, as their saves have left them. -/
def records (history : StoreHistory) : List Project :=
  history.made.map fun project => project.afterSaves (history.saves project.id)

theorem record?_of_mem_made (hn : history.madeIds.Nodup) {project : Project}
    (hm : project ∈ history.made) :
    history.record? project.id = some (project.afterSaves (history.saves project.id)) := by
  have hfind : history.made.find? (fun other => other.id == project.id) = some project := by
    cases hf : history.made.find? (fun other => other.id == project.id) with
    | none => simpa using List.find?_eq_none.mp hf project hm
    | some other =>
        have hid : other.id = project.id := by simpa using List.find?_some hf
        rw [List.inj_on_of_nodup_map hn (List.mem_of_find?_eq_some hf) hm hid]
  rw [record?, hfind, Option.map_some]

end StoreHistory

namespace ProjectStore

open StoreHistory

variable {store : ProjectStore} {history : StoreHistory} {ids : IdSource} {times : Readings}

/-! ## The order of a list -/

theorem newestFirst_list (store : ProjectStore) :
    NewestFirst (Dict.values store.projects) store.list where
  perm := list_perm store
  descending := Sorting.pairwise_descending (fun project : Project => project.createdAt.instant) _
  ties := Sorting.filter_descending (fun project : Project => project.createdAt.instant) _

/-! ## Saves -/

def origins (store : ProjectStore) : List Project :=
  (Dict.values store.projects).map Project.origin

theorem newestFirst_origins (store : ProjectStore) :
    NewestFirst store.origins (store.list.map Project.origin) :=
  (newestFirst_list store).map fun _ => rfl

/-- The order depends on nothing that a save changes. -/
theorem list_origins_congr {other : ProjectStore} (h : other.origins = store.origins) :
    other.list.map Project.origin = store.list.map Project.origin := by
  have hsorted (store : ProjectStore) : store.list.map Project.origin =
      store.origins.mergeSort fun a b => b.createdAt.instant ≤ a.createdAt.instant :=
    List.map_mergeSort fun a _ b _ => rfl
  rw [hsorted, hsorted, h]

theorem origins_save {id : String} {project : Project} (h : store.get? id = some project)
    (content : Option Fields) (now : Timestamp) :
    ({ store with projects := Dict.set id (project.save content now) store.projects } :
      ProjectStore).origins = store.origins := by
  exact Dict.map_values_set h (project.origin_save content now)

theorem origins_stepAt_save (id : String) (content : Option Fields) :
    (store.stepAt ids times (.save id content)).1.origins = store.origins := by
  cases hp : store.get? id with
  | none => rw [stepAt_save_of_none hp]
  | some project =>
      rw [stepAt_save_of_some hp]
      exact origins_save hp content times.first

def saveCalls (saves : List (Readings × String × Option Fields)) : List (Readings × StoreCall) :=
  saves.map fun (times, id, content) => (times, .save id content)

theorem origins_run_saveCalls (store : ProjectStore) (ids : IdSource)
    (saves : List (Readings × String × Option Fields)) :
    (run store ids (saveCalls saves)).1.origins = store.origins := by
  induction saves generalizing store ids with
  | nil => rfl
  | cons entry saves ih =>
      obtain ⟨times, id, content⟩ := entry
      exact (ih _ _).trans (origins_stepAt_save id content)

/-! ## Runs -/

theorem origins_create {name : String} {brief : Option Fields}
    (h : (store.createAt name brief times ids).1.id ∉ Dict.keys store.projects) :
    (store.createAt name brief times ids).2.1.origins =
      store.origins ++ [(store.createAt name brief times ids).1.origin] := by
  rw [origins, projects_createAt, Dict.set_of_not_mem h, Dict.values, List.map_append,
    List.map_append]
  rfl

theorem keys_stepAt (call : StoreCall)
    (hn : (Dict.keys store.projects ++ madeIds [store.eventOf ids times call]).Nodup) :
    Dict.keys (store.stepAt ids times call).1.projects =
      Dict.keys store.projects ++ madeIds [store.eventOf ids times call] := by
  cases call with
  | create name brief =>
      have hnew : (store.createAt name brief times ids).1.id ∉ Dict.keys store.projects :=
        fun hold => List.disjoint_of_nodup_append hn hold (List.mem_singleton.mpr rfl)
      exact Dict.keys_set_of_not_mem hnew _
  | get id => exact (List.append_nil _).symm
  | list => exact (List.append_nil _).symm
  | ping => exact (List.append_nil _).symm
  | save id content =>
      have hmade : madeIds [store.eventOf ids times (.save id content)] = [] := rfl
      rw [hmade, List.append_nil]
      cases hp : store.get? id with
      | none => rw [stepAt_save_of_none hp]
      | some project =>
          have hold : id ∈ Dict.keys store.projects := Dict.mem_keys_of_get? hp
          rw [stepAt_save_of_some hp]
          exact Dict.keys_set_of_mem hold _

/-- The projects stand in the order in which they have been made. -/
theorem keys_run (store : ProjectStore) (ids : IdSource) (calls : List (Readings × StoreCall))
    (hn : (Dict.keys store.projects ++ (run store ids calls).2.2.madeIds).Nodup) :
    Dict.keys (run store ids calls).1.projects =
      Dict.keys store.projects ++ (run store ids calls).2.2.madeIds := by
  induction calls generalizing store ids with
  | nil => exact (List.append_nil _).symm
  | cons entry calls ih =>
      obtain ⟨times, call⟩ := entry
      have hmade : (run store ids ((times, call) :: calls)).2.2.madeIds =
          madeIds [store.eventOf ids times call] ++ ((store.stepAt ids times call).1.run
            (store.stepAt ids times call).2.1 calls).2.2.madeIds := by
        rw [madeIds, madeIds, madeIds, made, made, made, ← List.map_append,
          ← List.filterMap_append]
        rfl
      rw [hmade, ← List.append_assoc] at hn ⊢
      have hstep := keys_stepAt call (List.nodup_append.mp hn).1
      rw [← hstep] at hn ⊢
      exact ih _ _ hn

theorem Reflects.values_projects (h : store.Reflects history) (hn : history.madeIds.Nodup)
    (hk : Dict.keys store.projects = history.madeIds) :
    Dict.values store.projects = history.records := by
  have hvalues : (Dict.values store.projects).map some = history.records.map some := by
    rw [← Dict.map_get?_keys (hk ▸ hn), hk, madeIds, StoreHistory.records, List.map_map,
      List.map_map]
    refine List.map_congr_left fun project hm => ?_
    exact (h.records project.id).trans (record?_of_mem_made hn hm)
  exact List.map_injective_iff.mpr (Option.some_injective Project) hvalues

end ProjectStore

end Sitewright
