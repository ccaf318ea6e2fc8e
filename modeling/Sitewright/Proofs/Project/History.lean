import Sitewright.Project.Store
import Sitewright.Proofs.Dictionary

/-!
# The history of a store

A history lists the calls that a store has served with their readings of the clock and their
answers. As long as no id is given out twice, it tells every record that the store holds: a project
is as it was made, but for its schema and its last update, which are those of its saves. It also
tells which of the next calls will fail.
-/

namespace Sitewright

structure StoreEvent where
  times : Readings
  call : StoreCall
  answer : StoreAnswer

namespace StoreEvent

def made? (event : StoreEvent) : Option Project :=
  match event.call, event.answer with
  | .create _ _, .project project => some project
  | _, _ => none

/-- The content and the time of a save under an id, if the call was one and has succeeded. -/
def saved? (id : String) (event : StoreEvent) : Option (Option Fields × Timestamp) :=
  match event.call, event.answer with
  | .save other content, .project _ =>
      if other = id then some (content, event.times.first) else none
  | _, _ => none

end StoreEvent

abbrev StoreHistory := List StoreEvent

def SchemaRecord.ofSaves (saves : List (Option Fields × Timestamp)) : Option SchemaRecord :=
  saves.getLast?.map fun (content, time) => { content, version := saves.length, updatedAt := time }

/-- A project as it is when it has been saved so, of which saves change nothing else. -/
def Project.afterSaves (project : Project) (saves : List (Option Fields × Timestamp)) : Project :=
  { project with
    schema := SchemaRecord.ofSaves saves
    updatedAt := (saves.getLast?.map (·.2)).getD project.updatedAt }

namespace StoreHistory

def made (history : StoreHistory) : List Project :=
  history.filterMap (·.made?)

def madeIds (history : StoreHistory) : List String :=
  history.made.map (·.id)

def saves (history : StoreHistory) (id : String) : List (Option Fields × Timestamp) :=
  history.filterMap (·.saved? id)

def record? (history : StoreHistory) (id : String) : Option Project :=
  (history.made.find? fun project => project.id == id).map fun project =>
    project.afterSaves (history.saves id)

variable {history : StoreHistory} {event : StoreEvent} {id : String}

theorem made_append (history : StoreHistory) (event : StoreEvent) :
    made (history ++ [event]) = history.made ++ event.made?.toList := by
  rw [made, List.filterMap_append, made]
  cases h : event.made? <;> simp [h]

theorem saves_append (history : StoreHistory) (event : StoreEvent) (id : String) :
    saves (history ++ [event]) id = history.saves id ++ (event.saved? id).toList := by
  rw [saves, List.filterMap_append, saves]
  cases h : event.saved? id <;> simp [h]

theorem nodup_madeIds_of_append {more : StoreHistory} (h : (madeIds (history ++ more)).Nodup) :
    history.madeIds.Nodup := by
  rw [madeIds, made, List.filterMap_append, List.map_append] at h
  exact (List.nodup_append.mp h).1

theorem record?_eq_none_iff : history.record? id = none ↔ id ∉ history.madeIds := by
  simp [record?, madeIds]

theorem record?_append (hmade : event.made? = none) (id : String) :
    record? (history ++ [event]) id = (history.made.find? fun project => project.id == id).map
      fun project => project.afterSaves (history.saves id ++ (event.saved? id).toList) := by
  rw [record?, made_append, hmade, saves_append, Option.toList_none, List.append_nil]

end StoreHistory

theorem Project.save_afterSaves (project : Project) (saves : List (Option Fields × Timestamp))
    (content : Option Fields) (now : Timestamp) :
    (project.afterSaves saves).save content now =
      project.afterSaves (saves ++ [(content, now)]) := by
  simp only [Project.save, afterSaves, SchemaRecord.saved, SchemaRecord.ofSaves,
    List.getLast?_append, List.getLast?_singleton, Option.some_or, Option.map_some,
    Option.getD_some, List.length_append, List.length_singleton]
  cases saves with
  | nil => rfl
  | cons first rest => simp [List.getLast?_cons]

namespace ProjectStore

open StoreHistory

variable {store : ProjectStore} {history : StoreHistory} {ids : IdSource} {times : Readings}

def run (store : ProjectStore) (ids : IdSource) :
    List (Readings × StoreCall) → ProjectStore × IdSource × StoreHistory
  | [] => (store, ids, [])
  | (times, call) :: calls =>
      let (store, ids, answer) := store.stepAt ids times call
      let (store, ids, history) := store.run ids calls
      (store, ids, { times, call, answer } :: history)

/-- The store holds what its history tells, and nothing has been saved under other ids. -/
structure Reflects (store : ProjectStore) (history : StoreHistory) : Prop where
  records : ∀ id, store.get? id = history.record? id
  saves : ∀ id, id ∉ history.madeIds → history.saves id = []

theorem reflects_empty : Reflects {} [] :=
  ⟨fun _ => rfl, fun _ _ => rfl⟩

theorem stepAt_save_of_none {id : String} (h : store.get? id = none) (content : Option Fields) :
    store.stepAt ids times (.save id content) = (store, ids, .failed (.projectNotFound id)) := by
  simp only [stepAt, save, h]
  rfl

theorem stepAt_save_of_some {id : String} {project : Project} (h : store.get? id = some project)
    (content : Option Fields) :
    store.stepAt ids times (.save id content) =
      ({ store with
          projects := Dict.set id (project.save content times.first) store.projects }, ids,
        .project (project.save content times.first)) := by
  simp only [stepAt, save, h]

def eventOf (store : ProjectStore) (ids : IdSource) (times : Readings) (call : StoreCall) :
    StoreEvent :=
  { times, call, answer := (store.stepAt ids times call).2.2 }

theorem Reflects.quiet (h : store.Reflects history) {event : StoreEvent}
    (hmade : event.made? = none) (hsaved : ∀ id, event.saved? id = none) :
    store.Reflects (history ++ [event]) := by
  refine ⟨fun id => ?_, fun id hid => ?_⟩
  · rw [record?_append hmade, hsaved, Option.toList_none, List.append_nil]
    exact h.records id
  · rw [madeIds, made_append, hmade, Option.toList_none, List.append_nil] at hid
    rw [saves_append, hsaved, Option.toList_none, List.append_nil]
    exact h.saves id hid

theorem Reflects.create (h : store.Reflects history) (name : String) (brief : Option Fields)
    (hnew : (store.createAt name brief times ids).1.id ∉ history.madeIds) :
    (store.createAt name brief times ids).2.1.Reflects
      (history ++ [store.eventOf ids times (.create name brief)]) := by
  have hmade : (store.eventOf ids times (.create name brief)).made? =
      some (store.createAt name brief times ids).1 := rfl
  have hplain : (store.createAt name brief times ids).1.afterSaves [] =
      (store.createAt name brief times ids).1 := rfl
  have hstore : (store.createAt name brief times ids).2.1.projects =
      Dict.set (store.createAt name brief times ids).1.id (store.createAt name brief times ids).1
        store.projects := rfl
  have hsaves (id : String) : StoreHistory.saves
      (history ++ [store.eventOf ids times (.create name brief)]) id = history.saves id := by
    rw [saves_append]
    exact List.append_nil _
  generalize (store.createAt name brief times ids).1 = project at *
  refine ⟨fun id => ?_, fun id hid => ?_⟩
  · rw [get?, hstore, record?, made_append, hmade, hsaves, Option.toList_some, List.find?_append]
    by_cases hi : id = project.id
    -- Nothing has been saved under a new id, so the project is found as it was made.
    · have hnone : history.made.find? (fun other => other.id == id) = none :=
        Option.map_eq_none_iff.mp (record?_eq_none_iff.mpr (hi ▸ hnew))
      rw [hi] at hnone ⊢
      simp [hnone, h.saves _ hnew, hplain]
    · rw [Dict.get?_set_of_ne hi, List.find?_singleton, if_neg (by simpa using Ne.symm hi),
        Option.or_none]
      exact h.records id
  · rw [madeIds, made_append, List.map_append, List.mem_append, not_or] at hid
    rw [hsaves]
    exact h.saves id hid.1

theorem Reflects.save (h : store.Reflects history) {id : String} {project : Project}
    (hp : store.get? id = some project) (content : Option Fields) :
    (store.stepAt ids times (.save id content)).1.Reflects
      (history ++ [store.eventOf ids times (.save id content)]) := by
  have hstep := @stepAt_save_of_some _ ids times _ _ hp content
  have hmade : (store.eventOf ids times (.save id content)).made? = none := rfl
  have hsaved (other : String) : (store.eventOf ids times (.save id content)).saved? other =
      if id = other then some (content, times.first) else none := by
    simp only [eventOf, hstep, StoreEvent.saved?]
  rw [hstep]
  refine ⟨fun other => ?_, fun other hother => ?_⟩
  · rw [record?_append hmade, hsaved]
    by_cases ho : other = id
    · obtain ⟨made, hm, rfl⟩ : ∃ made, history.made.find? (fun project => project.id == id) =
          some made ∧ made.afterSaves (history.saves id) = project := by
        rw [← Option.map_eq_some_iff, ← record?, ← h.records, hp]
      subst ho
      rw [get?, Dict.get?_set_self, hm, Project.save_afterSaves]
      simp
    · rw [get?, Dict.get?_set_of_ne ho, if_neg (Ne.symm ho), Option.toList_none, List.append_nil]
      exact h.records other
  · rw [madeIds, made_append, hmade, Option.toList_none, List.append_nil] at hother
    have ho : id ≠ other := by
      rintro rfl
      rw [h.records, record?_eq_none_iff.mpr hother] at hp
      cases hp
    rw [saves_append, hsaved, if_neg ho, Option.toList_none, List.append_nil]
    exact h.saves other hother

/-- A store goes on holding what its history tells. -/
theorem Reflects.stepAt (h : store.Reflects history) (call : StoreCall)
    (hn : (madeIds (history ++ [store.eventOf ids times call])).Nodup) :
    (store.stepAt ids times call).1.Reflects (history ++ [store.eventOf ids times call]) := by
  cases call with
  | create name brief =>
      refine h.create name brief fun hold => ?_
      rw [madeIds, made_append, List.map_append] at hn
      exact List.disjoint_of_nodup_append hn hold (List.mem_singleton.mpr rfl)
  | get id => exact h.quiet rfl fun _ => rfl
  | list => exact h.quiet rfl fun _ => rfl
  | ping => exact h.quiet rfl fun _ => rfl
  | save id content =>
      cases hp : store.get? id with
      | some project => exact h.save hp content
      | none =>
          have hanswer : (store.eventOf ids times (.save id content)).answer =
              .failed (.projectNotFound id) := congrArg (·.2.2) (stepAt_save_of_none hp content)
          rw [stepAt_save_of_none hp]
          refine h.quiet rfl fun other => ?_
          simp only [StoreEvent.saved?, hanswer]
          rfl

theorem Reflects.run (h : store.Reflects history) (ids : IdSource)
    (calls : List (Readings × StoreCall))
    (hn : (madeIds (history ++ (store.run ids calls).2.2)).Nodup) :
    (store.run ids calls).1.Reflects (history ++ (store.run ids calls).2.2) := by
  induction calls generalizing store ids history with
  | nil => simpa [ProjectStore.run] using h
  | cons entry calls ih =>
      obtain ⟨times, call⟩ := entry
      have hrun : (store.run ids ((times, call) :: calls)).2.2 =
          [store.eventOf ids times call] ++ ((store.stepAt ids times call).1.run
            (store.stepAt ids times call).2.1 calls).2.2 := rfl
      rw [hrun, ← List.append_assoc] at hn ⊢
      have hfirst := h.stepAt call (nodup_madeIds_of_append hn)
      exact ih hfirst _ hn

theorem get?_save_of_ne {id other : String} (ho : other ≠ id) (content : Option Fields) :
    (store.stepAt ids times (.save id content)).1.get? other = store.get? other := by
  cases hp : store.get? id with
  | none => rw [stepAt_save_of_none hp]
  | some project =>
      rw [stepAt_save_of_some hp]
      exact Dict.get?_set_of_ne ho _ _

theorem Reflects.get?_eq_none_iff (h : store.Reflects history) {id : String} :
    store.get? id = none ↔ id ∉ history.madeIds := by
  rw [h.records, record?_eq_none_iff]

/-- A save succeeds exactly if its project has been made, and changes nothing if not. -/
theorem Reflects.next_save (h : store.Reflects history) (ids : IdSource) (times : Readings)
    (id : String) (content : Option Fields) :
    let next := store.stepAt ids times (.save id content)
    (next.2.2 = .failed (.projectNotFound id) ↔ id ∉ history.madeIds) ∧
      (id ∉ history.madeIds → next.1 = store) ∧
      (id ∈ history.madeIds → ∃ project, next.2.2 = .project project ∧
        next.1.get? id = some project) := by
  intro next
  cases hp : store.get? id with
  | none =>
      have hout : id ∉ history.madeIds := h.get?_eq_none_iff.mp hp
      have hnext : next = (store, ids, .failed (.projectNotFound id)) :=
        stepAt_save_of_none hp content
      rw [hnext]
      exact ⟨iff_of_true rfl hout, fun _ => rfl, fun hin => absurd hin hout⟩
  | some project =>
      have hin : ¬ id ∉ history.madeIds := by
        rw [← h.get?_eq_none_iff, hp]
        nofun
      have hnext : next = (_, ids, .project (project.save content times.first)) :=
        stepAt_save_of_some hp content
      rw [hnext]
      exact ⟨iff_of_false nofun hin, fun hout => absurd hout hin,
        fun _ => ⟨_, rfl, Dict.get?_set_self _ _ _⟩⟩

/-- From an empty store on and with no id given out twice, a project is as it was made but for its
saves: it has no schema before the first one, and then the content and the time of the last one and
as many versions as there are. A save fails if no project has been made under its id, and then
changes nothing. Other projects never change by it. -/
theorem run_reflects_history (ids : IdSource) (calls : List (Readings × StoreCall))
    (hn : (run {} ids calls).2.2.madeIds.Nodup) :
    let store := (run {} ids calls).1
    let rest := (run {} ids calls).2.1
    let history := (run {} ids calls).2.2
    (∀ id, store.get? id = history.record? id) ∧
      ∀ times id,
        ((store.stepAt rest times (.get id)).2.2 = .found none ↔ id ∉ history.madeIds) ∧
        ∀ content,
          let next := store.stepAt rest times (.save id content)
          (next.2.2 = .failed (.projectNotFound id) ↔ id ∉ history.madeIds) ∧
          (id ∉ history.madeIds → next.1 = store) ∧
          (id ∈ history.madeIds → ∃ project, next.2.2 = .project project ∧
            next.1.get? id = some project) ∧
          ∀ other, other ≠ id → next.1.get? other = store.get? other := by
  intro store rest history
  have hreflects : store.Reflects history := reflects_empty.run ids calls hn
  refine ⟨hreflects.records, fun times id => ⟨?_, fun content => ?_⟩⟩
  · rw [← hreflects.get?_eq_none_iff, stepAt, StoreAnswer.found.injEq]
  · obtain ⟨hfailed, hkept, hsaved⟩ := hreflects.next_save rest times id content
    exact ⟨hfailed, hkept, hsaved, fun other ho => get?_save_of_ne ho content⟩

/-- Two projects, saves of the first one while the clock goes backwards, and one that fails. -/
def callsBackwards : List (Readings × StoreCall) :=
  [(⟨{ micros := 9 }, { micros := 8 }, { micros := 7 }⟩, .create "A" none),
   (.constant { micros := 6 }, .save "prj_19700101000000_a" none),
   (.constant { micros := 5 }, .create "B" none),
   (.constant { micros := 4 }, .save "prj_19700101000000_a" (some [])),
   (.constant { micros := 3 }, .save "prj_19700101000000_c" none)]

theorem run_callsBackwards :
    let done := run {} (.ofList ["a", "b"]) callsBackwards
    done.2.2.madeIds.Nodup ∧
      (done.1.get? "prj_19700101000000_a").bind (·.schema.map (·.version)) = some 2 := by
  have hn : (run {} (.ofList ["a", "b"]) callsBackwards).2.2.madeIds.Nodup := by
    decide +kernel
  refine ⟨hn, ?_⟩
  rw [(run_reflects_history _ _ hn).1]
  decide +kernel

end ProjectStore

end Sitewright
