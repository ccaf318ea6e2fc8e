import Sitewright.Proofs.Decimal.Digits
import Sitewright.Proofs.Project.History

/-!
# Projects that are made anew

A new project goes by the second in which it is made and by a draw. Nothing asks whether the store
has a project of that id: if it has, the new one takes its place. So a store gets one more project
and keeps those that it has exactly if none of them was made in the same second with the same draw.
-/

namespace Sitewright

/-! ## Ids of projects -/

namespace Timestamp

theorem underscore_not_mem_natDigits (n : Nat) : '_' ∉ Decimal.natDigits n := by
  intro h
  exact absurd (Decimal.isDigit_of_mem_natDigits h) (by decide)

theorem underscore_not_mem_padded (width : Nat) (n : Int) : '_' ∉ padded width n := by
  intro h
  rcases List.mem_append.mp h with hz | hd
  · exact absurd (List.eq_of_mem_replicate hz) (by decide)
  · exact underscore_not_mem_natDigits _ hd

theorem underscore_not_mem_intDigits (n : Int) : '_' ∉ Decimal.intDigits n := by
  intro h
  cases n with
  | ofNat n => exact underscore_not_mem_natDigits n h
  | negSucc n =>
      rcases List.mem_cons.mp h with hs | hd
      · exact absurd hs (by decide)
      · exact underscore_not_mem_natDigits _ hd

theorem underscore_not_mem_compact (t : Timestamp) : '_' ∉ t.compact.toList := by
  simp [compact, underscore_not_mem_padded, underscore_not_mem_intDigits]

end Timestamp

/-- A text before the first underscore is told apart from the text behind it. -/
theorem eq_of_append_underscore {front other back rest : List Char} (hf : '_' ∉ front)
    (ho : '_' ∉ other) (h : front ++ '_' :: back = other ++ '_' :: rest) :
    front = other ∧ back = rest := by
  rcases List.append_eq_append_iff.mp h with ⟨more, rfl, hm⟩ | ⟨more, rfl, hm⟩
  · cases more with
    | nil => simpa using hm
    | cons c more =>
        obtain ⟨rfl, -⟩ := List.cons_eq_cons.mp hm
        exact absurd (List.mem_append_right _ List.mem_cons_self) ho
  · cases more with
    | nil => simpa [eq_comm] using hm
    | cons c more =>
        obtain ⟨rfl, -⟩ := List.cons_eq_cons.mp hm
        exact absurd (List.mem_append_right _ List.mem_cons_self) hf

namespace ProjectStore

variable {store : ProjectStore} {ids more : IdSource} {times : Readings} {name : String}
  {brief : Option Fields} {id : String}

/-- The id shows the second and the draw. -/
theorem newId_eq_iff {t s : Timestamp} {draw other : String} :
    newId t draw = newId s other ↔ t.compact = s.compact ∧ draw = other := by
  constructor
  · intro h
    have hl := congrArg String.toList h
    have hline (t : Timestamp) (draw : String) : (newId t draw).toList =
        "prj_".toList ++ (t.compact.toList ++ '_' :: draw.toList) := by
      simp [newId]
    rw [hline, hline, List.append_right_inj] at hl
    obtain ⟨hc, hd⟩ := eq_of_append_underscore t.underscore_not_mem_compact
      s.underscore_not_mem_compact hl
    exact ⟨String.toList_inj.mp hc, String.toList_inj.mp hd⟩
  · rintro ⟨hc, rfl⟩
    rw [newId, newId, hc]

/-! ## One creation -/

structure Adds (store : ProjectStore) (made : Project) (later : ProjectStore) : Prop where
  fresh : store.get? made.id = none
  found : later.get? made.id = some made
  kept : ∀ id project, store.get? id = some project → later.get? id = some project
  listed : later.list.Perm (made :: store.list)

theorem list_perm (store : ProjectStore) : store.list.Perm (Dict.values store.projects) :=
  List.mergeSort_perm _ _

theorem projects_createAt (store : ProjectStore) (name : String) (brief : Option Fields)
    (times : Readings) (more : IdSource) :
    (store.createAt name brief times more).2.1.projects =
      Dict.set (store.createAt name brief times more).1.id
        (store.createAt name brief times more).1 store.projects := rfl

theorem get?_createAt_self (store : ProjectStore) (name : String) (brief : Option Fields)
    (times : Readings) (more : IdSource) :
    (store.createAt name brief times more).2.1.get? (store.createAt name brief times more).1.id =
      some (store.createAt name brief times more).1 :=
  Dict.get?_set_self _ _ _

theorem get?_createAt_of_ne (name : String) (brief : Option Fields)
    (h : id ≠ newId times.first more.next.1) :
    (store.createAt name brief times more).2.1.get? id = store.get? id :=
  Dict.get?_set_of_ne h _ _

theorem adds_of_fresh (name : String) (brief : Option Fields)
    (h : store.get? (newId times.first more.next.1) = none) :
    store.Adds (store.createAt name brief times more).1
      (store.createAt name brief times more).2.1 where
  fresh := h
  found := get?_createAt_self store name brief times more
  kept id project hp := by
    have hne : id ≠ newId times.first more.next.1 := by
      rintro rfl
      rw [h] at hp
      cases hp
    rw [get?_createAt_of_ne name brief hne, hp]
  listed := by
    have hnew : (store.createAt name brief times more).1.id ∉ Dict.keys store.projects :=
      Dict.get?_eq_none_iff.mp h
    refine (list_perm _).trans (.trans ?_ ((list_perm store).symm.cons _))
    rw [projects_createAt, Dict.set_of_not_mem hnew, Dict.values, List.map_append]
    exact List.perm_append_singleton _ _

theorem length_list (store : ProjectStore) :
    store.list.length = (Dict.keys store.projects).length := by
  rw [(list_perm store).length_eq, Dict.values, Dict.keys, List.length_map, List.length_map]

/-- A project that is made under an id that is taken is no further one. -/
theorem length_list_of_taken (name : String) (brief : Option Fields)
    (h : store.get? (newId times.first more.next.1) ≠ none) :
    (store.createAt name brief times more).2.1.list.length = store.list.length := by
  have hold : (store.createAt name brief times more).1.id ∈ Dict.keys store.projects :=
    not_not.mp fun hn => h (Dict.get?_eq_none_iff.mpr hn)
  rw [length_list, length_list, projects_createAt, Dict.keys_set_of_mem hold]

/-! ## Runs -/

def creations (ids : IdSource) : List (Readings × StoreCall) → List (Timestamp × String)
  | [] => []
  | (times, .create _ _) :: calls => (times.first, ids.next.1) :: creations ids.next.2 calls
  | _ :: calls => creations ids calls

theorem ids_save (store : ProjectStore) (ids : IdSource) (times : Readings) (id : String)
    (content : Option Fields) : (store.stepAt ids times (.save id content)).2.1 = ids := by
  cases hp : store.get? id with
  | none => rw [stepAt_save_of_none hp]
  | some project => rw [stepAt_save_of_some hp]

theorem get?_save_eq_none_iff (content : Option Fields) (other : String) :
    (store.stepAt ids times (.save other content)).1.get? id = none ↔ store.get? id = none := by
  by_cases ho : id = other
  · subst ho
    cases hp : store.get? id with
    | none => rw [stepAt_save_of_none hp, hp]
    | some project =>
        rw [stepAt_save_of_some hp, get?, Dict.get?_set_self]
        exact iff_of_false (Option.some_ne_none _) (Option.some_ne_none _)
  · rw [get?_save_of_ne ho]

/-- The ids that are taken after a run are those that were and those of its creations. -/
theorem get?_run_eq_none_iff (store : ProjectStore) (ids : IdSource)
    (calls : List (Readings × StoreCall)) (id : String) :
    (run store ids calls).1.get? id = none ↔ store.get? id = none ∧
      ∀ made ∈ creations ids calls, newId made.1 made.2 ≠ id := by
  induction calls generalizing store ids with
  | nil => simp [run, creations]
  | cons entry calls ih =>
      obtain ⟨times, call⟩ := entry
      have hrun : (run store ids ((times, call) :: calls)).1 =
          (run (store.stepAt ids times call).1 (store.stepAt ids times call).2.1 calls).1 := rfl
      rw [hrun, ih]
      cases call with
      | create name brief =>
          have hstep : (store.stepAt ids times (.create name brief)).1.get? id = none ↔
              newId times.first ids.next.1 ≠ id ∧ store.get? id = none := by
            by_cases hi : id = newId times.first ids.next.1
            · subst hi
              refine iff_of_false ?_ fun h => h.1 rfl
              have hfound := get?_createAt_self store name brief times ids
              exact fun hn => Option.some_ne_none _ (hfound.symm.trans hn)
            · change (store.createAt name brief times ids).2.1.get? id = none ↔ _
              rw [get?_createAt_of_ne name brief hi]
              exact (and_iff_right (Ne.symm hi)).symm
          rw [hstep]
          change _ ∧ (∀ made ∈ creations ids.next.2 calls, _) ↔
            _ ∧ ∀ made ∈ (times.first, ids.next.1) :: creations ids.next.2 calls, _
          rw [List.forall_mem_cons, and_assoc, and_left_comm]
      | save other content =>
          rw [get?_save_eq_none_iff, ids_save]
          exact Iff.rfl
      | get other | list | ping => exact Iff.rfl

/-- A creation adds a project to the store exactly if no earlier creation has read the same second
from the clock with the same draw. If one has, the new project takes the place of the old one, and
the list gets no longer. Projects under other ids stay what they are in any case. -/
theorem createAt_adds_iff (ids : IdSource) (calls : List (Readings × StoreCall)) (name : String)
    (brief : Option Fields) (times : Readings) (more : IdSource) :
    let store := (run {} ids calls).1
    let made := (store.createAt name brief times more).1
    let later := (store.createAt name brief times more).2.1
    (store.Adds made later ↔ ∀ earlier ∈ creations ids calls,
      earlier.1.compact = times.first.compact → earlier.2 ≠ more.next.1) ∧
    (¬ store.Adds made later → later.list.length = store.list.length) ∧
    later.get? made.id = some made ∧ ∀ id, id ≠ made.id → later.get? id = store.get? id := by
  intro store made later
  have hfresh : store.get? made.id = none ↔ ∀ earlier ∈ creations ids calls,
      earlier.1.compact = times.first.compact → earlier.2 ≠ more.next.1 := by
    have hid : made.id = newId times.first more.next.1 := rfl
    have hempty : get? {} made.id = none := rfl
    rw [get?_run_eq_none_iff, and_iff_right hempty, hid]
    exact forall₂_congr fun earlier _ => by rw [Ne, newId_eq_iff, not_and]
  refine ⟨⟨fun h => hfresh.mp h.fresh, fun h => adds_of_fresh name brief (hfresh.mpr h)⟩,
    fun h => length_list_of_taken name brief fun hn => h (adds_of_fresh name brief hn),
    get?_createAt_self store name brief times more,
    fun id hid => get?_createAt_of_ne name brief hid⟩

/-- Two projects are made in one second with the same draw, and the first one is lost. -/
theorem createAt_takes_over :
    let done := run {} (.ofList ["a", "a"]) [(.constant { micros := 0 }, .create "A" none)]
    let next := done.1.createAt "B" none (.constant { micros := 1 }) done.2.1
    ¬ done.1.Adds next.1 next.2.1 ∧
      (done.1.get? next.1.id).map (·.name) = some "A" ∧
      (next.2.1.get? next.1.id).map (·.name) = some "B" ∧
      next.2.1.list.length = done.1.list.length := by
  intro done next
  have hnow : next.1.id = newId { micros := 0 } "a" :=
    newId_eq_iff.mpr ⟨rfl, by decide⟩
  have hold : (done.1.get? next.1.id).map (·.name) = some "A" := by
    rw [hnow]
    exact congrArg (Option.map (·.name)) (get?_createAt_self {} "A" none _ _)
  have htaken : done.1.get? next.1.id ≠ none := by
    intro hn
    rw [hn] at hold
    cases hold
  refine ⟨fun h => htaken h.fresh, hold, ?_, length_list_of_taken "B" none htaken⟩
  exact congrArg (Option.map (·.name)) (get?_createAt_self done.1 "B" none _ _)

end ProjectStore

end Sitewright
