import Mathlib.Data.Finset.Card
import Mathlib.Order.Interval.Finset.Nat
import Sitewright.Registry.Defaults

/-!
# The search for a free id

A search goes past the draws whose ids are taken and stops at the first one whose id is free. Its
patience decides on nothing but whether it gets that far, so a section can be made, with enough of
it, just when some draw is free. Of more draws than there are taken ids one is free if they differ.
-/

namespace Sitewright

/-! ## The first free position -/

namespace IdSource

/-- The first position from `position` on whose id is free is `found`. -/
structure FirstFree (idAt : Nat → String) (taken : List String) (position found : Nat) : Prop where
  le : position ≤ found
  free : idAt found ∉ taken
  before : ∀ other, position ≤ other → other < found → idAt other ∈ taken

variable {idAt : Nat → String} {taken : List String} {fuel position found other : Nat}

theorem FirstFree.unique (h : FirstFree idAt taken position found)
    (ho : FirstFree idAt taken position other) : found = other := by
  rcases Nat.lt_trichotomy found other with hlt | rfl | hlt
  · exact absurd (ho.before found h.le hlt) h.free
  · rfl
  · exact absurd (h.before other ho.le hlt) ho.free

theorem firstFree_iff_of_not_mem (hp : idAt position ∉ taken) :
    FirstFree idAt taken position found ↔ found = position := by
  constructor
  · intro h
    by_contra hne
    exact hp (h.before position le_rfl (Nat.lt_of_le_of_ne h.le (Ne.symm hne)))
  · rintro rfl
    exact ⟨le_rfl, hp, fun other hle hlt => absurd hlt (Nat.not_lt.mpr hle)⟩

/-- The search goes past an id that is taken. -/
theorem firstFree_iff_of_mem (hp : idAt position ∈ taken) :
    FirstFree idAt taken position found ↔ FirstFree idAt taken (position + 1) found := by
  constructor
  · intro h
    have hne : position ≠ found := by
      rintro rfl
      exact h.free hp
    exact ⟨Nat.lt_of_le_of_ne h.le hne, h.free,
      fun other hle => h.before other (Nat.le_of_succ_le hle)⟩
  · intro h
    refine ⟨Nat.le_of_succ_le h.le, h.free, fun other hle hlt => ?_⟩
    rcases Nat.eq_or_lt_of_le hle with rfl | hnext
    · exact hp
    · exact h.before other hnext hlt

theorem exists_firstFree_iff :
    (∃ found, FirstFree idAt taken position found) ↔
      ∃ other, position ≤ other ∧ idAt other ∉ taken := by
  constructor
  · rintro ⟨found, h⟩
    exact ⟨found, h.le, h.free⟩
  · intro h
    classical
    obtain ⟨hle, hfree⟩ := Nat.find_spec h
    refine ⟨Nat.find h, hle, hfree, fun other ho hlt => ?_⟩
    by_contra hn
    exact Nat.find_min h hlt ⟨ho, hn⟩

theorem firstFree?_eq_some_iff :
    firstFree? idAt taken fuel position = some found ↔
      FirstFree idAt taken position found ∧ found < position + fuel := by
  induction fuel generalizing position with
  | zero =>
      refine iff_of_false nofun ?_
      rintro ⟨h, hlt⟩
      exact absurd h.le (Nat.not_le.mpr hlt)
  | succ fuel ih =>
      by_cases hp : idAt position ∈ taken
      · have hstep : firstFree? idAt taken (fuel + 1) position =
            firstFree? idAt taken fuel (position + 1) := by
          rw [firstFree?, if_pos (List.contains_iff_mem.mpr hp)]
        rw [hstep, ih, firstFree_iff_of_mem hp, Nat.add_assoc, Nat.add_comm 1]
      · have hstep : firstFree? idAt taken (fuel + 1) position = some position := by
          rw [firstFree?, if_neg fun hc => hp (List.contains_iff_mem.mp hc)]
        rw [hstep, firstFree_iff_of_not_mem hp, Option.some.injEq, eq_comm]
        refine ⟨fun h => ⟨h, ?_⟩, And.left⟩
        rw [h]
        exact Nat.lt_add_of_pos_right (Nat.succ_pos _)

/-- Of more ids than are taken one is free, as long as they differ. -/
theorem exists_free_of_injOn
    (h : Set.InjOn idAt (Set.Icc position (position + taken.toFinset.card))) :
    ∃ other, position ≤ other ∧ other ≤ position + taken.toFinset.card ∧ idAt other ∉ taken := by
  let drawn := (Finset.Icc position (position + taken.toFinset.card)).image idAt
  have hcard : drawn.card = taken.toFinset.card + 1 := by
    rw [Finset.card_image_of_injOn (by rwa [Finset.coe_Icc]), Nat.card_Icc]
    omega
  have hmore : taken.toFinset.card < drawn.card := by
    rw [hcard]
    exact Nat.lt_succ_self _
  obtain ⟨id, hid, hfree⟩ := Finset.exists_mem_notMem_of_card_lt_card hmore
  obtain ⟨other, ho, rfl⟩ := Finset.mem_image.mp hid
  obtain ⟨hle, hlt⟩ := Finset.mem_Icc.mp ho
  exact ⟨other, hle, hlt, fun hm => hfree (List.mem_toFinset.mpr hm)⟩

def candidate (ids : IdSource) (stem : String) (position : Nat) : String :=
  stem ++ ids.suffix position

theorem fresh?_eq_some_iff {ids next : IdSource} {stem id : String} :
    ids.fresh? stem taken = some (id, next) ↔
      ∃ found, FirstFree (ids.candidate stem) taken ids.used found ∧
        found < ids.used + ids.patience ∧ id = ids.candidate stem found ∧
        next = { ids with used := found + 1 } := by
  have hsearch : ids.fresh? stem taken =
      (firstFree? (ids.candidate stem) taken ids.patience ids.used).map fun position =>
        (ids.candidate stem position, { ids with used := position + 1 }) := rfl
  rw [hsearch, Option.map_eq_some_iff]
  constructor
  · rintro ⟨found, hf, he⟩
    obtain ⟨hfirst, hlt⟩ := firstFree?_eq_some_iff.mp hf
    cases he
    exact ⟨found, hfirst, hlt, rfl, rfl⟩
  · rintro ⟨found, hfirst, hlt, rfl, rfl⟩
    exact ⟨found, firstFree?_eq_some_iff.mpr ⟨hfirst, hlt⟩, rfl⟩

end IdSource

/-! ## New sections -/

namespace Registry

variable {registry : Registry} {kind : SectionKind} {props : Option Fields} {taken : List String}
  {ids next : IdSource} {made : Section} {draws : Nat}

def sectionAt (registry : Registry) (kind : SectionKind) (props : Option Fields) (ids : IdSource)
    (position : Nat) : Section where
  id := ids.candidate (idStem kind) position
  type := kind.name
  props := props.getD (registry.definition kind).defaultProps

theorem createSection_eq_ok_iff :
    registry.createSection kind props taken ids = .ok (made, next) ↔
      ∃ found, IdSource.FirstFree (ids.candidate (idStem kind)) taken ids.used found ∧
        found < ids.used + ids.patience ∧ made = registry.sectionAt kind props ids found ∧
        next = { ids with used := found + 1 } := by
  rw [createSection]
  cases hf : ids.fresh? (idStem kind) taken with
  | none =>
      refine iff_of_false nofun ?_
      rintro ⟨found, hfirst, hlt, -, -⟩
      rw [IdSource.fresh?_eq_some_iff.mpr ⟨found, hfirst, hlt, rfl, rfl⟩] at hf
      cases hf
  | some result =>
      obtain ⟨id, rest⟩ := result
      obtain ⟨found, hfirst, hlt, rfl, rfl⟩ := IdSource.fresh?_eq_some_iff.mp hf
      constructor
      · rintro ⟨⟩
        exact ⟨found, hfirst, hlt, rfl, rfl⟩
      · rintro ⟨other, ho, -, rfl, rfl⟩
        rw [ho.unique hfirst]
        rfl

theorem createSection_eq_ok (h : registry.createSection kind props taken ids = .ok (made, next)) :
    made.id ∉ taken ∧ made.type = kind.name ∧
      made.props = props.getD (registry.definition kind).defaultProps ∧ made.extra = [] := by
  obtain ⟨found, hfirst, -, rfl, -⟩ := createSection_eq_ok_iff.mp h
  exact ⟨hfirst.free, rfl, rfl, rfl⟩

theorem createSection_eq_error {cause : SiteError}
    (h : registry.createSection kind props taken ids = .error cause) : cause = .noFreeId := by
  rw [createSection] at h
  cases hf : ids.fresh? (idStem kind) taken with
  | none =>
      rw [hf] at h
      cases h
      rfl
  | some found =>
      rw [hf] at h
      cases h

/-- Making the section takes this many draws: a search with less patience gives up, and one with
more makes it all the same. -/
def CreatesAfter (registry : Registry) (kind : SectionKind) (props : Option Fields)
    (taken : List String) (ids : IdSource) (draws : Nat) (made : Section) : Prop :=
  ∀ patience, registry.createSection kind props taken { ids with patience } =
    if draws ≤ patience then .ok (made, { ids with used := ids.used + draws, patience })
    else .error .noFreeId

theorem createsAfter_iff :
    registry.CreatesAfter kind props taken ids draws made ↔
      ∃ found, IdSource.FirstFree (ids.candidate (idStem kind)) taken ids.used found ∧
        found + 1 = ids.used + draws ∧ made = registry.sectionAt kind props ids found := by
  constructor
  · intro h
    have hmade := h draws
    rw [if_pos le_rfl] at hmade
    obtain ⟨found, hfirst, -, rfl, hnext⟩ := createSection_eq_ok_iff.mp hmade
    exact ⟨found, hfirst, (congrArg IdSource.used hnext).symm, rfl⟩
  · rintro ⟨found, hfirst, hdraws, rfl⟩ patience
    by_cases hp : draws ≤ patience
    · have hlt : found < ids.used + patience := by omega
      rw [if_pos hp]
      exact createSection_eq_ok_iff.mpr ⟨found, hfirst, hlt, rfl, by rw [hdraws]⟩
    · rw [if_neg hp]
      cases hc : registry.createSection kind props taken { ids with patience } with
      | error cause => rw [createSection_eq_error hc]
      | ok result =>
          -- a search that gets so far has found the same draw, which is out of its reach
          obtain ⟨other, ho, hreach, -, -⟩ := createSection_eq_ok_iff.mp hc
          have hsame : other = found := ho.unique hfirst
          have hlt : other < ids.used + patience := hreach
          omega

theorem exists_createsAfter_iff :
    (∃ draws made, registry.CreatesAfter kind props taken ids draws made) ↔
      ∃ position, ids.used ≤ position ∧ ids.candidate (idStem kind) position ∉ taken := by
  rw [← IdSource.exists_firstFree_iff]
  constructor
  · rintro ⟨draws, made, h⟩
    obtain ⟨found, hfirst, -⟩ := createsAfter_iff.mp h
    exact ⟨found, hfirst⟩
  · rintro ⟨found, hfirst⟩
    obtain ⟨n, rfl⟩ := Nat.exists_eq_add_of_le hfirst.le
    exact ⟨n + 1, _, createsAfter_iff.mpr ⟨_, hfirst, rfl, rfl⟩⟩

theorem createSection_of_all_taken
    (h : ∀ position, ids.used ≤ position → ids.candidate (idStem kind) position ∈ taken)
    (patience : Nat) :
    registry.createSection kind props taken { ids with patience } = .error .noFreeId := by
  cases hc : registry.createSection kind props taken { ids with patience } with
  | error cause => rw [createSection_eq_error hc]
  | ok result =>
      obtain ⟨found, hfirst, -⟩ := createSection_eq_ok_iff.mp hc
      exact absurd (h found hfirst.le) hfirst.free

/-- One of the draws that differ is free, and the search does not go beyond it. -/
theorem exists_createsAfter_of_injOn {position : Nat} (hp : ids.used ≤ position)
    (h : Set.InjOn ids.suffix (Set.Icc position (position + taken.toFinset.card))) :
    ∃ draws made, registry.CreatesAfter kind props taken ids draws made ∧
      ids.used + draws ≤ position + (taken.toFinset.card + 1) := by
  have hdiffer : Set.InjOn (ids.candidate (idStem kind))
      (Set.Icc position (position + taken.toFinset.card)) :=
    fun _ hi _ hj he => h hi hj ((String.append_right_inj _).mp he)
  obtain ⟨other, hle, hlast, hfree⟩ := IdSource.exists_free_of_injOn hdiffer
  obtain ⟨draws, made, hmade⟩ := exists_createsAfter_iff.mpr ⟨other, hp.trans hle, hfree⟩
  obtain ⟨found, hfirst, hdraws, -⟩ := createsAfter_iff.mp hmade
  have hfound : found ≤ other := by
    by_contra hn
    exact hfree (hfirst.before other (hp.trans hle) (Nat.lt_of_not_le hn))
  exact ⟨draws, made, hmade, by omega⟩

/-- A section can be made if and only if one of the draws to come makes an id that is not taken. It
gets the id of the first such draw, the props that are given or those of its kind, and the draws up
to that one are used. Of draws that differ from some position on there need be no more than one
beyond the number of taken ids. -/
theorem createSection_takes_first_free (registry : Registry) (kind : SectionKind)
    (props : Option Fields) (taken : List String) (ids : IdSource) :
    ((∃ draws made, registry.CreatesAfter kind props taken ids draws made) ↔
      ∃ position, ids.used ≤ position ∧ ids.candidate (idStem kind) position ∉ taken) ∧
    ((∀ position, ids.used ≤ position → ids.candidate (idStem kind) position ∈ taken) →
      ∀ patience,
        registry.createSection kind props taken { ids with patience } = .error .noFreeId) ∧
    (∀ draws made, registry.CreatesAfter kind props taken ids draws made →
      ∃ found, IdSource.FirstFree (ids.candidate (idStem kind)) taken ids.used found ∧
        found + 1 = ids.used + draws ∧
        made =
          { id := "sec-" ++ kind.name ++ "-" ++ ids.suffix found
            type := kind.name
            props := props.getD (registry.definition kind).defaultProps }) ∧
    ∀ position, ids.used ≤ position →
      Set.InjOn ids.suffix (Set.Icc position (position + taken.toFinset.card)) →
      ∃ draws made, registry.CreatesAfter kind props taken ids draws made ∧
        ids.used + draws ≤ position + (taken.toFinset.card + 1) := by
  exact ⟨exists_createsAfter_iff, createSection_of_all_taken,
    fun draws made => createsAfter_iff.mp, fun position => exists_createsAfter_of_injOn⟩

/-- The second draw repeats the first one, whose id is taken. -/
def repeatingDraws : IdSource :=
  .ofList ["a", "a", "b"]

theorem createSection_takes_first_free_repeating :
    Set.InjOn repeatingDraws.suffix (Set.Icc 1 2) ∧
      ∃ made, default.CreatesAfter .hero none ["sec-hero-a"] repeatingDraws 3 made ∧
        made.id = "sec-hero-b" := by
  have hinj : Set.InjOn repeatingDraws.suffix (Set.Icc 1 2) := by
    rintro i ⟨hi, hi'⟩ j ⟨hj, hj'⟩ he
    have hne : repeatingDraws.suffix 1 ≠ repeatingDraws.suffix 2 := by decide
    by_contra hij
    obtain ⟨rfl, rfl⟩ | ⟨rfl, rfl⟩ : i = 1 ∧ j = 2 ∨ i = 2 ∧ j = 1 := by omega
    · exact hne he
    · exact hne he.symm
  obtain ⟨-, -, hfirst, hbound⟩ :=
    createSection_takes_first_free default .hero none ["sec-hero-a"] repeatingDraws
  obtain ⟨draws, made, hmade, hle⟩ := hbound 1 (Nat.zero_le _) hinj
  have hdraws : repeatingDraws.used + draws ≤ 3 := hle
  obtain ⟨found, hfound, hlast, rfl⟩ := hfirst draws made hmade
  have hused : repeatingDraws.used = 0 := rfl
  have hsecond : found ≠ 0 ∧ found ≠ 1 := by
    constructor
    all_goals
      rintro rfl
      exact hfound.free (by decide)
  obtain rfl : found = 2 := by omega
  obtain rfl : draws = 3 := by omega
  exact ⟨hinj, _, hmade, by decide⟩

end Registry

end Sitewright
