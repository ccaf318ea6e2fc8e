import Mathlib.Data.List.Basic
import Mathlib.Data.List.Nodup
import Sitewright.Dict

/-!
# Entries of dictionaries

What a look-up finds is an entry, and what `Dict.set` leaves behind is the new entry beside old
ones. Overlays with distinct keys are associative, and the last one of several with the same keys is
all that counts; an overlay extends the entries below it by the keys that are new. A dictionary
avoids some keys if it has no entry for them; `Dict.without` makes it so, keeps every other entry,
and restores what stood behind entries for those keys.
-/

namespace Sitewright.Dict

variable {α : Type}

theorem mem_of_get? {dict : Dict α} {key : String} {value : α} (h : get? dict key = some value) :
    (key, value) ∈ dict := by
  induction dict with
  | nil => simp [get?] at h
  | cons entry rest ih =>
      obtain ⟨k, v⟩ := entry
      rw [get?_cons] at h
      by_cases hk : key = k
      · rw [if_pos hk] at h
        cases h
        simp [hk]
      · rw [if_neg hk] at h
        exact List.mem_cons_of_mem _ (ih h)

theorem get?_of_mem {dict : Dict α} {key : String} {value : α} (hn : (keys dict).Nodup)
    (h : (key, value) ∈ dict) : get? dict key = some value := by
  induction dict with
  | nil => cases h
  | cons entry rest ih =>
      obtain ⟨k, v⟩ := entry
      obtain ⟨hk, hrest⟩ := List.nodup_cons.mp hn
      rw [get?_cons]
      rcases List.mem_cons.mp h with he | hm
      · cases he
        rw [if_pos rfl]
      · have hne : key ≠ k := fun he => hk (List.mem_map.mpr ⟨_, hm, he⟩)
        rw [if_neg hne]
        exact ih hrest hm

theorem mem_set {dict : Dict α} {key : String} {value : α} {entry : String × α}
    (h : entry ∈ set key value dict) : entry = (key, value) ∨ entry ∈ dict := by
  induction dict with
  | nil => exact Or.inl (List.mem_singleton.mp h)
  | cons first rest ih =>
      obtain ⟨k, v⟩ := first
      by_cases hk : k = key
      · simp only [set, if_pos hk] at h
        rcases List.mem_cons.mp h with he | he
        · exact Or.inl he
        · exact Or.inr (List.mem_cons_of_mem _ he)
      · simp only [set, if_neg hk] at h
        rcases List.mem_cons.mp h with he | he
        · exact Or.inr (he ▸ List.mem_cons_self)
        · exact (ih he).imp_right (List.mem_cons_of_mem _)

theorem mem_overlay {base top : Dict α} {entry : String × α} (h : entry ∈ overlay base top) :
    entry ∈ base ∨ entry ∈ top := by
  induction top generalizing base with
  | nil => exact Or.inl h
  | cons first rest ih =>
      rcases ih h with hb | ht
      · rcases mem_set hb with he | he
        · exact Or.inr (he ▸ List.mem_cons_self)
        · exact Or.inl he
      · exact Or.inr (List.mem_cons_of_mem _ ht)

@[simp] theorem keys_nil : keys ([] : Dict α) = [] := rfl

theorem keys_append (front back : Dict α) : keys (front ++ back) = keys front ++ keys back :=
  List.map_append ..

theorem get?_append (front back : Dict α) (key : String) :
    get? (front ++ back) key = (get? front key).or (get? back key) :=
  List.lookup_append

/-! ## Setting -/

theorem get?_eq_none_iff {dict : Dict α} {key : String} :
    get? dict key = none ↔ key ∉ keys dict := by
  induction dict with
  | nil => simp [get?, keys]
  | cons entry rest ih =>
      obtain ⟨k, v⟩ := entry
      rw [get?_cons]
      by_cases hk : key = k
      · simp [hk, keys]
      · rw [if_neg hk, ih]
        simp [hk, keys]

theorem mem_keys_set {dict : Dict α} {key other : String} {value : α} :
    other ∈ keys (set key value dict) ↔ other = key ∨ other ∈ keys dict := by
  by_cases hm : key ∈ keys dict
  · rw [keys_set_of_mem hm]
    constructor
    · exact Or.inr
    · rintro (rfl | h)
      · exact hm
      · exact h
  · rw [keys_set_of_not_mem hm, List.mem_append, List.mem_singleton, or_comm]

theorem nodup_keys_set {dict : Dict α} {key : String} (h : (keys dict).Nodup) (value : α) :
    (keys (set key value dict)).Nodup := by
  by_cases hm : key ∈ keys dict
  · rwa [keys_set_of_mem hm]
  · rw [keys_set_of_not_mem hm]
    exact List.Nodup.append h (List.nodup_singleton key) (by simpa using hm)

@[simp] theorem set_set_self (key : String) (value other : α) (dict : Dict α) :
    set key value (set key other dict) = set key value dict := by
  induction dict with
  | nil => simp [set]
  | cons entry rest ih =>
      obtain ⟨k, v⟩ := entry
      by_cases hk : k = key
      · simp [set, hk]
      · simp [set, hk, ih]

/-- Two settings commute if one of the keys is there already and so keeps its place. -/
theorem set_set_of_ne {dict : Dict α} {key other : String} (h : key ≠ other)
    (hm : key ∈ keys dict) (value value' : α) :
    set key value (set other value' dict) = set other value' (set key value dict) := by
  induction dict with
  | nil => simp [keys] at hm
  | cons entry rest ih =>
      obtain ⟨k, v⟩ := entry
      by_cases hk : k = key
      · subst hk
        simp [set, h]
      · have hr : key ∈ keys rest := by
          rcases List.mem_cons.mp hm with he | he
          · exact absurd he.symm hk
          · exact he
        by_cases ho : k = other
        · subst ho
          simp [set, hk]
        · simp [set, hk, ho, ih hr]

/-! ## Values -/

/-- A look-up at each key finds the values in their order. -/
theorem map_get?_keys {dict : Dict α} (hn : (keys dict).Nodup) :
    (keys dict).map (get? dict) = (values dict).map some := by
  rw [keys, values, List.map_map, List.map_map]
  exact List.map_congr_left fun entry hm => get?_of_mem hn hm

theorem mem_keys_of_get? {dict : Dict α} {key : String} {value : α}
    (h : get? dict key = some value) : key ∈ keys dict :=
  List.mem_map.mpr ⟨_, mem_of_get? h, rfl⟩

theorem mem_values_iff {dict : Dict α} (hn : (keys dict).Nodup) {value : α} :
    value ∈ values dict ↔ ∃ key, get? dict key = some value := by
  constructor
  · intro hm
    obtain ⟨entry, he, rfl⟩ := List.mem_map.mp hm
    exact ⟨entry.1, get?_of_mem hn he⟩
  · rintro ⟨key, hg⟩
    exact List.mem_map.mpr ⟨_, mem_of_get? hg, rfl⟩

/-- A value may be replaced by another one that looks the same. -/
theorem map_values_set {β : Type} {f : α → β} {dict : Dict α} {key : String} {value later : α}
    (h : get? dict key = some value) (hf : f later = f value) :
    (values (set key later dict)).map f = (values dict).map f := by
  induction dict with
  | nil => cases h
  | cons entry rest ih =>
      obtain ⟨k, v⟩ := entry
      rw [get?_cons] at h
      by_cases hk : k = key
      · rw [if_pos hk.symm] at h
        cases h
        simp [set, hk, values, hf]
      · rw [if_neg (Ne.symm hk)] at h
        have hrest := ih h
        simp only [values] at hrest ⊢
        simp [set, hk, hrest]

/-! ## Overlays -/

theorem set_append_of_not_mem {front : Dict α} {key : String} (h : key ∉ keys front) (value : α)
    (back : Dict α) : set key value (front ++ back) = front ++ set key value back := by
  induction front with
  | nil => rfl
  | cons entry rest ih =>
      obtain ⟨k, v⟩ := entry
      have hk : k ≠ key := fun he => h (List.mem_map.mpr ⟨_, List.mem_cons_self, he⟩)
      have hrest : key ∉ keys rest := fun hm => h (List.mem_cons_of_mem _ hm)
      rw [List.cons_append, set, if_neg hk, ih hrest, List.cons_append]

theorem set_of_not_mem {dict : Dict α} {key : String} (h : key ∉ keys dict) (value : α) :
    set key value dict = dict ++ [(key, value)] := by
  simpa [set] using set_append_of_not_mem h value []

theorem overlay_cons (base top : Dict α) (key : String) (value : α) :
    overlay base ((key, value) :: top) = overlay (set key value base) top :=
  rfl

theorem nodup_keys_overlay {base : Dict α} (h : (keys base).Nodup) (top : Dict α) :
    (keys (overlay base top)).Nodup := by
  induction top generalizing base with
  | nil => exact h
  | cons entry rest ih =>
      obtain ⟨k, v⟩ := entry
      rw [overlay_cons]
      exact ih (nodup_keys_set h v)

theorem overlay_append (base top more : Dict α) :
    overlay base (top ++ more) = overlay (overlay base top) more :=
  List.foldl_append ..

theorem get?_overlay {top : Dict α} (hn : (keys top).Nodup) (base : Dict α) (key : String) :
    get? (overlay base top) key = (get? top key).or (get? base key) := by
  induction top generalizing base with
  | nil => rfl
  | cons entry rest ih =>
      obtain ⟨k, v⟩ := entry
      obtain ⟨hk, hrest⟩ := List.nodup_cons.mp hn
      rw [overlay_cons, ih hrest, get?_cons]
      by_cases he : key = k
      · subst he
        rw [get?_eq_none_iff.mpr hk, if_pos rfl, get?_set_self]
        rfl
      · rw [if_neg he, get?_set_of_ne he]

theorem overlay_set_of_not_mem {base top : Dict α} {key : String} (hm : key ∈ keys base)
    (ht : key ∉ keys top) (value : α) :
    overlay (set key value base) top = set key value (overlay base top) := by
  induction top generalizing base with
  | nil => rfl
  | cons entry rest ih =>
      obtain ⟨k, v⟩ := entry
      have hk : key ≠ k := fun he => ht (by simp [keys, he])
      have hrest : key ∉ keys rest := fun hr => ht (List.mem_cons_of_mem _ hr)
      rw [overlay_cons, overlay_cons, ← set_set_of_ne hk hm]
      exact ih (mem_keys_set.mpr (Or.inr hm)) hrest

theorem overlay_set {top : Dict α} (hn : (keys top).Nodup) (base : Dict α) (key : String)
    (value : α) : overlay base (set key value top) = set key value (overlay base top) := by
  induction top generalizing base with
  | nil => rfl
  | cons entry rest ih =>
      obtain ⟨k, v⟩ := entry
      obtain ⟨hk, hrest⟩ := List.nodup_cons.mp hn
      by_cases he : k = key
      · subst he
        have hm : k ∈ keys (set k v base) := mem_keys_set.mpr (Or.inl rfl)
        simp only [set, if_true, overlay_cons]
        rw [← overlay_set_of_not_mem hm hk, set_set_self]
      · simp only [set, if_neg he, overlay_cons]
        exact ih hrest _

theorem overlay_overlay {mid : Dict α} (hn : (keys mid).Nodup) (base top : Dict α) :
    overlay (overlay base mid) top = overlay base (overlay mid top) := by
  induction top generalizing mid with
  | nil => rfl
  | cons entry rest ih =>
      obtain ⟨k, v⟩ := entry
      rw [overlay_cons, overlay_cons, ← overlay_set hn, ih (nodup_keys_set hn v)]

theorem overlay_cons_of_not_mem {top : Dict α} {key : String} (h : key ∉ keys top) (value : α)
    (base : Dict α) :
    overlay ((key, value) :: base) top = (key, value) :: overlay base top := by
  induction top generalizing base with
  | nil => rfl
  | cons entry rest ih =>
      obtain ⟨k, v⟩ := entry
      have hk : key ≠ k := fun he => h (by simp [keys, he])
      have hrest : key ∉ keys rest := fun hr => h (List.mem_cons_of_mem _ hr)
      rw [overlay_cons, overlay_cons]
      simp only [set, if_neg hk]
      exact ih hrest _

theorem overlay_of_keys_eq {base top : Dict α} (h : keys base = keys top)
    (hn : (keys top).Nodup) : overlay base top = top := by
  induction top generalizing base with
  | nil => exact List.map_eq_nil_iff.mp h
  | cons entry rest ih =>
      obtain ⟨k, v⟩ := entry
      obtain ⟨hk, hrest⟩ := List.nodup_cons.mp hn
      cases base with
      | nil => cases h
      | cons first others =>
          obtain ⟨k', v'⟩ := first
          obtain ⟨rfl, hothers⟩ := List.cons_eq_cons.mp h
          rw [overlay_cons]
          simp only [set, if_true]
          rw [overlay_cons_of_not_mem hk, ih hothers hrest]

/-! ## Dictionaries of entries -/

theorem nodup_keys_ofEntries (entries : List (String × α)) : (keys (ofEntries entries)).Nodup := by
  have hnone : (keys ([] : Dict α)).Nodup := List.nodup_nil
  exact nodup_keys_overlay hnone entries

theorem mem_of_mem_ofEntries {entries : List (String × α)} {entry : String × α}
    (h : entry ∈ ofEntries entries) : entry ∈ entries := by
  rcases mem_overlay h with hm | hm
  · cases hm
  · exact hm

/-- Entries with different keys are a dictionary as they are. -/
theorem ofEntries_of_nodup {entries : List (String × α)} (h : (keys entries).Nodup) :
    ofEntries entries = entries := by
  induction entries with
  | nil => rfl
  | cons entry rest ih =>
      obtain ⟨k, v⟩ := entry
      obtain ⟨hk, hrest⟩ := List.nodup_cons.mp h
      have hfirst : ofEntries ((k, v) :: rest) = overlay [(k, v)] rest := rfl
      rw [hfirst, overlay_cons_of_not_mem hk]
      exact congrArg _ (ih hrest)

/-! ## Extensions -/

/-- The keys of `dict` keep their order in `later`, with those of `added` that are new behind them,
and the keys that are not in `added` keep their values. -/
structure Extends (added : List String) (dict later : Dict α) : Prop where
  order : keys later = keys dict ++ added.filter fun key => key ∉ keys dict
  values : ∀ key, key ∉ added → get? later key = get? dict key

theorem keys_overlay {top : Dict α} (hn : (keys top).Nodup) (base : Dict α) :
    keys (overlay base top) = keys base ++ (keys top).filter fun key => key ∉ keys base := by
  induction top generalizing base with
  | nil => exact (List.append_nil _).symm
  | cons entry rest ih =>
      obtain ⟨k, v⟩ := entry
      obtain ⟨hk, hrest⟩ := List.nodup_cons.mp hn
      rw [overlay_cons, ih hrest]
      change _ = keys base ++ (k :: keys rest).filter fun key => key ∉ keys base
      by_cases hm : k ∈ keys base
      · rw [keys_set_of_mem hm, List.filter_cons_of_neg (by simpa using hm)]
      · have hsame : ∀ key ∈ keys rest,
            decide (key ∉ keys base ++ [k]) = decide (key ∉ keys base) := by
          intro key hkey
          have hne : key ≠ k := fun he => hk (he ▸ hkey)
          simp [hne]
        rw [keys_set_of_not_mem hm, List.filter_cons_of_pos (by simpa using hm),
          List.filter_congr hsame, List.append_assoc, List.singleton_append]

theorem extends_overlay {top : Dict α} (hn : (keys top).Nodup) (base : Dict α) :
    Extends (keys top) base (overlay base top) where
  order := keys_overlay hn base
  values key hk := by rw [get?_overlay hn, get?_eq_none_iff.mpr hk, Option.none_or]

theorem extends_set (key : String) (value : α) (dict : Dict α) :
    Extends [key] dict (set key value dict) := by
  have hn : (keys [(key, value)]).Nodup := List.nodup_singleton key
  exact extends_overlay hn dict

/-! ## Chosen keys -/

theorem get?_eq_find? (dict : Dict α) (key : String) :
    get? dict key = (dict.find? fun entry => entry.1 = key).map (·.2) := by
  induction dict with
  | nil => rfl
  | cons entry rest ih =>
      obtain ⟨k, v⟩ := entry
      rw [get?_cons]
      by_cases hk : k = key
      · simp [hk]
      · rw [if_neg (Ne.symm hk), ih, List.find?_cons_of_neg (by simpa using hk)]

/-- Entries that are left out because of their keys do not matter to the other keys. -/
theorem get?_filter_of_pos {p : String → Bool} {key : String} (h : p key = true) (dict : Dict α) :
    get? (dict.filter fun entry => p entry.1) key = get? dict key := by
  induction dict with
  | nil => rfl
  | cons entry rest ih =>
      obtain ⟨k, v⟩ := entry
      cases hk : p k with
      | false =>
          have hne : key ≠ k := fun he => Bool.false_ne_true (hk.symm.trans (he ▸ h))
          rw [List.filter_cons_of_neg (by simpa using hk), get?_cons, if_neg hne, ih]
      | true => rw [List.filter_cons_of_pos (by simpa using hk), get?_cons, get?_cons, ih]

/-! ## Avoided keys -/

def Avoids (keys : List String) (dict : Dict α) : Prop :=
  ∀ entry ∈ dict, entry.1 ∉ keys

@[simp] theorem avoids_nil (keys : List String) : Avoids keys ([] : Dict α) := by
  intro entry h
  cases h

theorem avoids_without (keys : List String) (dict : Dict α) : Avoids keys (without keys dict) := by
  intro entry h
  have hp := (List.mem_filter.mp h).2
  simpa using hp

theorem get?_append_of_avoids {keys : List String} {dict : Dict α} (h : Avoids keys dict)
    {key : String} (hk : key ∈ keys) (front : Dict α) :
    get? (front ++ dict) key = get? front key := by
  have hnone : get? dict key = none := by
    rw [get?_eq_none_iff]
    intro hm
    obtain ⟨entry, he, rfl⟩ := List.mem_map.mp hm
    exact h entry he hk
  rw [get?_append, hnone, Option.or_none]

/-- Entries for the keys stand in front of what `Dict.without` keeps. -/
theorem without_append {keys : List String} {front dict : Dict α}
    (hf : ∀ entry ∈ front, entry.1 ∈ keys) (hd : Avoids keys dict) :
    without keys (front ++ dict) = dict := by
  have h1 : without keys front = [] := by
    apply List.filter_eq_nil_iff.mpr
    intro entry he
    simpa using hf entry he
  have h2 : without keys dict = dict := by
    apply List.filter_eq_self.mpr
    intro entry he
    simpa using hd entry he
  calc
    without keys (front ++ dict) = without keys front ++ without keys dict := List.filter_append ..
    _ = dict := by rw [h1, h2, List.nil_append]

theorem keys_without (declared : List String) (dict : Dict α) :
    keys (without declared dict) = (keys dict).filter fun key => key ∉ declared := by
  have hp : (fun entry : String × α => !declared.contains entry.1) =
      (fun key => decide (key ∉ declared)) ∘ (·.1) := by
    funext entry
    simp
  rw [keys, keys, List.filter_map, ← hp, without]

theorem get?_without_of_not_mem {declared : List String} {key : String}
    (h : key ∉ declared) (dict : Dict α) : get? (without declared dict) key = get? dict key :=
  get?_filter_of_pos (p := fun key => !declared.contains key) (by simpa using h) dict

end Sitewright.Dict
