/-!
# Ordered dictionaries

A dictionary keeps its entries in order. A look-up takes the first entry of a key. `Dict.set` leaves
an existing key in its place and puts a new one at the end, so that a dictionary with one entry for
each key stays so, and `Dict.ofEntries` makes such a dictionary of any entries.

That keys are distinct is not part of the type: the objects among the JSON values are dictionaries
of JSON values, and an inductive type cannot ask for it of its own values. All that is read is made
by `ofEntries`, and what asks for distinct keys says so.
-/

namespace Sitewright

abbrev Dict (α : Type) := List (String × α)

namespace Dict

variable {α : Type}

def get? (dict : Dict α) (key : String) : Option α :=
  dict.lookup key

def keys (dict : Dict α) : List String :=
  dict.map (·.1)

def values (dict : Dict α) : List α :=
  dict.map (·.2)

def set (key : String) (value : α) : Dict α → Dict α
  | [] => [(key, value)]
  | (k, v) :: rest => if k = key then (key, value) :: rest else (k, v) :: set key value rest

theorem get?_cons (k key : String) (v : α) (rest : Dict α) :
    get? ((k, v) :: rest) key = if key = k then some v else get? rest key := by
  by_cases h : key = k
  · simp [get?, h]
  · simp [get?, List.lookup_cons, h, beq_eq_false_iff_ne.mpr h]

@[simp] theorem get?_set_self (key : String) (value : α) (dict : Dict α) :
    get? (set key value dict) key = some value := by
  induction dict with
  | nil => simp [set, get?]
  | cons entry rest ih =>
    obtain ⟨k, v⟩ := entry
    by_cases h : k = key
    · simp [set, h, get?_cons]
    · simp [set, h, get?_cons, ih, Ne.symm h]

theorem get?_set_of_ne {key other : String} (h : other ≠ key) (value : α) (dict : Dict α) :
    get? (set key value dict) other = get? dict other := by
  induction dict with
  | nil => simp [set, get?_cons, h]
  | cons entry rest ih =>
    obtain ⟨k, v⟩ := entry
    by_cases hk : k = key
    · subst hk
      simp [set, get?_cons, h]
    · simp only [set, hk, if_false, get?_cons, ih]

theorem keys_set_of_mem {key : String} {dict : Dict α} (h : key ∈ keys dict) (value : α) :
    keys (set key value dict) = keys dict := by
  induction dict with
  | nil => simp [keys] at h
  | cons entry rest ih =>
    obtain ⟨k, v⟩ := entry
    by_cases hk : k = key
    · simp [set, hk, keys]
    · have hr : key ∈ keys rest := by
        rcases List.mem_cons.mp h with he | he
        · exact absurd he.symm hk
        · exact he
      have := ih hr
      simp only [keys] at this ⊢
      simp [set, hk, this]

theorem keys_set_of_not_mem {key : String} {dict : Dict α} (h : key ∉ keys dict) (value : α) :
    keys (set key value dict) = keys dict ++ [key] := by
  induction dict with
  | nil => rfl
  | cons entry rest ih =>
    obtain ⟨k, v⟩ := entry
    have hk : k ≠ key := fun he => h (by simp [keys, he])
    have hr : key ∉ keys rest := fun hm => h (List.mem_cons_of_mem _ hm)
    have := ih hr
    simp only [keys] at this ⊢
    simp [set, hk, this]

/-- The entries of `base`, then those of `top`, which win where a key is in both. -/
def overlay (base top : Dict α) : Dict α :=
  top.foldl (fun dict (key, value) => set key value dict) base

/-- The dictionary of a list of entries, of which the last one of each key counts. -/
def ofEntries (entries : List (String × α)) : Dict α :=
  overlay [] entries

/-- The entries whose key is not among `keys`. -/
def without (keys : List String) (dict : Dict α) : Dict α :=
  dict.filter fun (key, _) => !keys.contains key

end Dict

end Sitewright
