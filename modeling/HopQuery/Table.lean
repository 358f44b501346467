/-!
# Tables

Finite maps that remember the order in which their keys first came. A key occurs once; putting a
value under a key that is present replaces the value and keeps the place.

* `Table`: the entries, with distinct keys;
* `get?`, `contains`, `keys`: the view;
* `insert`, `erase`: the changes;
* `get?_insert`, `get?_erase`, `keys_insert`, `mem_keys_insert`, `mem_keys_erase`: what the changes
  do to the view.
-/

namespace HopQuery

/-- A finite map in the order of first insertion. -/
structure Table (κ ν : Type) where
  /-- The pairs of a key and its value. -/
  entries : List (κ × ν)
  /-- No key occurs twice. -/
  nodup_keys : (entries.map Prod.fst).Nodup
  deriving DecidableEq

namespace Table

variable {κ ν : Type} [DecidableEq κ]

/-- The value under the key in a list of pairs: that of the first pair with the key. -/
def lookup (key : κ) : List (κ × ν) → Option ν
  | [] => none
  | (k, v) :: rest => if k = key then some v else lookup key rest

/-- The pairs with the value under the key replaced, or with a new pair at the end. -/
def put (key : κ) (value : ν) : List (κ × ν) → List (κ × ν)
  | [] => [(key, value)]
  | (k, v) :: rest => if k = key then (k, value) :: rest else (k, v) :: put key value rest

theorem map_fst_put (key : κ) (value : ν) (entries : List (κ × ν)) :
    (put key value entries).map Prod.fst =
      if key ∈ entries.map Prod.fst then entries.map Prod.fst
      else entries.map Prod.fst ++ [key] := by
  induction entries with
  | nil => simp [put]
  | cons entry rest ih =>
    obtain ⟨k, v⟩ := entry
    by_cases h : k = key
    · simp [put, h]
    · have h' : ¬ key = k := fun e => h e.symm
      simp only [put, h, if_false, List.map_cons, ih, List.mem_cons, h', false_or]
      split <;> simp

theorem nodup_put (key : κ) (value : ν) (entries : List (κ × ν))
    (h : (entries.map Prod.fst).Nodup) : ((put key value entries).map Prod.fst).Nodup := by
  rw [map_fst_put]
  split
  · exact h
  · next hmem =>
    refine List.nodup_append.2 ⟨h, by simp, ?_⟩
    intro a ha b hb
    simp only [List.mem_singleton] at hb
    subst hb
    exact fun e => hmem (e ▸ ha)

theorem lookup_put (key other : κ) (value : ν) (entries : List (κ × ν)) :
    lookup other (put key value entries) =
      if key = other then some value else lookup other entries := by
  induction entries with
  | nil => simp [put, lookup]
  | cons entry rest ih =>
    obtain ⟨k, v⟩ := entry
    by_cases h : k = key
    · subst h
      simp only [put, if_true, lookup]
      split <;> rfl
    · by_cases h' : k = other
      · subst h'
        have : ¬ key = k := fun e => h e.symm
        simp [put, lookup, h, this]
      · simp [put, lookup, h, h', ih]

theorem lookup_eq_none_iff (key : κ) (entries : List (κ × ν)) :
    lookup key entries = none ↔ key ∉ entries.map Prod.fst := by
  induction entries with
  | nil => simp [lookup]
  | cons entry rest ih =>
    obtain ⟨k, v⟩ := entry
    by_cases h : k = key
    · simp [lookup, h]
    · have h' : ¬ key = k := fun e => h e.symm
      simp only [lookup, h, if_false, ih, List.map_cons, List.mem_cons, h', false_or]

theorem mem_of_lookup_eq_some {key : κ} {value : ν} {entries : List (κ × ν)}
    (h : lookup key entries = some value) : (key, value) ∈ entries := by
  induction entries with
  | nil => cases h
  | cons entry rest ih =>
    obtain ⟨k, v⟩ := entry
    rw [lookup] at h
    split at h
    · next heq =>
      cases h
      rw [heq]
      exact List.mem_cons_self
    · exact List.mem_cons_of_mem _ (ih h)

/-- Where no key occurs twice, the value under a key is the one that it stands beside. -/
theorem lookup_eq_some_iff {entries : List (κ × ν)} (h : (entries.map Prod.fst).Nodup) (key : κ)
    (value : ν) : lookup key entries = some value ↔ (key, value) ∈ entries := by
  induction entries with
  | nil => simp [lookup]
  | cons entry rest ih =>
    obtain ⟨k, v⟩ := entry
    obtain ⟨hk, hrest⟩ := List.nodup_cons.1 h
    by_cases heq : k = key
    · subst heq
      have hmem : (k, value) ∉ rest := fun hmem =>
        hk (show (k, value).1 ∈ rest.map Prod.fst from List.mem_map_of_mem hmem)
      simp [lookup, hmem, eq_comm]
    · simp [lookup, heq, ih hrest, Ne.symm heq]

theorem put_of_not_mem {key : κ} {entries : List (κ × ν)} (h : key ∉ entries.map Prod.fst)
    (value : ν) : put key value entries = entries ++ [(key, value)] := by
  induction entries with
  | nil => rfl
  | cons entry rest ih =>
    obtain ⟨hne, hrest⟩ := not_or.1 (fun hmem => h (List.mem_cons.2 hmem))
    rw [put, if_neg (Ne.symm hne), ih hrest, List.cons_append]

theorem put_of_mem {key : κ} {entries : List (κ × ν)} (hnodup : (entries.map Prod.fst).Nodup)
    (h : key ∈ entries.map Prod.fst) (value : ν) : put key value entries =
      entries.map fun entry => if entry.1 = key then (key, value) else entry := by
  induction entries with
  | nil => cases h
  | cons entry rest ih =>
    obtain ⟨k, v⟩ := entry
    obtain ⟨hk, hrest⟩ := List.nodup_cons.1 hnodup
    by_cases heq : k = key
    · subst heq
      -- the key stands at the front, so nothing behind it changes
      have htail : rest.map (fun entry => if entry.1 = k then (k, value) else entry) = rest := by
        conv => rhs; rw [← List.map_id rest]
        refine List.map_congr_left fun entry hentry => if_neg fun hfst => hk ?_
        have hmem : entry.1 ∈ rest.map Prod.fst := List.mem_map_of_mem hentry
        rwa [hfst] at hmem
      simp [put, htail]
    · have hmem : key ∈ rest.map Prod.fst := by simpa [Ne.symm heq] using h
      simp [put, heq, ih hrest hmem]

theorem lookup_filter (key other : κ) (entries : List (κ × ν)) :
    lookup other (entries.filter (fun e => e.1 ≠ key)) =
      if key = other then none else lookup other entries := by
  induction entries with
  | nil => simp [lookup]
  | cons entry rest ih =>
    obtain ⟨k, v⟩ := entry
    by_cases h : k = key
    · subst h
      by_cases h' : k = other
      · simp_all
      · simp_all [lookup]
    · by_cases h' : k = other
      · subst h'
        have : ¬ key = k := fun e => h e.symm
        simp [lookup, h, this]
      · simp_all [lookup]

/-- The table without entries. -/
def empty : Table κ ν :=
  ⟨[], by simp⟩

/-- The value under the key. -/
def get? (table : Table κ ν) (key : κ) : Option ν :=
  lookup key table.entries

/-- The keys in the order of first insertion. -/
def keys (table : Table κ ν) : List κ :=
  table.entries.map Prod.fst

/-- Whether the key has a value. -/
def contains (table : Table κ ν) (key : κ) : Bool :=
  (table.get? key).isSome

/-- The table with the value put under the key. -/
def insert (table : Table κ ν) (key : κ) (value : ν) : Table κ ν :=
  ⟨put key value table.entries, nodup_put key value table.entries table.nodup_keys⟩

/-- The table without the key. -/
def erase (table : Table κ ν) (key : κ) : Table κ ν :=
  ⟨table.entries.filter (fun e => e.1 ≠ key),
    (List.filter_sublist.map Prod.fst).nodup table.nodup_keys⟩

/-- The table of the pairs, put in one after the other. -/
def ofList (pairs : List (κ × ν)) : Table κ ν :=
  pairs.foldl (fun table pair => table.insert pair.1 pair.2) empty

@[simp]
theorem get?_empty (key : κ) : (empty : Table κ ν).get? key = none := rfl

omit [DecidableEq κ] in
@[simp]
theorem keys_empty : (empty : Table κ ν).keys = [] := rfl

omit [DecidableEq κ] in
@[ext]
theorem ext {s t : Table κ ν} (h : s.entries = t.entries) : s = t := by
  cases s
  cases t
  congr

theorem get?_insert (table : Table κ ν) (key other : κ) (value : ν) :
    (table.insert key value).get? other = if key = other then some value else table.get? other :=
  lookup_put key other value table.entries

theorem get?_erase (table : Table κ ν) (key other : κ) :
    (table.erase key).get? other = if key = other then none else table.get? other :=
  lookup_filter key other table.entries

theorem get?_eq_none_iff (table : Table κ ν) (key : κ) :
    table.get? key = none ↔ key ∉ table.keys :=
  lookup_eq_none_iff key table.entries

theorem get?_eq_some_iff (table : Table κ ν) (key : κ) (value : ν) :
    table.get? key = some value ↔ (key, value) ∈ table.entries :=
  lookup_eq_some_iff table.nodup_keys key value

theorem keys_insert (table : Table κ ν) (key : κ) (value : ν) :
    (table.insert key value).keys =
      if key ∈ table.keys then table.keys else table.keys ++ [key] :=
  map_fst_put key value table.entries

theorem mem_keys_iff (table : Table κ ν) (key : κ) :
    key ∈ table.keys ↔ ∃ value, table.get? key = some value := by
  rw [← Option.isSome_iff_exists, Option.isSome_iff_ne_none, Ne, get?_eq_none_iff,
    Decidable.not_not]

theorem mem_keys_insert (table : Table κ ν) (key other : κ) (value : ν) :
    other ∈ (table.insert key value).keys ↔ other = key ∨ other ∈ table.keys := by
  rw [keys_insert]
  split
  · next h =>
    constructor
    · exact Or.inr
    · rintro (rfl | hother)
      · exact h
      · exact hother
  · rw [List.mem_append, List.mem_singleton, or_comm]

theorem mem_keys_erase (table : Table κ ν) (key other : κ) :
    other ∈ (table.erase key).keys ↔ other ≠ key ∧ other ∈ table.keys := by
  rw [mem_keys_iff, mem_keys_iff, get?_erase]
  split
  · next h => simp [h]
  · next h => simp [Ne.symm h]

end Table

end HopQuery
