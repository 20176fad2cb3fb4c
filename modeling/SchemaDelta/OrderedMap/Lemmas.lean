import SchemaDelta.OrderedMap.Basic

/-!
# Laws of ordered maps

What insertion does to the two views of a map: its keys (`keys_insert_of_mem`,
`keys_insert_of_not_mem`) and its look-ups (`get?_insert_self`, `get?_insert_of_ne`). A key is
found exactly when it is among the keys (`contains_iff_mem_keys`), and an entry is found exactly
under its key (`get?_eq_some_iff`).
-/

namespace SchemaDelta.OrderedMap

variable {α : Type}

@[simp] theorem keys_empty : (empty : OrderedMap α).keys = [] := rfl

@[simp] theorem get?_empty (key : Text) : (empty : OrderedMap α).get? key = none := rfl

/-- There are as many keys as entries. -/
@[simp] theorem length_keys (m : OrderedMap α) : m.keys.length = m.size := by
  simp [keys, size]

/-- Setting a key that is there keeps the keys and their order. -/
theorem keys_insert_of_mem {m : OrderedMap α} {key : Text} (value : α) (h : key ∈ m.keys) :
    (m.insert key value).keys = m.keys :=
  map_fst_insertEntry_of_mem h

/-- A new key goes to the end. -/
theorem keys_insert_of_not_mem {m : OrderedMap α} {key : Text} (value : α)
    (h : key ∉ m.keys) : (m.insert key value).keys = m.keys ++ [key] :=
  map_fst_insertEntry_of_not_mem h

/-- After an insertion exactly the new key and the old ones are there. -/
@[simp] theorem mem_keys_insert {m : OrderedMap α} {key other : Text} {value : α} :
    other ∈ (m.insert key value).keys ↔ other = key ∨ other ∈ m.keys := by
  by_cases h : key ∈ m.keys
  · rw [keys_insert_of_mem value h]
    exact ⟨Or.inr, fun hor => hor.elim (fun he => he ▸ h) id⟩
  · rw [keys_insert_of_not_mem value h, List.mem_append, List.mem_singleton, or_comm]

/-- Looking up a key in a list of entries succeeds exactly when some entry has it. -/
theorem lookup_isSome_iff {entries : List (Text × α)} {key : Text} :
    (lookup key entries).isSome ↔ key ∈ entries.map Prod.fst := by
  induction entries with
  | nil => simp [lookup]
  | cons entry rest ih =>
    obtain ⟨k, v⟩ := entry
    by_cases hk : k = key
    · simp [lookup, hk]
    · simp [lookup, hk, ih, Ne.symm hk]

/-- A key is found exactly when it is among the keys. -/
theorem contains_iff_mem_keys {m : OrderedMap α} {key : Text} :
    m.contains key ↔ key ∈ m.keys :=
  lookup_isSome_iff

/-- Setting a key and looking it up gives the value. -/
theorem lookup_insertEntry_self (key : Text) (value : α) (entries : List (Text × α)) :
    lookup key (insertEntry key value entries) = some value := by
  induction entries with
  | nil => simp [insertEntry, lookup]
  | cons entry rest ih =>
    obtain ⟨k, v⟩ := entry
    by_cases hk : k = key <;> simp [insertEntry, lookup, hk, ih]

/-- Setting one key leaves the others as they are. -/
theorem lookup_insertEntry_of_ne {key other : Text} (h : other ≠ key) (value : α)
    (entries : List (Text × α)) :
    lookup other (insertEntry key value entries) = lookup other entries := by
  induction entries with
  | nil => simp [insertEntry, lookup, h.symm]
  | cons entry rest ih =>
    obtain ⟨k, v⟩ := entry
    by_cases hk : k = key
    · subst hk
      simp [insertEntry, lookup, h.symm]
    · by_cases ho : k = other
      · subst ho
        simp [insertEntry, lookup, hk]
      · simp [insertEntry, lookup, hk, ho, ih]

@[simp] theorem get?_insert_self (m : OrderedMap α) (key : Text) (value : α) :
    (m.insert key value).get? key = some value :=
  lookup_insertEntry_self key value m.entries

theorem get?_insert_of_ne {m : OrderedMap α} {key other : Text} (value : α)
    (h : other ≠ key) : (m.insert key value).get? other = m.get? other :=
  lookup_insertEntry_of_ne h value m.entries

/-- Among entries with distinct keys, looking up a key gives the value of its entry. -/
theorem lookup_eq_some_iff {entries : List (Text × α)}
    (h : (entries.map Prod.fst).Nodup) {key : Text} {value : α} :
    lookup key entries = some value ↔ (key, value) ∈ entries := by
  induction entries with
  | nil => simp [lookup]
  | cons entry rest ih =>
    obtain ⟨k, v⟩ := entry
    simp only [List.map_cons, List.nodup_cons] at h
    by_cases hk : k = key
    · subst hk
      have hout : (k, value) ∉ rest := fun hmem => h.1 (List.mem_map_of_mem hmem)
      simp [lookup, hout, eq_comm]
    · simp [lookup, hk, ih h.2, Ne.symm hk]

/-- An entry is found exactly under its key. -/
theorem get?_eq_some_iff {m : OrderedMap α} {key : Text} {value : α} :
    m.get? key = some value ↔ (key, value) ∈ m.entries :=
  lookup_eq_some_iff m.nodup_keys

end SchemaDelta.OrderedMap
