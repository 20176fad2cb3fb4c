import SchemaDelta.Text.Basic

/-!
# Maps in order of first insertion

A map from texts to values that remembers in which order its keys first came. Inserting under a
key that is there replaces the value and keeps the place; a new key goes to the end. Keys are
distinct by the type.
-/

namespace SchemaDelta

/-- Entries with distinct keys, in the order in which the keys were first inserted. -/
structure OrderedMap (α : Type) where
  /-- The entries in order. -/
  entries : List (Text × α)
  /-- No key occurs twice. -/
  nodup_keys : (entries.map Prod.fst).Nodup
  deriving DecidableEq

namespace OrderedMap

variable {α β : Type}

/-- The map without entries. -/
def empty : OrderedMap α := ⟨[], List.nodup_nil⟩

instance : EmptyCollection (OrderedMap α) := ⟨empty⟩

instance : Inhabited (OrderedMap α) := ⟨empty⟩

/-- The keys in order. -/
def keys (m : OrderedMap α) : List Text := m.entries.map Prod.fst

/-- The values in the order of their keys. -/
def values (m : OrderedMap α) : List α := m.entries.map Prod.snd

/-- The number of entries. -/
def size (m : OrderedMap α) : Nat := m.entries.length

/-- The first value that a list of entries holds under a key. -/
def lookup (key : Text) : List (Text × α) → Option α
  | [] => none
  | (k, v) :: rest => if k = key then some v else lookup key rest

/-- The value under a key. -/
def get? (m : OrderedMap α) (key : Text) : Option α := lookup key m.entries

/-- Whether a key is there. -/
def contains (m : OrderedMap α) (key : Text) : Bool := (m.get? key).isSome

/-- The entries after the value under a key is set: in place if the key is there, else at the
end. -/
def insertEntry (key : Text) (value : α) : List (Text × α) → List (Text × α)
  | [] => [(key, value)]
  | (k, v) :: rest =>
    if k = key then (k, value) :: rest else (k, v) :: insertEntry key value rest

/-- Setting a key that is there changes no key. -/
theorem map_fst_insertEntry_of_mem {key : Text} {value : α} {entries : List (Text × α)}
    (h : key ∈ entries.map Prod.fst) :
    (insertEntry key value entries).map Prod.fst = entries.map Prod.fst := by
  induction entries with
  | nil => simp at h
  | cons entry rest ih =>
    obtain ⟨k, v⟩ := entry
    by_cases hk : k = key
    · simp [insertEntry, hk]
    · simp only [List.map_cons, List.mem_cons] at h
      simp [insertEntry, hk, ih (h.resolve_left (Ne.symm hk))]

/-- Setting a new key puts it at the end. -/
theorem map_fst_insertEntry_of_not_mem {key : Text} {value : α} {entries : List (Text × α)}
    (h : key ∉ entries.map Prod.fst) :
    (insertEntry key value entries).map Prod.fst = entries.map Prod.fst ++ [key] := by
  induction entries with
  | nil => rfl
  | cons entry rest ih =>
    obtain ⟨k, v⟩ := entry
    simp only [List.map_cons, List.mem_cons, not_or] at h
    simp [insertEntry, Ne.symm h.1, ih h.2]

/-- Setting a key keeps the keys distinct. -/
theorem nodup_insertEntry {key : Text} {value : α} {entries : List (Text × α)}
    (h : (entries.map Prod.fst).Nodup) :
    ((insertEntry key value entries).map Prod.fst).Nodup := by
  by_cases hk : key ∈ entries.map Prod.fst
  · rw [map_fst_insertEntry_of_mem hk]
    exact h
  · rw [map_fst_insertEntry_of_not_mem hk, List.nodup_append]
    refine ⟨h, by simp, ?_⟩
    intro a ha b hb hab
    rw [List.mem_singleton] at hb
    exact hk (hb ▸ hab ▸ ha)

/-- The map with a value set under a key. -/
def insert (m : OrderedMap α) (key : Text) (value : α) : OrderedMap α :=
  ⟨insertEntry key value m.entries, nodup_insertEntry m.nodup_keys⟩

/-- The map with the value under a key computed from the value that is there, if any. -/
def alter (m : OrderedMap α) (key : Text) (f : Option α → α) : OrderedMap α :=
  m.insert key (f (m.get? key))

/-- The map that a list of entries builds when they are inserted one after another. -/
def ofList (entries : List (Text × α)) : OrderedMap α :=
  entries.foldl (fun m entry => m.insert entry.1 entry.2) empty

/-- Whether two maps have the same keys, with values that `same` accepts. Order does not
count. -/
def sameEntries (same : α → α → Bool) (a b : OrderedMap α) : Bool :=
  a.size == b.size && a.entries.all fun entry =>
    match b.get? entry.1 with
    | none => false
    | some value => same entry.2 value

end OrderedMap

end SchemaDelta
