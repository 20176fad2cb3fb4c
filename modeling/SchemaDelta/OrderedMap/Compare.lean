import SchemaDelta.OrderedMap.Lemmas

/-!
# Comparing two maps

The keys of two maps fall into three classes: those that only the second has, those that only
the first has, and those that both have. `mem_added_iff`, `mem_removed_iff` and
`mem_changed_iff` say what each comparison finds.
-/

namespace SchemaDelta.OrderedMap

variable {α : Type}

/-- The entries of `target` whose key `current` does not have, in the order of `target`. -/
def added (current target : OrderedMap α) : List (Text × α) :=
  target.entries.filter fun entry => !current.contains entry.1

/-- The entries of `current` whose key `target` does not have, in the order of `current`. -/
def removed (current target : OrderedMap α) : List (Text × α) :=
  current.entries.filter fun entry => !target.contains entry.1

/-- The keys of both maps whose values differ, each with the value in `current` and the value in
`target`, in the order of `target`. -/
def changed (differ : α → α → Bool) (current target : OrderedMap α) : List (Text × α × α) :=
  target.entries.filterMap fun entry =>
    match current.get? entry.1 with
    | none => none
    | some old => if differ old entry.2 then some (entry.1, old, entry.2) else none

theorem mem_added_iff {current target : OrderedMap α} {entry : Text × α} :
    entry ∈ added current target ↔ entry ∈ target.entries ∧ entry.1 ∉ current.keys := by
  simp [added, ← contains_iff_mem_keys]

theorem mem_removed_iff {current target : OrderedMap α} {entry : Text × α} :
    entry ∈ removed current target ↔ entry ∈ current.entries ∧ entry.1 ∉ target.keys := by
  simp [removed, ← contains_iff_mem_keys]

theorem mem_changed_iff {differ : α → α → Bool} {current target : OrderedMap α} {key : Text}
    {old new : α} :
    (key, old, new) ∈ changed differ current target ↔
      (key, new) ∈ target.entries ∧ current.get? key = some old ∧ differ old new := by
  simp only [changed, List.mem_filterMap]
  constructor
  · rintro ⟨⟨k, v⟩, hmem, h⟩
    split at h
    · simp at h
    · next o ho =>
      split at h
      · next hd =>
        obtain ⟨rfl, rfl, rfl⟩ : k = key ∧ o = old ∧ v = new := by simpa using h
        exact ⟨hmem, ho, hd⟩
      · simp at h
  · rintro ⟨hmem, hget, hd⟩
    exact ⟨(key, new), hmem, by simp [hget, hd]⟩

end SchemaDelta.OrderedMap
