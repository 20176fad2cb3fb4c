import Mathlib.Data.List.Basic
import SchemaDelta.Change.Edit
import SchemaDelta.Proofs.OrderedMap.Entries

/-!
# Edits that rebuild what differs

Indexes and constraints are edited in one way, and only the edits that add and drop an entry are
their own: what differs is dropped and added again. So an entry of the target is added exactly
where the current map does not have it alike (`mem_rebuildEdits_iff`), and there is nothing to edit
exactly if the maps agree (`rebuildEdits_eq_nil_iff`).
-/

namespace SchemaDelta

variable {α : Type} {add drop : Text × α → Edit} {differ : α → α → Bool}
  {current target : OrderedMap α}

/-- The edits of a comparison where an entry that differs is dropped and added again. -/
def rebuildEdits (add drop : Text × α → Edit) (differ : α → α → Bool)
    (current target : OrderedMap α) : List Edit :=
  (OrderedMap.added current target).map add ++ (OrderedMap.removed current target).map drop ++
    (OrderedMap.changed differ current target).flatMap fun change =>
      [drop (change.1, change.2.1), add (change.1, change.2.2)]

theorem indexEdits_eq_rebuildEdits (current target : OrderedMap Index) :
    indexEdits current target =
      rebuildEdits (fun entry => .addIndex entry.1 entry.2.definition)
        (fun entry => .dropIndex entry.1) (fun old new => old.definition ≠ new.definition)
        current target :=
  rfl

theorem constraintEdits_eq_rebuildEdits (current target : OrderedMap Constraint) :
    constraintEdits current target =
      rebuildEdits (fun entry => .addConstraint entry.2) (fun entry => .dropConstraint entry.2)
        (fun old new => old.definition ≠ new.definition) current target :=
  rfl

/-- A list of pairs, written out one after another, is empty exactly when there is no pair. -/
theorem flatMap_pair_eq_nil_iff {α β : Type} {first second : α → β} {l : List α} :
    l.flatMap (fun a => [first a, second a]) = [] ↔ l = [] := by
  cases l <;> simp

/-- There is no edit exactly when the maps agree under a view, if values differ just where they
look different. -/
theorem rebuildEdits_eq_nil_iff {β : Type} {view : α → β}
    (hdiffer : ∀ key old new, current.get? key = some old → target.get? key = some new →
      (differ old new ↔ view old ≠ view new)) :
    rebuildEdits add drop differ current target = [] ↔ OrderedMap.Agree view current target := by
  rw [OrderedMap.agree_iff differ hdiffer, rebuildEdits, List.append_eq_nil_iff,
    List.append_eq_nil_iff, List.map_eq_nil_iff, List.map_eq_nil_iff, flatMap_pair_eq_nil_iff,
    and_assoc]

/-- An edit that adds is that of an entry of the target which the current map does not have
alike. -/
theorem mem_rebuildEdits_iff (hdrop : ∀ entry, (drop entry).action = .drop) {edit : Edit}
    (hedit : edit.action = .add) : edit ∈ rebuildEdits add drop differ current target ↔
      ∃ key new, target.get? key = some new ∧ (∀ old ∈ current.get? key, differ old new) ∧
        edit = add (key, new) := by
  have hne : ∀ entry, edit ≠ drop entry := by
    rintro entry rfl
    simp [hdrop] at hedit
  constructor
  · intro h
    rcases List.mem_append.1 h with h | h
    · rcases List.mem_append.1 h with h | h
      · obtain ⟨⟨key, new⟩, hentry, rfl⟩ := List.mem_map.1 h
        have hnone := OrderedMap.get?_eq_none_of_mem_added hentry
        exact ⟨key, new, OrderedMap.get?_of_mem_added hentry, by simp [hnone], rfl⟩
      · obtain ⟨entry, -, heq⟩ := List.mem_map.1 h
        exact absurd heq.symm (hne entry)
    · obtain ⟨⟨key, old, new⟩, hentry, hmem⟩ := List.mem_flatMap.1 h
      obtain ⟨hold, hnew, hdiffer⟩ := OrderedMap.get?_of_mem_changed hentry
      have hadd := (List.mem_pair.1 hmem).resolve_left (hne _)
      exact ⟨key, new, hnew, by simpa [hold] using hdiffer, hadd⟩
  · rintro ⟨key, new, hnew, hdiffer, rfl⟩
    have hentry := OrderedMap.get?_eq_some_iff.1 hnew
    cases hold : current.get? key with
    | none =>
        have hadded : (key, new) ∈ OrderedMap.added current target :=
          OrderedMap.mem_added_iff.2 ⟨hentry, OrderedMap.get?_eq_none_iff.1 hold⟩
        exact List.mem_append_left _ (List.mem_append_left _ (List.mem_map_of_mem hadded))
    | some old =>
        have hchanged : (key, old, new) ∈ OrderedMap.changed differ current target :=
          OrderedMap.mem_changed_iff.2 ⟨hentry, hold, hdiffer old hold⟩
        exact List.mem_append_right _ (List.mem_flatMap.2 ⟨_, hchanged, by simp⟩)

end SchemaDelta
