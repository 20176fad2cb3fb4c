import SchemaDelta.Proofs.Change.Operation

/-!
# The steps of a change at one place

The edits of a table are computed by three comparisons that know nothing of each other. Looked at
one place of a layout at a time each of them does little: what it does there depends on the two
values that the maps have under the name of the place (`stepsAt_columnEdits`,
`stepsAt_indexEdits`, `stepsAt_constraint_drops`, `stepsAt_constraint_adds`), and taken by itself
it leaves there what the target has.
-/

namespace SchemaDelta

open Sql Text

/-- The name under which a map would have what stands in the place. -/
def Slot.name : Slot → Text
  | .column name => name
  | .primaryKey => Constraint.primaryName
  | .key name => name
  | .foreignKey name => name

/-- The steps at the place of a column. -/
def columnSteps : Option Column → Option Column → List Step
  | none, some new => [.add (.column new.definition)]
  | some old, some new =>
    if old.definition ≠ new.definition then [.modify (.column new.definition)] else []
  | _, none => []

/-- The steps at the place of an index. -/
def indexSteps : Option Index → Option Index → List Step
  | none, some new => [.add (.index new.definition)]
  | some _, none => [.drop]
  | some old, some new =>
    if old.definition ≠ new.definition then [.drop, .add (.index new.definition)] else []
  | none, none => []

/-- The drop at a place of a constraint that the target does not have or has otherwise. -/
def dropSteps (slot : Slot) : Option Constraint → Option Constraint → List Step
  | none, _ => []
  | some old, none => if old.slot = slot then [.drop] else []
  | some old, some new =>
    if old.definition ≠ new.definition ∧ old.slot = slot then [.drop] else []

/-- The addition at a place of a constraint that the current form does not have or has
otherwise. -/
def addSteps (slot : Slot) : Option Constraint → Option Constraint → List Step
  | _, none => []
  | none, some new => if new.slot = slot then [.add new.content] else []
  | some old, some new =>
    if old.definition ≠ new.definition ∧ new.slot = slot then [.add new.content] else []

/-- A declared constraint has the name that its place has. -/
theorem Constraint.Declared.name_eq_of_slot {constraint : Constraint} (h : constraint.Declared)
    {slot : Slot} (hslot : constraint.slot = slot) : constraint.name = slot.name := by
  subst hslot
  cases hkind : constraint.kind with
  | primaryKey => simpa [Constraint.slot, hkind, Slot.name] using (h.primary hkind).1
  | uniqueKey => simp [Constraint.slot, hkind, Slot.name]
  | foreignKey => simp [Constraint.slot, hkind, Slot.name]

section Steps

variable {slot : Slot}

/-- A step at another place is none here. -/
theorem stepsAt_of_ne {other : Slot} {step : Step} (h : other ≠ slot) :
    (Operation.on other step).stepsAt slot = [] :=
  if_neg h

/-- The edits of columns make steps at the places of columns only. -/
theorem stepsAt_columnEdits {current target : OrderedMap Column}
    (htarget : target.Holds fun name column => column.name = name ∧ column.Declared) :
    (columnEdits current target).flatMap (fun edit => edit.operation.stepsAt slot) =
      match slot with
      | .column name => columnSteps (current.get? name) (target.get? name)
      | _ => [] := by
  -- What happens to a column of another name happens at another place.
  have hname : ∀ {name : Text} {step : Step}, name ≠ slot.name →
      (Operation.on (.column name) step).stepsAt slot = [] := by
    intro name step hne
    refine stepsAt_of_ne ?_
    rintro rfl
    exact hne rfl
  rw [columnEdits, List.flatMap_append, List.flatMap_append, List.flatMap_map, List.flatMap_map,
    List.flatMap_map]
  rw [OrderedMap.flatMap_compare slot.name (fun _ _ _ => hname) (fun _ _ _ _ => rfl)
    (fun _ _ _ _ _ => hname)]
  cases slot with
  | column name =>
      have hdefinition : ∀ column ∈ target.get? name,
          quoteName name ++ ' ' :: column.typeDefinition = column.definition := by
        intro column hget
        obtain ⟨rfl, hcolumn⟩ := htarget.of_get? hget
        exact hcolumn.definition_eq.symm
      simp only [Slot.name]
      cases hnew : target.get? name with
      | none => cases current.get? name <;> rfl
      | some new =>
          have hnewDefinition := hdefinition new hnew
          cases current.get? name with
          | none => simp [Edit.operation, Operation.stepsAt, columnSteps, hnewDefinition]
          | some old => simp [Edit.operation, Operation.stepsAt, columnSteps, hnewDefinition]
  | primaryKey | key | foreignKey =>
      simp [Edit.operation, Operation.stepsAt]
      split <;> rfl

/-- The edits of indexes make steps at the places of indexes only. -/
theorem stepsAt_indexEdits {current target : OrderedMap Index} :
    (indexEdits current target).flatMap (fun edit => edit.operation.stepsAt slot) =
      match slot with
      | .key name => indexSteps (current.get? name) (target.get? name)
      | _ => [] := by
  have hname : ∀ {name : Text} {step : Step}, name ≠ slot.name →
      (Operation.on (.key name) step).stepsAt slot = [] := by
    intro name step hne
    refine stepsAt_of_ne ?_
    rintro rfl
    exact hne rfl
  rw [indexEdits, List.flatMap_append, List.flatMap_append, List.flatMap_map, List.flatMap_map,
    List.flatMap_assoc]
  rw [OrderedMap.flatMap_compare slot.name (fun _ _ _ => hname) (fun _ _ _ => hname)]
  · cases slot with
    | key name =>
        simp only [Slot.name]
        cases current.get? name <;> cases target.get? name <;>
          simp [Edit.operation, Operation.stepsAt, indexSteps]
    | column | primaryKey | foreignKey =>
        simp [Edit.operation, Operation.stepsAt]
        split <;> rfl
  · intro name old new _ _ hne
    simp only [List.flatMap_cons, List.flatMap_nil, List.append_nil, Edit.operation, hname hne]

variable {current target : OrderedMap Constraint}

/-- The drops among the edits of constraints make the steps of dropped constraints. -/
theorem stepsAt_constraint_drops
    (hcurrent : current.Holds fun name constraint =>
      constraint.name = name ∧ constraint.Declared) :
    ((constraintEdits current target).filter (·.action = .drop)).flatMap
        (fun edit => edit.operation.stepsAt slot) =
      dropSteps slot (current.get? slot.name) (target.get? slot.name) := by
  -- The kind of the constraint decides about its place, and the map knows its name only.
  have hname : ∀ {name : Text} {old : Constraint} {step : Step}, current.get? name = some old →
      name ≠ slot.name → (Operation.on old.slot step).stepsAt slot = [] := by
    intro name old step hget hne
    refine stepsAt_of_ne fun hslot => hne ?_
    obtain ⟨rfl, hold⟩ := hcurrent.of_get? hget
    exact hold.name_eq_of_slot hslot
  rw [flatMap_filter, constraintEdits, List.flatMap_append, List.flatMap_append,
    List.flatMap_map, List.flatMap_map, List.flatMap_assoc]
  rw [OrderedMap.flatMap_compare slot.name (fun _ _ _ _ => rfl)
    (fun _ _ hget hne => by simp [Edit.action, Edit.operation, hname hget hne])
    (fun _ _ _ hget _ hne => by simp [Edit.action, Edit.operation, hname hget hne])]
  cases current.get? slot.name with
  | none => cases target.get? slot.name <;> rfl
  | some old =>
      cases target.get? slot.name with
      | none => simp [Edit.action, Edit.operation, Operation.stepsAt, dropSteps]
      | some new =>
          by_cases hsame : old.definition = new.definition <;>
            simp [Edit.action, Edit.operation, Operation.stepsAt, dropSteps, hsame]

/-- The additions among the edits of constraints make the steps of added constraints. -/
theorem stepsAt_constraint_adds
    (htarget : target.Holds fun name constraint =>
      constraint.name = name ∧ constraint.Declared) :
    ((constraintEdits current target).filter (·.action = .add)).flatMap
        (fun edit => edit.operation.stepsAt slot) =
      addSteps slot (current.get? slot.name) (target.get? slot.name) := by
  have hname : ∀ {name : Text} {new : Constraint} {step : Step}, target.get? name = some new →
      name ≠ slot.name → (Operation.on new.slot step).stepsAt slot = [] := by
    intro name new step hget hne
    refine stepsAt_of_ne fun hslot => hne ?_
    obtain ⟨rfl, hnew⟩ := htarget.of_get? hget
    exact hnew.name_eq_of_slot hslot
  rw [flatMap_filter, constraintEdits, List.flatMap_append, List.flatMap_append,
    List.flatMap_map, List.flatMap_map, List.flatMap_assoc]
  rw [OrderedMap.flatMap_compare slot.name
    (fun _ _ hget hne => by simp [Edit.action, Edit.operation, hname hget hne])
    (fun _ _ _ _ => rfl)
    (fun _ _ _ _ hget hne => by simp [Edit.action, Edit.operation, hname hget hne])]
  cases target.get? slot.name with
  | none => cases current.get? slot.name <;> rfl
  | some new =>
      cases current.get? slot.name with
      | none => simp [Edit.action, Edit.operation, Operation.stepsAt, addSteps]
      | some old =>
          by_cases hsame : old.definition = new.definition <;>
            simp [Edit.action, Edit.operation, Operation.stepsAt, addSteps, hsame]

end Steps

/-! ## A run at one place -/

section Place

variable {slot : Slot} {old new : Option Constraint}

theorem Constraint.slot_ne_column {constraint : Constraint} {name : Text} :
    constraint.slot ≠ .column name := by
  unfold slot
  split <;> simp

/-- No constraint is dropped where none stands. -/
theorem dropSteps_eq_nil (h : Constraint.contentAt slot old = none) :
    dropSteps slot old new = [] := by
  cases old with
  | none => rfl
  | some a =>
      have hslot : a.slot ≠ slot := by simpa [Constraint.contentAt] using h
      cases new <;> simp [dropSteps, hslot]

/-- No constraint is added where the target has none. -/
theorem addSteps_eq_nil (h : Constraint.contentAt slot new = none) :
    addSteps slot old new = [] := by
  cases new with
  | none => cases old <;> rfl
  | some b =>
      have hslot : b.slot ≠ slot := by simpa [Constraint.contentAt] using h
      cases old <;> simp [addSteps, hslot]

variable (hsame : ∀ a ∈ old, ∀ b ∈ new, a.definition = b.definition → a = b)

include hsame

/-- Where the target has no constraint, dropping leaves the place free. -/
theorem applyAll_dropSteps (h : Constraint.contentAt slot new = none) :
    Step.applyAll (Constraint.contentAt slot old) (dropSteps slot old new) = some none := by
  cases old with
  | none => rfl
  | some a =>
      by_cases hslot : a.slot = slot
      · cases new with
        | none => simp [Constraint.contentAt, dropSteps, hslot, Step.applyAll, Step.apply]
        | some b =>
            -- The target has the constraint of this name in another place.
            have hne : a.definition ≠ b.definition := by
              intro heq
              obtain rfl := hsame a rfl b rfl heq
              simp [Constraint.contentAt, hslot] at h
            simp [Constraint.contentAt, dropSteps, hslot, hne, Step.applyAll, Step.apply]
      · have hnone : Constraint.contentAt slot (some a) = none := by
          simp [Constraint.contentAt, hslot]
        rw [dropSteps_eq_nil hnone, hnone]
        rfl

/-- Where there was no constraint, adding takes the free place. -/
theorem applyAll_addSteps (h : Constraint.contentAt slot old = none) :
    Step.applyAll none (addSteps slot old new) = some (Constraint.contentAt slot new) := by
  cases new with
  | none => cases old <;> rfl
  | some b =>
      by_cases hslot : b.slot = slot
      · cases old with
        | none => simp [Constraint.contentAt, addSteps, hslot, Step.applyAll, Step.apply]
        | some a =>
            have hne : a.definition ≠ b.definition := by
              intro heq
              obtain rfl := hsame a rfl b rfl heq
              simp [Constraint.contentAt, hslot] at h
            simp [Constraint.contentAt, addSteps, hslot, hne, Step.applyAll, Step.apply]
      · have hnone : Constraint.contentAt slot (some b) = none := by
          simp [Constraint.contentAt, hslot]
        rw [addSteps_eq_nil hnone, hnone]
        rfl

/-- Dropping and adding the constraint of a place reaches the target. -/
theorem applyAll_constraintSteps :
    Step.applyAll (Constraint.contentAt slot old)
      (dropSteps slot old new ++ addSteps slot old new) =
        some (Constraint.contentAt slot new) := by
  cases hold : Constraint.contentAt slot old with
  | none =>
      rw [dropSteps_eq_nil hold, List.nil_append]
      exact applyAll_addSteps hsame hold
  | some content =>
      cases hnew : Constraint.contentAt slot new with
      | none =>
          rw [addSteps_eq_nil hnew, List.append_nil, ← hold]
          exact applyAll_dropSteps hsame hnew
      | some content' =>
          -- Both forms have a constraint here, which stays or is dropped and added again.
          obtain ⟨a, rfl, ha⟩ := Option.bind_eq_some_iff.1 hold
          obtain ⟨b, rfl, hb⟩ := Option.bind_eq_some_iff.1 hnew
          obtain ⟨haslot, hcontent⟩ := Option.ite_none_right_eq_some.1 ha
          obtain ⟨hbslot, hcontent'⟩ := Option.ite_none_right_eq_some.1 hb
          obtain rfl := Option.some.inj hcontent
          obtain rfl := Option.some.inj hcontent'
          by_cases hdefinition : a.definition = b.definition
          · obtain rfl := hsame a rfl b rfl hdefinition
            simp [dropSteps, addSteps, Step.applyAll]
          · simp [dropSteps, addSteps, haslot, hbslot, hdefinition, Step.applyAll, Step.apply]

end Place

/-- The steps at the place of an index reach the index of the target. -/
theorem applyAll_indexSteps (old new : Option Index) :
    Step.applyAll (old.map fun index => .index index.definition) (indexSteps old new) =
      some (new.map fun index => .index index.definition) := by
  cases old with
  | none => cases new <;> rfl
  | some a =>
      cases new with
      | none => rfl
      | some b =>
          by_cases hdefinition : a.definition = b.definition <;>
            simp [indexSteps, hdefinition, Step.applyAll, Step.apply]

/-- The steps at the place of a column reach the column of the target, if it has one. -/
theorem applyAll_columnSteps (old new : Option Column) :
    Step.applyAll (old.map fun column => .column column.definition) (columnSteps old new) =
      some ((new.map fun column => .column column.definition) <|>
        old.map fun column => .column column.definition) := by
  cases old with
  | none => cases new <;> rfl
  | some a =>
      cases new with
      | none => rfl
      | some b =>
          by_cases hdefinition : a.definition = b.definition <;>
            simp [columnSteps, hdefinition, Step.applyAll, Step.apply]

/-- The steps at a place that indexes and unique keys share reach what the target has there, if
neither form has both. -/
theorem applyAll_keySteps {slot : Slot} {old new : Option Constraint}
    (hsame : ∀ a ∈ old, ∀ b ∈ new, a.definition = b.definition → a = b)
    (oldIndex newIndex : Option Index)
    (hold : oldIndex.isSome → Constraint.contentAt slot old = none)
    (hnew : newIndex.isSome → Constraint.contentAt slot new = none) :
    Step.applyAll ((oldIndex.map fun index => .index index.definition) <|>
        Constraint.contentAt slot old)
      (dropSteps slot old new ++ indexSteps oldIndex newIndex ++ addSteps slot old new) =
        some ((newIndex.map fun index => .index index.definition) <|>
          Constraint.contentAt slot new) := by
  have hindex := applyAll_indexSteps oldIndex newIndex
  cases oldIndex with
  | some i =>
      have hfree := hold rfl
      rw [dropSteps_eq_nil hfree, List.nil_append]
      cases newIndex with
      | some j =>
          rw [addSteps_eq_nil (hnew rfl), List.append_nil]
          exact hindex
      | none =>
          -- The index goes before a unique key takes its name.
          exact applyAll_append hindex (applyAll_addSteps hsame hfree)
  | none =>
      cases newIndex with
      | some j =>
          -- A unique key goes before the index takes its name.
          have hdrop := applyAll_dropSteps hsame (hnew rfl)
          rw [addSteps_eq_nil (hnew rfl), List.append_nil]
          exact applyAll_append hdrop hindex
      | none =>
          have hnone : indexSteps none none = [] := rfl
          rw [hnone, List.append_nil]
          exact applyAll_constraintSteps hsame

end SchemaDelta
