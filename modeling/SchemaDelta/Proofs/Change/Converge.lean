import SchemaDelta.Proofs.Change.Delta
import SchemaDelta.Proofs.Change.Steps

/-!
# Running a change reaches the target

A name may move between an index, a unique key and a foreign key, while the comparisons that make
the edits know nothing of each other. Still no step meets another at its place: the steps there
are those that drop a constraint, then those of the column or index, then those that add a
constraint (`stepsAt_ordered`), and where the current form has no name twice, the place is free
or taken as each of them needs it. So the run ends with the target, and with the columns that only
the current form has (`run_ordered`).
-/

namespace SchemaDelta

open Sql Text Dump

/-- No name is both that of a plain index and that of a unique key. -/
def Table.Separated (table : Table) : Prop :=
  ∀ index ∈ table.indexes.entries, ∀ constraint ∈ table.constraints.entries,
    constraint.1 = index.1 → constraint.2.kind ≠ .uniqueKey

instance (table : Table) : Decidable table.Separated :=
  inferInstanceAs (Decidable (∀ index ∈ table.indexes.entries,
    ∀ constraint ∈ table.constraints.entries,
      constraint.1 = index.1 → constraint.2.kind ≠ .uniqueKey))

/-- What a change adds is read as what it is. Unless the current form has the same already, no
plain index and no unique key of the target reads like a column behind the word `ADD`, and every
foreign key opens with the word `CONSTRAINT`. -/
structure TableChange.Unambiguous (change : TableChange) : Prop where
  indexes : ∀ index ∈ change.target.indexes.entries,
    (change.current.indexes.get? index.1).map Index.definition ≠ some index.2.definition →
      AddsNoColumn index.2.definition
  uniqueKeys : ∀ constraint ∈ change.target.constraints.entries,
    (change.current.constraints.get? constraint.1).map Constraint.definition ≠
        some constraint.2.definition →
      constraint.2.kind = .uniqueKey → AddsNoColumn constraint.2.definition
  foreignKeys : ∀ constraint ∈ change.target.constraints.entries,
    (change.current.constraints.get? constraint.1).map Constraint.definition ≠
        some constraint.2.definition →
      constraint.2.kind = .foreignKey → opensWithConstraint constraint.2.definition

/-- The lines that a script has for the ordered edits of a change. -/
def TableChange.orderedLines (change : TableChange) : List Text :=
  change.ordered.map fun edit => (edit.line change.name).text

/-- The layout that a change is to reach: that of the target, with the columns that only the
current layout has. -/
def Layout.converged (current target : Layout) : Layout
  | .column name => target (.column name) <|> current (.column name)
  | slot => target slot

section Run

variable {statements targetStatements : List Text} {change : TableChange} {current target : Text}

/-- The steps of the ordered edits at a place: what the constraints drop, then what the columns
and indexes do, then what the constraints add. -/
theorem stepsAt_ordered (hcurrent : change.current.Recorded statements current)
    (htarget : change.target.Recorded targetStatements target) (slot : Slot) :
    (change.ordered.map Edit.operation).flatMap (Operation.stepsAt slot) =
      dropSteps slot (change.current.constraints.get? slot.name)
          (change.target.constraints.get? slot.name) ++
        (match slot with
          | .column name => columnSteps (change.current.columns.get? name)
            (change.target.columns.get? name)
          | .key name => indexSteps (change.current.indexes.get? name)
            (change.target.indexes.get? name)
          | _ => []) ++
        addSteps slot (change.current.constraints.get? slot.name)
          (change.target.constraints.get? slot.name) := by
  rw [List.flatMap_map, TableChange.ordered, List.flatMap_append, List.flatMap_append,
    List.flatMap_append, TableChange.constraints, stepsAt_constraint_drops hcurrent.constraints,
    stepsAt_constraint_adds htarget.constraints, TableChange.columns,
    stepsAt_columnEdits htarget.columns, TableChange.indexes, stepsAt_indexEdits]
  cases slot <;> simp

section Separated

variable {table : Table}

/-- Where a separated table has an index, it has no constraint. -/
theorem Table.Separated.contentAt_eq_none (h : table.Separated) {name : Text} {index : Index}
    (hindex : table.indexes.get? name = some index) :
    Constraint.contentAt (.key name) (table.constraints.get? name) = none := by
  cases hconstraint : table.constraints.get? name with
  | none => rfl
  | some constraint =>
      have hkind := h (name, index) (OrderedMap.get?_eq_some_iff.1 hindex) (name, constraint)
        (OrderedMap.get?_eq_some_iff.1 hconstraint) rfl
      cases hcase : constraint.kind with
      | uniqueKey => exact absurd hcase hkind
      | primaryKey | foreignKey => simp [Constraint.contentAt, Constraint.slot, hcase]

end Separated

/-- At every place the steps of the ordered edits leave what the change is to reach. -/
theorem applyAll_stepsAt_ordered (change : TableChange)
    (hcurrent : change.current.Recorded statements current)
    (htarget : change.target.Recorded targetStatements target)
    (hseparated : change.current.Separated) (htargetSeparated : change.target.Separated)
    (slot : Slot) :
    Step.applyAll (Layout.ofTable change.current slot)
        ((change.ordered.map Edit.operation).flatMap (Operation.stepsAt slot)) =
      some ((Layout.ofTable change.current).converged (Layout.ofTable change.target) slot) := by
  have hsame : ∀ a ∈ change.current.constraints.get? slot.name,
      ∀ b ∈ change.target.constraints.get? slot.name, a.definition = b.definition → a = b := by
    intro a ha b hb hdefinition
    obtain ⟨hnameA, ha⟩ := hcurrent.constraints.of_get? ha
    obtain ⟨hnameB, hb⟩ := htarget.constraints.of_get? hb
    exact ha.eq_of_definition_eq hb hdefinition
  rw [stepsAt_ordered hcurrent htarget]
  cases slot with
  | column name =>
      -- No constraint stands among the columns.
      have hnone : ∀ constraint, Constraint.contentAt (.column name) constraint = none := by
        intro constraint
        cases constraint with
        | none => rfl
        | some c => exact if_neg Constraint.slot_ne_column
      rw [dropSteps_eq_nil (hnone _), addSteps_eq_nil (hnone _), List.nil_append,
        List.append_nil]
      exact applyAll_columnSteps _ _
  | primaryKey =>
      rw [List.append_nil]
      exact applyAll_constraintSteps hsame
  | foreignKey name =>
      rw [List.append_nil]
      exact applyAll_constraintSteps hsame
  | key name =>
      refine applyAll_keySteps hsame _ _ (fun h => ?_) fun h => ?_
      · obtain ⟨index, hindex⟩ := Option.isSome_iff_exists.1 h
        exact hseparated.contentAt_eq_none hindex
      · obtain ⟨index, hindex⟩ := Option.isSome_iff_exists.1 h
        exact htargetSeparated.contentAt_eq_none hindex

/-- Every ordered edit is unambiguous if the change is. -/
theorem unambiguous_of_mem_ordered (h : change.Unambiguous) {edit : Edit}
    (hedit : edit ∈ change.ordered) : edit.Unambiguous := by
  rcases mem_of_mem_ordered hedit with hedit | hedit | hedit
  · rcases of_mem_columnEdits hedit with ⟨_, _, -, rfl | rfl⟩ | ⟨_, _, -, rfl⟩ <;> trivial
  · rcases of_mem_indexEdits hedit with ⟨name, index, hget, hnew, rfl⟩ | ⟨_, _, -, rfl⟩
    · exact h.indexes (name, index) (OrderedMap.get?_eq_some_iff.1 hget) hnew
    · trivial
  · rcases of_mem_constraintEdits hedit with ⟨name, constraint, hget, hnew, rfl⟩ |
      ⟨_, _, -, rfl⟩
    · have hmem := OrderedMap.get?_eq_some_iff.1 hget
      exact ⟨h.uniqueKeys (name, constraint) hmem hnew,
        h.foreignKeys (name, constraint) hmem hnew⟩
    · trivial

/-- The statements that take one table to another are each read as an operation that succeeds
where it is run, and after the last of them the table is the target, with the columns that only
the current form has. -/
theorem run_ordered {currentText targetText currentKey targetKey : Text} {current target : Table}
    (hcurrent : (schemaOfText currentText).tables.get? currentKey = some current)
    (htarget : (schemaOfText targetText).tables.get? targetKey = some target)
    (hseparated : current.Separated) (htargetSeparated : target.Separated)
    {name : Text} (hunambiguous : (TableChange.mk name current target).Unambiguous) :
    Layout.run name (Layout.ofTable current) (TableChange.mk name current target).orderedLines =
      some ((Layout.ofTable current).converged (Layout.ofTable target)) := by
  have hold := (recorded_schemaOfText currentText).tables.of_get? hcurrent
  have hnew := (recorded_schemaOfText targetText).tables.of_get? htarget
  have hread : ∀ edit ∈ (TableChange.mk name current target).ordered,
      Operation.ofLine? name (edit.line name).text = some edit.operation := by
    intro edit hedit
    have hdeclared := declared_of_mem_ordered hold hnew hedit
    exact ofLine?_line hdeclared (unambiguous_of_mem_ordered hunambiguous hedit) name
  rw [Layout.run, TableChange.orderedLines, mapM_map_eq_some hread, Option.bind_some]
  exact execute_of_slots fun slot =>
    applyAll_stepsAt_ordered ⟨name, current, target⟩ hold hnew hseparated htargetSeparated slot

end Run

/-! ## Small tables -/

/-- The table `t` that this statement creates, with the column `x` alone. -/
def createdBy (sql : Text) : Table :=
  { Table.shell "t" with definition := some sql }.addColumn ⟨"x", "\x60x\x60 int", false⟩

/-- The table with a plain index. -/
def plainlyKeyed : Table :=
  (createdBy "CREATE TABLE t (x int, KEY k (x))").addIndex ⟨"k", "KEY k (x)"⟩

/-- The table with a unique key of the same name. -/
def uniquelyKeyed : Table :=
  (createdBy "CREATE TABLE t (x int, UNIQUE KEY k (x))").addConstraint
    (.named "k" .uniqueKey "UNIQUE KEY k (x)")

theorem get?_plainlyKeyed :
    (schemaOfText "CREATE TABLE t (x int, KEY k (x))").tables.get? "t" = some plainlyKeyed := by
  decide +kernel

theorem get?_uniquelyKeyed :
    (schemaOfText "CREATE TABLE t (x int, UNIQUE KEY k (x))").tables.get? "t" =
      some uniquelyKeyed := by
  decide +kernel

/-- An index becomes a unique key by a drop and an addition under the same name. -/
theorem run_of_index_made_unique :
    (schemaOfText "CREATE TABLE t (x int, KEY k (x))").tables.get? "t" = some plainlyKeyed ∧
      (schemaOfText "CREATE TABLE t (x int, UNIQUE KEY k (x))").tables.get? "t" =
        some uniquelyKeyed ∧
      plainlyKeyed.Separated ∧ uniquelyKeyed.Separated ∧
      (TableChange.mk "t" plainlyKeyed uniquelyKeyed).Unambiguous ∧
      Layout.run "t" (Layout.ofTable plainlyKeyed)
          ["ALTER TABLE \x60t\x60 DROP INDEX \x60k\x60;".toList,
            "ALTER TABLE \x60t\x60 ADD UNIQUE KEY k (x);".toList] =
        some ((Layout.ofTable plainlyKeyed).converged (Layout.ofTable uniquelyKeyed)) := by
  have hseparated : plainlyKeyed.Separated := by decide +kernel
  have htargetSeparated : uniquelyKeyed.Separated := by decide +kernel
  have hunambiguous : (TableChange.mk "t" plainlyKeyed uniquelyKeyed).Unambiguous :=
    ⟨by decide +kernel, by decide +kernel, by decide +kernel⟩
  have hlines : (TableChange.mk "t" plainlyKeyed uniquelyKeyed).orderedLines =
      ["ALTER TABLE \x60t\x60 DROP INDEX \x60k\x60;".toList,
        "ALTER TABLE \x60t\x60 ADD UNIQUE KEY k (x);".toList] := by
    decide +kernel
  refine ⟨get?_plainlyKeyed, get?_uniquelyKeyed, hseparated, htargetSeparated, hunambiguous, ?_⟩
  rw [← hlines]
  exact run_ordered get?_plainlyKeyed get?_uniquelyKeyed hseparated htargetSeparated
    hunambiguous

/-! ## One statement with two meanings -/

/-- The table without a key. -/
def unkeyed : Table := createdBy "CREATE TABLE t (x int)"

/-- The table with an index whose definition opens with the word `COLUMN`. -/
def keyedAsColumn : Table :=
  (createdBy "CREATE TABLE t (x int, COLUMN \x60a\x60 KEY \x60k\x60 (\x60b\x60))").addIndex
    ⟨"k", "COLUMN \x60a\x60 KEY \x60k\x60 (\x60b\x60)"⟩

/-- The table with a second column, whose type reads like an index. -/
def typedAsKey : Table :=
  (createdBy "CREATE TABLE t (x int, \x60a\x60 KEY \x60k\x60 (\x60b\x60))").addColumn
    ⟨"a", "\x60a\x60 KEY \x60k\x60 (\x60b\x60)", false⟩

/-- Lines that stand for two changes cannot be run so that both changes are reached. -/
theorem not_both_converged {current a b : Table} {name : Text} {slot : Slot}
    (hlines : (TableChange.mk name current a).orderedLines =
      (TableChange.mk name current b).orderedLines)
    (hslot : (Layout.ofTable current).converged (Layout.ofTable a) slot ≠
      (Layout.ofTable current).converged (Layout.ofTable b) slot)
    (run : Layout → List Text → Option Layout) :
    ¬(run (Layout.ofTable current) (TableChange.mk name current a).orderedLines =
        some ((Layout.ofTable current).converged (Layout.ofTable a)) ∧
      run (Layout.ofTable current) (TableChange.mk name current b).orderedLines =
        some ((Layout.ofTable current).converged (Layout.ofTable b))) := by
  rintro ⟨ha, hb⟩
  rw [hlines, hb] at ha
  exact hslot (congrFun (Option.some.inj ha) slot).symm

/-- A layout that differs from another at a place is not the same. -/
theorem ne_some_of_slot {layout : Option Layout} {final : Layout} {slot : Slot}
    (h : layout.map (· slot) ≠ some (final slot)) : layout ≠ some final := by
  rintro rfl
  exact h rfl

/-- Three tables, each read from its definition, with no constraints at all, such that the same
statement adds the index and adds the column. So no way of reading statements reaches the target
in both cases, and the one of `Layout.run` does not for the index. -/
theorem run_ordered_ambiguous :
    (∀ table ∈ [unkeyed, keyedAsColumn, typedAsKey],
      (table.definition.bind fun sql => (schemaOfText sql).tables.get? "t") = some table ∧
        table.Separated ∧ table.constraints.keys = []) ∧
      (∀ run : Layout → List Text → Option Layout,
        ¬(run (Layout.ofTable unkeyed) (TableChange.mk "t" unkeyed keyedAsColumn).orderedLines =
            some ((Layout.ofTable unkeyed).converged (Layout.ofTable keyedAsColumn)) ∧
          run (Layout.ofTable unkeyed) (TableChange.mk "t" unkeyed typedAsKey).orderedLines =
            some ((Layout.ofTable unkeyed).converged (Layout.ofTable typedAsKey)))) ∧
      Layout.run "t" (Layout.ofTable unkeyed)
          (TableChange.mk "t" unkeyed keyedAsColumn).orderedLines ≠
        some ((Layout.ofTable unkeyed).converged (Layout.ofTable keyedAsColumn)) := by
  have hlines : (TableChange.mk "t" unkeyed keyedAsColumn).orderedLines =
      (TableChange.mk "t" unkeyed typedAsKey).orderedLines := by
    decide +kernel
  have hslot : (Layout.ofTable unkeyed).converged (Layout.ofTable keyedAsColumn) (.key "k") ≠
      (Layout.ofTable unkeyed).converged (Layout.ofTable typedAsKey) (.key "k") := by
    decide +kernel
  have hrun : (Layout.run "t" (Layout.ofTable unkeyed)
        (TableChange.mk "t" unkeyed keyedAsColumn).orderedLines).map (· (.key "k")) ≠
      some ((Layout.ofTable unkeyed).converged (Layout.ofTable keyedAsColumn) (.key "k")) := by
    decide +kernel
  refine ⟨?_, not_both_converged hlines hslot, ne_some_of_slot hrun⟩
  decide +kernel

end SchemaDelta
