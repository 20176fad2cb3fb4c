import Mathlib.Data.List.Dedup
import Mathlib.Data.List.Perm.Basic
import SchemaDelta.Proofs.Dump.LastWrite

/-!
# What becomes of the clauses of a table

A clause is kept in a table under its name, in one of three maps, or it is reported as left out.
In between a clause is lost only to a later one that takes its place: one map has all columns,
one all indexes and one all constraints, whatever their kind. So the table and the report
account for every clause exactly when no two clauses have the same place (`clauses_kept`). That
their kinds or their names differ is not enough: a unique key and a foreign key of the same name
have one place (`not_clauses_kept_of_shared_name`).
-/

namespace SchemaDelta.Dump

open Sql Text

/-- The map of a table that a clause is recorded in. -/
inductive Shelf where
  | columns
  | indexes
  | constraints
  deriving DecidableEq

namespace Clause

/-- The kind of thing that a clause declares. -/
inductive Kind where
  | column
  | index
  | constraint (kind : ConstraintKind)
  deriving DecidableEq

/-- What kind of thing the clause declares. -/
def kind : Clause → Kind
  | .column _ => .column
  | .index _ => .index
  | .constraint c => .constraint c.kind

/-- The name of what the clause declares. -/
def name : Clause → Text
  | .column c => c.name
  | .index i => i.name
  | .constraint c => c.name

/-- The place of what the clause declares: its map and its key there. -/
def place : Clause → Shelf × Text
  | .column c => (.columns, c.name)
  | .index i => (.indexes, i.name)
  | .constraint c => (.constraints, c.name)

/-- The table has what the clause declares, under its name. -/
def IsIn (table : Table) : Clause → Prop
  | .column c => table.columns.get? c.name = some c
  | .index i => table.indexes.get? i.name = some i
  | .constraint c => table.constraints.get? c.name = some c

instance (table : Table) : (clause : Clause) → Decidable (clause.IsIn table)
  | .column c => inferInstanceAs (Decidable (table.columns.get? c.name = some c))
  | .index i => inferInstanceAs (Decidable (table.indexes.get? i.name = some i))
  | .constraint c => inferInstanceAs (Decidable (table.constraints.get? c.name = some c))

end Clause

/-- The places of a table that are taken. -/
def places (table : Table) : List (Shelf × Text) :=
  table.columns.keys.map (Shelf.columns, ·) ++ table.indexes.keys.map (Shelf.indexes, ·) ++
    table.constraints.keys.map (Shelf.constraints, ·)

/-- What the clauses of a body declare, as far as they can be read. -/
def declaredIn (body : Text) : List Clause :=
  (clauses body).filterMap fun clause => (Clause.ofText clause).toOption

section Places

variable {table : Table} {declared : List Clause}

theorem length_places (table : Table) : (places table).length =
    table.columns.size + table.indexes.size + table.constraints.size := by
  simp [places, Nat.add_assoc]

/-- No place is taken twice. -/
theorem nodup_places (table : Table) : (places table).Nodup := by
  have hnodup : ∀ {α : Type} (shelf : Shelf) (m : OrderedMap α),
      (m.keys.map (shelf, ·)).Nodup := fun shelf m =>
    m.nodup_keys.map fun _ _ heq => (Prod.mk.inj heq).2
  rw [places, List.nodup_append, List.nodup_append]
  refine ⟨⟨hnodup _ _, hnodup _ _, by simp⟩, hnodup _ _, ?_⟩
  rintro place hplace _ hother rfl
  obtain ⟨_, -, rfl⟩ := List.mem_map.1 hother
  simp at hplace

/-- A clause takes its place and leaves the others as they are. -/
theorem mem_places_addTo {place : Shelf × Text} {clause : Clause} :
    place ∈ places (clause.addTo table) ↔ place = clause.place ∨ place ∈ places table := by
  obtain ⟨shelf, key⟩ := place
  cases clause <;> cases shelf <;>
    simp [places, Clause.addTo, Clause.place, Table.addColumn, Table.addIndex,
      Table.addConstraint]

/-- Clauses take their places and no others. -/
theorem mem_places_foldl {place : Shelf × Text} :
    place ∈ places (declared.foldl Clause.addTo table) ↔
      place ∈ declared.map Clause.place ∨ place ∈ places table := by
  induction declared generalizing table with
  | nil => simp
  | cons first rest ih =>
      rw [List.foldl_cons, ih, mem_places_addTo, List.map_cons, List.mem_cons, or_left_comm,
        or_assoc]

/-- In a table without parts the places that clauses take are their own, each once. -/
theorem places_perm_dedup (hempty : places table = []) :
    (places (declared.foldl Clause.addTo table)).Perm (declared.map Clause.place).dedup := by
  refine (List.perm_ext_iff_of_nodup (nodup_places _) (List.nodup_dedup _)).2 fun place => ?_
  rw [mem_places_foldl, hempty, List.mem_dedup]
  simp

/-- So they take as many places as there are clauses exactly when no two have the same. -/
theorem length_places_eq_iff (hempty : places table = []) :
    (places (declared.foldl Clause.addTo table)).length = declared.length ↔
      (declared.map Clause.place).Nodup := by
  have hlength : (declared.map Clause.place).length = declared.length := List.length_map _
  rw [(places_perm_dedup hempty).length_eq, ← List.dedup_eq_self, ← hlength]
  exact ⟨(List.dedup_sublist _).eq_of_length, fun h => by rw [h]⟩

/-! ## A clause is there until another takes its place -/

/-- A clause that is recorded is there. -/
theorem isIn_addTo_self (clause : Clause) (table : Table) : clause.IsIn (clause.addTo table) := by
  cases clause <;> exact OrderedMap.get?_insert_self _ _ _

/-- It stays there when a clause with another place is recorded. -/
theorem Clause.IsIn.addTo {clause other : Clause} (h : clause.IsIn table)
    (hne : other.place ≠ clause.place) : clause.IsIn (other.addTo table) := by
  cases clause <;> cases other
  case column.column | index.index | constraint.constraint =>
    refine (OrderedMap.get?_insert_of_ne _ ?_).trans h
    rintro heq
    exact hne (by simp [Clause.place, heq])
  all_goals exact h

/-- It stays there when clauses with other places are recorded. -/
theorem Clause.IsIn.foldl {clause : Clause} (h : clause.IsIn table)
    (hnew : clause.place ∉ declared.map Clause.place) :
    clause.IsIn (declared.foldl Clause.addTo table) := by
  induction declared generalizing table with
  | nil => exact h
  | cons first rest ih =>
      rw [List.map_cons, List.mem_cons, not_or] at hnew
      exact ih (h.addTo (Ne.symm hnew.1)) hnew.2

/-- Of clauses with different places every one is there in the end. -/
theorem isIn_foldl (hnodup : (declared.map Clause.place).Nodup) {clause : Clause}
    (hclause : clause ∈ declared) : clause.IsIn (declared.foldl Clause.addTo table) := by
  induction declared generalizing table with
  | nil => simp at hclause
  | cons first rest ih =>
      rw [List.map_cons, List.nodup_cons] at hnodup
      -- The first clause is recorded and keeps its place, any other is among the rest.
      rcases List.mem_cons.1 hclause with rfl | hclause
      · exact (isIn_addTo_self clause table).foldl hnodup.1
      · exact ih hnodup.2 hclause

end Places

/-! ## All clauses of a body -/

/-- A clause is read or it is left out. -/
theorem length_declared_add_skipped (table : Text) (clauses : List Text) :
    (clauses.filterMap fun clause => (Clause.ofText clause).toOption).length +
      (clauses.filterMap (skippedClause? table)).length = clauses.length := by
  induction clauses with
  | nil => rfl
  | cons first rest ih =>
      cases hread : Clause.ofText first with
      | ok clause =>
          rw [List.filterMap_cons_some (by rw [hread]; rfl),
            List.filterMap_cons_none (by rw [skippedClause?, hread])]
          simp only [List.length_cons]
          omega
      | error reason =>
          rw [List.filterMap_cons_none (by rw [hread]; rfl),
            List.filterMap_cons_some (by rw [skippedClause?, hread])]
          simp only [List.length_cons]
          omega

/-- The clause is in the table as it is read, or it is reported. -/
def Accounted (name : Text) (table : Table) (skipped : List Skipped) (clause : Text) : Prop :=
  match Clause.ofText clause with
  | .ok declared => declared.IsIn table
  | .error reason => ⟨some name, preview clause, reason⟩ ∈ skipped

instance (name : Text) (table : Table) (skipped : List Skipped) (clause : Text) :
    Decidable (Accounted name table skipped clause) :=
  match h : Clause.ofText clause with
  | .ok declared => decidable_of_iff (declared.IsIn table) (by rw [Accounted, h])
  | .error reason => decidable_of_iff (⟨some name, preview clause, reason⟩ ∈ skipped)
      (by rw [Accounted, h])

/-- Of a statement that creates a table with a body every clause is accounted for if no two
clauses have the same place; and the parts of the table and the clauses that are left out are as
many as there are clauses exactly then. -/
theorem clauses_kept {statement name body : Text}
    (hheader : Header.ofStatement? statement = some (.createTable name))
    (hbody : tableBody statement = some body) :
    ∃ table skipped, Entry.ofStatement statement = .ok (.table table skipped) ∧
      (((declaredIn body).map Clause.place).Nodup →
        ∀ clause ∈ clauses body, Accounted name table skipped clause) ∧
      (table.columns.size + table.indexes.size + table.constraints.size + skipped.length =
          (clauses body).length ↔ ((declaredIn body).map Clause.place).Nodup) := by
  refine ⟨tableOfClauses name statement (clauses body),
    (clauses body).filterMap (skippedClause? name), ?_, fun hnodup clause hclause => ?_, ?_⟩
  · rw [Entry.ofStatement, hheader]
    simp only [hbody]
  · rw [Accounted]
    cases hread : Clause.ofText clause with
    | ok declared =>
        exact isIn_foldl hnodup (List.mem_filterMap.2 ⟨clause, hclause, by rw [hread]; rfl⟩)
    | error reason => exact List.mem_filterMap.2 ⟨clause, hclause, by rw [skippedClause?, hread]⟩
  · have hplaces : (places (tableOfClauses name statement (clauses body))).length =
        (declaredIn body).length ↔ ((declaredIn body).map Clause.place).Nodup :=
      length_places_eq_iff rfl
    have hread := length_declared_add_skipped name (clauses body)
    rw [← length_places, ← hread, ← hplaces]
    exact Nat.add_right_cancel_iff

/-- A table with a column, an index and a unique key of the same name, and a clause that is left
out. -/
def partsText : Text := "CREATE TABLE t (a int, KEY a (a), UNIQUE KEY a (a), CHECK (a))"

/-- Its body. -/
def partsBody : Text := "a int, KEY a (a), UNIQUE KEY a (a), CHECK (a)"

/-- All its clauses are accounted for. -/
theorem clauses_kept_of_parts :
    Header.ofStatement? partsText = some (.createTable "t") ∧
      tableBody partsText = some partsBody ∧
      ((declaredIn partsBody).map Clause.place).Nodup ∧
      ∃ table skipped, Entry.ofStatement partsText = .ok (.table table skipped) ∧
        (∀ clause ∈ clauses partsBody, Accounted "t" table skipped clause) ∧
        table.columns.size + table.indexes.size + table.constraints.size + skipped.length = 4 := by
  have hheader : Header.ofStatement? partsText = some (.createTable "t") := by decide +kernel
  have hbody : tableBody partsText = some partsBody := by decide +kernel
  have hnodup : ((declaredIn partsBody).map Clause.place).Nodup := by decide +kernel
  have hlength : (clauses partsBody).length = 4 := by decide +kernel
  obtain ⟨table, skipped, hentry, hkept, hcount⟩ := clauses_kept hheader hbody
  exact ⟨hheader, hbody, hnodup, table, skipped, hentry, hkept hnodup,
    (hcount.2 hnodup).trans hlength⟩

/-- A table with a unique key and a foreign key of the same name. -/
def sharedText : Text :=
  "CREATE TABLE t (a int, UNIQUE KEY k (a), CONSTRAINT k FOREIGN KEY (a) REFERENCES r (b))"

/-- Its body. -/
def sharedBody : Text :=
  "a int, UNIQUE KEY k (a), CONSTRAINT k FOREIGN KEY (a) REFERENCES r (b)"

/-- No two of its clauses have the same kind and name, but the unique key is neither in the table
nor reported. -/
theorem not_clauses_kept_of_shared_name :
    Header.ofStatement? sharedText = some (.createTable "t") ∧
      tableBody sharedText = some sharedBody ∧
      ((declaredIn sharedBody).map fun clause => (clause.kind, clause.name)).Nodup ∧
      ∃ table skipped, Entry.ofStatement sharedText = .ok (.table table skipped) ∧
        skipped = [] ∧ "UNIQUE KEY k (a)".toList ∈ clauses sharedBody ∧
        ¬Accounted "t" table skipped "UNIQUE KEY k (a)" ∧
        table.columns.size + table.indexes.size + table.constraints.size + skipped.length ≠
          (clauses sharedBody).length := by
  refine ⟨by decide +kernel, by decide +kernel, by decide +kernel,
    tableOfClauses "t" sharedText (clauses sharedBody), [], by decide +kernel, rfl,
    by decide +kernel, by decide +kernel, by decide +kernel⟩

end SchemaDelta.Dump
