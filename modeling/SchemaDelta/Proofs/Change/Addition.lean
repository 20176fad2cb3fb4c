import SchemaDelta.Proofs.Change.Edit
import SchemaDelta.Proofs.Change.Rebuild
import SchemaDelta.Proofs.Dump.ForeignKey
import SchemaDelta.Proofs.Dump.Kept

/-!
# What additions carry

The statement that adds a column, an index or a constraint carries a clause, and each sort of
entity has its own recipe for it: a column is put together from its name and its type, an index
and a unique key are written as they were, a primary key is written from its columns, and a
foreign key gets its name in front if it does not have it there. Read as a clause again, each
declares the same entity (`Dump.Clause.Declared.readsAs`). Additions are made of what a table
declares and of nothing else (`mem_additions_iff`), so this holds of all that a delta adds to the
tables of a dump (`readsBack_schemaOfText`).
-/

namespace SchemaDelta

open Sql Text Dump

namespace Dump.Clause

/-- The edit that adds what the clause declares to a table. -/
def addition : Clause → Edit
  | .column c => .addColumn c.name c.typeDefinition
  | .index i => .addIndex i.name i.definition
  | .constraint c => .addConstraint c

/-- The words of the statement that adds it, behind the name of the table. -/
def addWords : Clause → Text
  | .column _ => "ADD COLUMN "
  | .index _ | .constraint _ => "ADD "

/-- The clause that the statement carries behind these words. -/
def carried : Clause → Text
  | .column c => quoteName c.name ++ ' ' :: c.typeDefinition
  | .index i => i.definition
  | .constraint c => c.clause

/-- The definition of what the clause declares. -/
def definition : Clause → Text
  | .column c => c.definition
  | .index i => i.definition
  | .constraint c => c.definition

/-- The columns that the clause lists, if it declares a constraint. -/
def columns : Clause → List Text
  | .column _ | .index _ => []
  | .constraint c => c.columns

/-- Whether an addition carries the definition as it is: it does unless the clause declares a
primary key, or a foreign key that does not open with its name. -/
def KeepsDefinition : Clause → Prop
  | .column _ | .index _ => True
  | .constraint c =>
    c.kind = .uniqueKey ∨ (c.kind = .foreignKey ∧ opensWithConstraint c.definition)

/-- A form of a table does not have what the clause declares: no column of the name, or no index
or constraint of the name with the same definition. -/
def MissingIn (table : Table) : Clause → Prop
  | .column c => c.name ∉ table.columns.keys
  | .index i => ∀ old ∈ table.indexes.get? i.name, old.definition ≠ i.definition
  | .constraint c => ∀ old ∈ table.constraints.get? c.name, old.definition ≠ c.definition

/-- What is read again is of the same kind and name, with the same definition where it is carried
as it is, and with the same columns if it is a primary key. -/
structure ReadsAs (declared again : Clause) : Prop where
  kind : again.kind = declared.kind
  name : again.name = declared.name
  definition : declared.KeepsDefinition → again.definition = declared.definition
  columns : declared.kind = .constraint .primaryKey → again.columns = declared.columns

theorem ReadsAs.refl (declared : Clause) : declared.ReadsAs declared :=
  ⟨rfl, rfl, fun _ => rfl, fun _ => rfl⟩

/-- The statement of an addition carries the clause between its words and its semicolon. -/
theorem text_addition (declared : Clause) (table : Text) : (declared.addition.line table).text =
    "ALTER TABLE " ++ quoteName table ++ " " ++ declared.addWords ++ declared.carried ++ ";" := by
  cases declared with
  | column c =>
      show (Edit.line table (.addColumn c.name c.typeDefinition)).text = "ALTER TABLE " ++
        quoteName table ++ " " ++ "ADD COLUMN " ++ (quoteName c.name ++ ' ' :: c.typeDefinition) ++
          ";"
      simp only [Edit.line, Line.text, List.append_assoc, List.cons_append]
      rfl
  | index i =>
      show (Edit.line table (.addIndex i.name i.definition)).text =
        "ALTER TABLE " ++ quoteName table ++ " " ++ "ADD " ++ i.definition ++ ";"
      simp only [Edit.line, Line.text, List.append_assoc]
      rfl
  | constraint c =>
      show (Edit.line table (.addConstraint c)).text =
        "ALTER TABLE " ++ quoteName table ++ " " ++ "ADD " ++ c.clause ++ ";"
      simp only [Edit.line, Line.text, List.append_assoc]
      rfl

/-- The clause that a declared constraint is added by is read as the constraint again. A primary
key is read from its columns, and a foreign key that does not name itself has its name in
front. -/
theorem readsAs_constraint {c : Constraint} (h : c.Declared) :
    ∃ again, Clause.ofText c.clause = .ok again ∧ (Clause.constraint c).ReadsAs again := by
  have hread := h.ofText_definition
  cases hkind : c.kind with
  | primaryKey =>
      obtain ⟨hname, hcolumns⟩ := h.primary hkind
      have hclause : c.clause = primaryKeyClause c.columns := by
        simp only [Constraint.clause, hkind]
        rfl
      rw [hclause]
      refine ⟨_, ofText_primaryKey hcolumns, ?_, hname.symm, ?_, fun _ => rfl⟩
      · simp [kind, hkind, Constraint.primaryKey]
      · simp [KeepsDefinition, hkind]
  | uniqueKey =>
      have hclause : c.clause = c.definition := by simp only [Constraint.clause, hkind]
      rw [hclause]
      exact ⟨_, hread, .refl _⟩
  | foreignKey =>
      by_cases hopens : opensWithConstraint c.definition
      · have hclause : c.clause = c.definition := by
          simp only [Constraint.clause, hkind, hopens, if_true]
        rw [hclause]
        exact ⟨_, hread, .refl _⟩
      · have hclause : c.clause = namedClause c.name c.definition := by
          simp only [Constraint.clause, hkind, hopens, Bool.false_eq_true, if_false,
            List.append_assoc]
          rfl
        rw [hclause]
        refine ⟨_, ofText_namedClause h.isName h.tidy.newline_not_mem hkind hread, ?_, rfl, ?_, ?_⟩
        · simp [kind, hkind, Constraint.named]
        · simp [KeepsDefinition, hkind, hopens]
        · simp [kind, hkind]

/-- What a clause that was read declares is read again from what its addition carries. -/
theorem Declared.readsAs {declared : Clause} (h : declared.Declared) :
    ∃ again, Clause.ofText declared.carried = .ok again ∧ declared.ReadsAs again := by
  cases declared with
  | column c =>
      obtain ⟨isPrimaryKey, hread⟩ := Column.Declared.ofText_definition h
      have hcarried : carried (.column c) = c.definition :=
        (Column.Declared.definition_eq h).symm
      rw [hcarried]
      exact ⟨_, hread, rfl, rfl, fun _ => rfl, by simp [kind]⟩
  | index i => exact ⟨_, Index.Declared.ofText_definition h, .refl _⟩
  | constraint c => exact readsAs_constraint h

end Dump.Clause

/-! ## Where additions come from -/

/-- The columns that are added are those of the target whose name the current form lacks. -/
theorem addColumn_mem_iff {current target : OrderedMap Column} {name type : Text} :
    .addColumn name type ∈ columnEdits current target ↔ ∃ column,
      target.get? name = some column ∧ name ∉ current.keys ∧ type = column.typeDefinition := by
  simp only [columnEdits, List.mem_append, List.mem_map, Prod.exists, OrderedMap.mem_added_iff,
    ← OrderedMap.get?_eq_some_iff]
  constructor
  · rintro ((⟨key, column, ⟨hget, hkey⟩, heq⟩ | ⟨_, _, _, heq⟩) | ⟨_, _, _, _, heq⟩)
    · obtain ⟨rfl, rfl⟩ := Edit.addColumn.inj heq
      exact ⟨column, hget, hkey, rfl⟩
    · simp at heq
    · simp at heq
  · rintro ⟨column, hget, hkey, rfl⟩
    exact .inl (.inl ⟨name, column, ⟨hget, hkey⟩, rfl⟩)

/-- Edits that add are all ordered. -/
theorem mem_ordered_iff {change : TableChange} {edit : Edit} (hedit : edit.action = .add) :
    edit ∈ change.ordered ↔
      edit ∈ change.columns ∨ edit ∈ change.indexes ∨ edit ∈ change.constraints := by
  simp [TableChange.ordered, hedit]

/-- What is added to a recorded table is what its target form declares and its current form does
not have. -/
theorem mem_additions_iff {change : TableChange} {statements : List Text} {key : Text}
    (htarget : change.target.Recorded statements key) {edit : Edit} :
    edit ∈ change.ordered ∧ edit.action = .add ↔ ∃ declared : Clause,
      declared.IsIn change.target ∧ declared.MissingIn change.current ∧
        edit = declared.addition := by
  constructor
  · rintro ⟨hmem, haction⟩
    rcases (mem_ordered_iff haction).1 hmem with h | h | h
    · rcases of_mem_columnEdits h with
        ⟨name, column, hget, rfl | rfl⟩ | ⟨name, column, -, rfl⟩
      · obtain ⟨_, -, hmissing, -⟩ := addColumn_mem_iff.1 h
        obtain ⟨rfl, -⟩ := htarget.columns.of_get? hget
        exact ⟨.column column, hget, hmissing, rfl⟩
      · simp [Edit.action] at haction
      · simp [Edit.action] at haction
    · obtain ⟨name, index, hget, hmissing, rfl⟩ :=
        (mem_rebuildEdits_iff (fun _ => rfl) haction).1 h
      obtain ⟨rfl, -⟩ := htarget.indexes.of_get? hget
      exact ⟨.index index, hget, fun old hold => of_decide_eq_true (hmissing old hold), rfl⟩
    · obtain ⟨name, constraint, hget, hmissing, rfl⟩ :=
        (mem_rebuildEdits_iff (fun _ => rfl) haction).1 h
      obtain ⟨rfl, -⟩ := htarget.constraints.of_get? hget
      exact ⟨.constraint constraint, hget, fun old hold => of_decide_eq_true (hmissing old hold),
        rfl⟩
  · rintro ⟨declared, hin, hmissing, rfl⟩
    cases declared with
    | column c =>
        have hadded : .addColumn c.name c.typeDefinition ∈ change.columns :=
          addColumn_mem_iff.2 ⟨c, hin, hmissing, rfl⟩
        exact ⟨(mem_ordered_iff rfl).2 (.inl hadded), rfl⟩
    | index i =>
        have hadded : .addIndex i.name i.definition ∈ change.indexes :=
          (mem_rebuildEdits_iff (fun _ => rfl) rfl).2
            ⟨i.name, i, hin, fun old hold => decide_eq_true (hmissing old hold), rfl⟩
        exact ⟨(mem_ordered_iff rfl).2 (.inr (.inl hadded)), rfl⟩
    | constraint c =>
        have hadded : .addConstraint c ∈ change.constraints :=
          (mem_rebuildEdits_iff (fun _ => rfl) rfl).2
            ⟨c.name, c, hin, fun old hold => decide_eq_true (hmissing old hold), rfl⟩
        exact ⟨(mem_ordered_iff rfl).2 (.inr (.inr hadded)), rfl⟩

/-- A column is modified to the form that the target has of it. -/
theorem of_modifyColumn_mem {change : TableChange} {name type : Text}
    (h : .modifyColumn name type ∈ change.ordered) : ∃ column,
      change.target.columns.get? name = some column ∧ type = column.typeDefinition := by
  rcases mem_of_mem_ordered h with h | h | h
  · rcases of_mem_columnEdits h with ⟨name, column, hget, heq | heq⟩ | ⟨name, column, -, heq⟩
    · simp at heq
    · obtain ⟨rfl, rfl⟩ := Edit.modifyColumn.inj heq
      exact ⟨column, hget, rfl⟩
    · simp at heq
  · rcases of_mem_indexEdits h with ⟨_, _, -, -, heq⟩ | ⟨_, _, -, heq⟩ <;> simp at heq
  · rcases of_mem_constraintEdits h with ⟨_, _, -, -, heq⟩ | ⟨_, _, -, heq⟩ <;> simp at heq

/-- What a recorded table has was declared by a clause. -/
theorem Dump.Clause.IsIn.declared {table : Table} {statements : List Text} {key : Text}
    (h : table.Recorded statements key) {declared : Clause} (hin : declared.IsIn table) :
    declared.Declared := by
  cases declared with
  | column c => exact (h.columns.of_get? hin).2
  | index i => exact (h.indexes.of_get? hin).2
  | constraint c => exact (h.constraints.of_get? hin).2

/-! ## The tables of a dump -/

/-- A column has one definition, which the statements that add or modify it carry. -/
structure Column.CarriedAsIs (table : Text) (column : Column) : Prop where
  definition_eq : column.definition = quoteName column.name ++ " " ++ column.typeDefinition
  typeDefinition_ne_nil : column.typeDefinition ≠ []
  addLine : ((Edit.addColumn column.name column.typeDefinition).line table).text =
    "ALTER TABLE " ++ quoteName table ++ " ADD COLUMN " ++ column.definition ++ ";"
  modifyLine : ((Edit.modifyColumn column.name column.typeDefinition).line table).text =
    "ALTER TABLE " ++ quoteName table ++ " MODIFY COLUMN " ++ column.definition ++ ";"

theorem Column.Declared.carriedAsIs {column : Column} (h : column.Declared) (table : Text) :
    column.CarriedAsIs table where
  definition_eq := by
    rw [List.append_assoc]
    exact h.definition_eq
  typeDefinition_ne_nil hnil := by
    have hword := h.startsWord
    rw [hnil] at hword
    exact absurd hword (by decide)
  addLine := by
    rw [h.definition_eq]
    simp only [Edit.line, Line.text, List.append_assoc, List.cons_append]
    rfl
  modifyLine := by
    rw [h.definition_eq]
    simp only [Edit.line, Line.text, List.append_assoc, List.cons_append]
    rfl

/-- Whatever the current form of the table is, what is added to it is what it declares and the
current form does not have; the statement of an addition carries a clause that is read as the
entity again; and columns are added and modified by the definitions that they have. -/
structure Table.ReadsBack (name : Text) (table : Table) : Prop where
  additions : ∀ (current : Table) (edit : Edit),
    edit ∈ (⟨name, current, table⟩ : TableChange).ordered ∧ edit.action = .add ↔
      ∃ declared : Clause, declared.IsIn table ∧ declared.MissingIn current ∧
        edit = declared.addition
  carried : ∀ declared : Clause, declared.IsIn table →
    (declared.addition.line name).text = "ALTER TABLE " ++ quoteName name ++ " " ++
      declared.addWords ++ declared.carried ++ ";"
  readsAs : ∀ declared : Clause, declared.IsIn table →
    ∃ again, Clause.ofText declared.carried = .ok again ∧ declared.ReadsAs again
  columns : table.columns.Holds fun key column => column.name = key ∧ column.CarriedAsIs name
  modifications : ∀ (current : Table) (key type : Text),
    .modifyColumn key type ∈ (⟨name, current, table⟩ : TableChange).ordered →
      ∃ column, table.columns.get? key = some column ∧ type = column.typeDefinition

/-- Every table of the schema of a dump reads back. -/
theorem readsBack_schemaOfText (text : Text) :
    (schemaOfText text).tables.Holds Table.ReadsBack := by
  intro entry hentry
  have htable := (recorded_schemaOfText text).tables entry hentry
  refine ⟨fun current edit => mem_additions_iff htable, fun declared _ => declared.text_addition _,
    fun declared hin => (hin.declared htable).readsAs, fun column hcolumn => ?_,
    fun current key type hmem => of_modifyColumn_mem hmem⟩
  obtain ⟨hname, hdeclared⟩ := htable.columns column hcolumn
  exact ⟨hname, hdeclared.carriedAsIs entry.1⟩

end SchemaDelta
