import SchemaDelta.Change.Table
import SchemaDelta.Proofs.Dump.Schema

/-!
# What edits speak of

The edits between two recorded tables speak only of names and of what clauses declare
(`declared_of_mem_ordered`). So each edit is written on one line
(`Edit.Declared.newline_not_mem_line`).
-/

namespace SchemaDelta

open Sql Text

/-- The edit speaks of names and of declared columns, indexes and constraints. -/
def Edit.Declared : Edit → Prop
  | .addColumn name type => IsName name ∧ Tidy type ∧ startsWord type
  | .suggestDropColumn name => IsName name
  | .modifyColumn name type => IsName name ∧ Tidy type ∧ startsWord type
  | .addIndex key definition => (⟨key, definition⟩ : Index).Declared
  | .dropIndex key => IsName key
  | .addConstraint constraint => constraint.Declared
  | .dropConstraint constraint => constraint.Declared

/-! ## Where edits come from -/

section Edits

variable {edit : Edit}

/-- A column of the target is added or modified, and for one of the current form a drop is
suggested. -/
theorem of_mem_columnEdits {current target : OrderedMap Column}
    (h : edit ∈ columnEdits current target) :
    (∃ name column, target.get? name = some column ∧
      (edit = .addColumn name column.typeDefinition ∨
        edit = .modifyColumn name column.typeDefinition)) ∨
    ∃ name column, current.get? name = some column ∧ edit = .suggestDropColumn name := by
  rcases List.mem_append.1 h with h | h
  · rcases List.mem_append.1 h with h | h
    · obtain ⟨⟨name, column⟩, hentry, rfl⟩ := List.mem_map.1 h
      exact .inl ⟨name, column, OrderedMap.get?_of_mem_added hentry, .inl rfl⟩
    · obtain ⟨⟨name, column⟩, hentry, rfl⟩ := List.mem_map.1 h
      exact .inr ⟨name, column, OrderedMap.get?_of_mem_removed hentry, rfl⟩
  · obtain ⟨⟨name, old, column⟩, hentry, rfl⟩ := List.mem_map.1 h
    exact .inl ⟨name, column, (OrderedMap.get?_of_mem_changed hentry).2.1, .inr rfl⟩

/-- An index of the target is added if the current form does not have the same, and one of the
current form is dropped. -/
theorem of_mem_indexEdits {current target : OrderedMap Index}
    (h : edit ∈ indexEdits current target) :
    (∃ name index, target.get? name = some index ∧
      (current.get? name).map Index.definition ≠ some index.definition ∧
      edit = .addIndex name index.definition) ∨
    ∃ name index, current.get? name = some index ∧ edit = .dropIndex name := by
  rcases List.mem_append.1 h with h | h
  · rcases List.mem_append.1 h with h | h
    · obtain ⟨⟨name, index⟩, hentry, rfl⟩ := List.mem_map.1 h
      have hnone := OrderedMap.get?_eq_none_of_mem_added hentry
      exact .inl ⟨name, index, OrderedMap.get?_of_mem_added hentry, by simp [hnone], rfl⟩
    · obtain ⟨⟨name, index⟩, hentry, rfl⟩ := List.mem_map.1 h
      exact .inr ⟨name, index, OrderedMap.get?_of_mem_removed hentry, rfl⟩
  · obtain ⟨⟨name, old, new⟩, hentry, hmem⟩ := List.mem_flatMap.1 h
    obtain ⟨hold, hnew, hdiffer⟩ := OrderedMap.get?_of_mem_changed hentry
    rcases List.mem_pair.1 hmem with rfl | rfl
    · exact .inr ⟨name, old, hold, rfl⟩
    · exact .inl ⟨name, new, hnew, by simpa [hold] using hdiffer, rfl⟩

/-- A constraint of the target is added if the current form does not have the same, and one of
the current form is dropped. -/
theorem of_mem_constraintEdits {current target : OrderedMap Constraint}
    (h : edit ∈ constraintEdits current target) :
    (∃ name constraint, target.get? name = some constraint ∧
      (current.get? name).map Constraint.definition ≠ some constraint.definition ∧
      edit = .addConstraint constraint) ∨
    ∃ name constraint, current.get? name = some constraint ∧
      edit = .dropConstraint constraint := by
  rcases List.mem_append.1 h with h | h
  · rcases List.mem_append.1 h with h | h
    · obtain ⟨⟨name, constraint⟩, hentry, rfl⟩ := List.mem_map.1 h
      have hnone := OrderedMap.get?_eq_none_of_mem_added hentry
      exact .inl ⟨name, constraint, OrderedMap.get?_of_mem_added hentry, by simp [hnone], rfl⟩
    · obtain ⟨⟨name, constraint⟩, hentry, rfl⟩ := List.mem_map.1 h
      exact .inr ⟨name, constraint, OrderedMap.get?_of_mem_removed hentry, rfl⟩
  · obtain ⟨⟨name, old, new⟩, hentry, hmem⟩ := List.mem_flatMap.1 h
    obtain ⟨hold, hnew, hdiffer⟩ := OrderedMap.get?_of_mem_changed hentry
    rcases List.mem_pair.1 hmem with rfl | rfl
    · exact .inr ⟨name, old, hold, rfl⟩
    · exact .inl ⟨name, new, hnew, by simpa [hold] using hdiffer, rfl⟩

variable {statements targetStatements : List Text} {change : TableChange}

/-- Every ordered edit is one of the columns, the indexes or the constraints. -/
theorem mem_of_mem_ordered {edit : Edit} (h : edit ∈ change.ordered) :
    edit ∈ change.columns ∨ edit ∈ change.indexes ∨ edit ∈ change.constraints := by
  simp only [TableChange.ordered, List.mem_append, List.mem_filter] at h
  rcases h with ((h | h) | h) | h
  · exact .inr (.inr h.1)
  · exact .inl h
  · exact .inr (.inl h)
  · exact .inr (.inr h.1)

/-- The edits between two recorded tables are declared. -/
theorem declared_of_mem_ordered {current target : Text}
    (hcurrent : change.current.Recorded statements current)
    (htarget : change.target.Recorded targetStatements target) {edit : Edit}
    (h : edit ∈ change.ordered) : edit.Declared := by
  rcases mem_of_mem_ordered h with h | h | h
  · rcases of_mem_columnEdits h with ⟨name, column, hget, rfl | rfl⟩ | ⟨name, column, hget, rfl⟩
    · obtain ⟨rfl, hcolumn⟩ := htarget.columns.of_get? hget
      exact ⟨hcolumn.isName, hcolumn.tidy, hcolumn.startsWord⟩
    · obtain ⟨rfl, hcolumn⟩ := htarget.columns.of_get? hget
      exact ⟨hcolumn.isName, hcolumn.tidy, hcolumn.startsWord⟩
    · obtain ⟨rfl, hcolumn⟩ := hcurrent.columns.of_get? hget
      exact hcolumn.isName
  · rcases of_mem_indexEdits h with ⟨name, index, hget, -, rfl⟩ | ⟨name, index, hget, rfl⟩
    · obtain ⟨rfl, hindex⟩ := htarget.indexes.of_get? hget
      exact hindex
    · obtain ⟨rfl, hindex⟩ := hcurrent.indexes.of_get? hget
      exact hindex.isName
  · rcases of_mem_constraintEdits h with ⟨name, constraint, hget, -, rfl⟩ |
      ⟨name, constraint, hget, rfl⟩
    · exact (htarget.constraints.of_get? hget).2
    · exact (hcurrent.constraints.of_get? hget).2

end Edits

/-- A name in name marks is on one line. -/
theorem newline_not_mem_quoteName {name : Text} (h : IsName name) : '\n' ∉ quoteName name := by
  have hname : '\n' ∉ name := h.newline_not_mem
  simpa [quoteName, nameMark] using hname

/-- A declared constraint is written on one line. -/
theorem Constraint.Declared.newline_not_mem_clause {constraint : Constraint}
    (h : constraint.Declared) : '\n' ∉ constraint.clause := by
  have hdefinition := h.tidy.newline_not_mem
  have hquoted := newline_not_mem_quoteName h.isName
  cases hkind : constraint.kind with
  | primaryKey =>
      have hcolumns : '\n' ∉ join ", " (constraint.columns.map quoteName) := by
        intro hmem
        obtain ⟨column, hcolumn, hmem⟩ :=
          Dump.mem_join_quoteName hmem (by simp) (by decide)
        exact (h.primary hkind).2.newline_not_mem column hcolumn hmem
      simpa [clause, hkind] using hcolumns
  | uniqueKey => simpa [clause, hkind] using hdefinition
  | foreignKey =>
      simp only [clause, hkind]
      split
      · exact hdefinition
      · simpa using ⟨hquoted, hdefinition⟩

/-- A declared edit is written on one line. -/
theorem Edit.Declared.newline_not_mem_line {edit : Edit} (h : edit.Declared) {table : Text}
    (htable : IsName table) : '\n' ∉ (edit.line table).text := by
  have hquoted := newline_not_mem_quoteName htable
  cases edit with
  | addColumn name type =>
      have hname := newline_not_mem_quoteName h.1
      have htype := h.2.1.newline_not_mem
      simpa [line, Line.text] using ⟨hquoted, hname, htype⟩
  | suggestDropColumn name =>
      have hname := newline_not_mem_quoteName h
      simpa [line, Line.text] using ⟨hquoted, hname⟩
  | modifyColumn name type =>
      have hname := newline_not_mem_quoteName h.1
      have htype := h.2.1.newline_not_mem
      simpa [line, Line.text] using ⟨hquoted, hname, htype⟩
  | addIndex key definition =>
      have hdefinition := (Index.Declared.tidy h).newline_not_mem
      simpa [line, Line.text] using ⟨hquoted, hdefinition⟩
  | dropIndex key =>
      have hname := newline_not_mem_quoteName h
      simpa [line, Line.text] using ⟨hquoted, hname⟩
  | addConstraint constraint =>
      have hclause := Constraint.Declared.newline_not_mem_clause h
      simpa [line, Line.text] using ⟨hquoted, hclause⟩
  | dropConstraint constraint =>
      have hname := newline_not_mem_quoteName (Constraint.Declared.isName h)
      cases hkind : constraint.kind <;>
        simp [line, Line.text, Constraint.handle, hkind, hquoted, hname]

end SchemaDelta
