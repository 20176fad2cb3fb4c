import SchemaDelta.Proofs.Change.Delta
import SchemaDelta.Proofs.Change.Edit
import SchemaDelta.Script

/-!
# The lines of a script

Names are words, and what a dump declares is on one line since cleaning leaves no line feed. So
no line of a script holds a line feed (`newline_not_mem_lines`), and cutting a script at its line
feeds gives its lines (`plainLines_ofTexts`).
-/

namespace SchemaDelta.Script

open Sql Text

/-- Every one of the lines is written without a line feed. -/
def Unbroken (lines : List Line) : Prop := ∀ line ∈ lines, '\n' ∉ line.text

@[simp] theorem unbroken_nil : Unbroken [] := by simp [Unbroken]

@[simp] theorem unbroken_cons {line : Line} {lines : List Line} :
    Unbroken (line :: lines) ↔ '\n' ∉ line.text ∧ Unbroken lines := by
  simp [Unbroken]

@[simp] theorem unbroken_append {a b : List Line} :
    Unbroken (a ++ b) ↔ Unbroken a ∧ Unbroken b := by
  simp [Unbroken, or_imp, forall_and]

theorem unbroken_flatMap {α : Type} {parts : List α} {lines : α → List Line}
    (h : ∀ part ∈ parts, Unbroken (lines part)) : Unbroken (parts.flatMap lines) := by
  intro line hline
  obtain ⟨part, hpart, hline⟩ := List.mem_flatMap.1 hline
  exact h part hpart line hline

theorem unbroken_map {α : Type} {parts : List α} {line : α → Line}
    (h : ∀ part ∈ parts, '\n' ∉ (line part).text) : Unbroken (parts.map line) := by
  intro line hline
  obtain ⟨part, hpart, rfl⟩ := List.mem_map.1 hline
  exact h part hpart

@[simp] theorem newline_not_mem_blank : '\n' ∉ Line.blank.text := by simp [Line.text]

/-- A comment has a line feed only if its note has one. -/
@[simp] theorem newline_mem_comment_iff {note : Text} :
    '\n' ∈ (Line.comment note).text ↔ '\n' ∈ note := by
  simp [Line.text]

/-- A statement has a line feed only if its text has one. -/
@[simp] theorem newline_mem_statement_iff {sql : Text} :
    '\n' ∈ (Line.statement sql).text ↔ '\n' ∈ sql := by
  simp [Line.text]

/-- A numeral holds digits only. -/
theorem not_mem_ofNat {c : Char} (hc : ¬c.isDigit) (n : Nat) : c ∉ ofNat n := by
  intro hmem
  exact hc (Nat.isDigit_of_mem_toDigits (b := 10) (by omega) (by omega) hmem)

theorem newline_not_mem_ofNat (n : Nat) : '\n' ∉ ofNat n :=
  not_mem_ofNat (by decide) n

theorem newline_not_mem_of_mem_statements {text sql : Text} (h : sql ∈ Dump.statements text) :
    '\n' ∉ sql :=
  (Dump.tidy_of_mem_statements h).newline_not_mem

theorem newline_not_mem_divider : '\n' ∉ divider.text := by
  decide

/-- A stage is unbroken if its title, its note and its lines are. -/
theorem unbroken_stage {words nothing : Text} {lines : List Line} (hwords : '\n' ∉ words)
    (hnothing : '\n' ∉ nothing) (hlines : Unbroken lines) :
    Unbroken (stage words nothing lines) := by
  unfold stage
  split <;> simp [title, newline_not_mem_divider, hwords, hnothing, hlines]

variable {current target key : Text}

/-- The lines that create a recorded table are unbroken. -/
theorem unbroken_newTable {table : Table}
    (h : table.Recorded (Dump.statements target) key) : Unbroken (newTable table) := by
  have hname : '\n' ∉ table.name := h.name_eq ▸ h.isName.newline_not_mem
  unfold newTable
  split
  · next sql hsql =>
    have hstatement := newline_not_mem_of_mem_statements (h.definition sql hsql).1
    simp [hname, hstatement]
  · have halters : Unbroken (table.alters.map .statement) := unbroken_map fun sql hsql =>
      newline_mem_statement_iff.not.2 (newline_not_mem_of_mem_statements (h.alters sql hsql).1)
    simp [hname, halters]

/-- The lines that suggest to drop a table are unbroken. -/
theorem unbroken_droppableTable (h : IsName key) : Unbroken (droppableTable key) := by
  have hname : '\n' ∉ key := h.newline_not_mem
  have hquoted := newline_not_mem_quoteName h
  simp [droppableTable, hname, hquoted]

theorem newline_not_mem_sizes (table : Table) : '\n' ∉ sizes table := by
  simp [sizes, newline_not_mem_ofNat]

/-- The keys of columns, listed, hold word characters only, with commas and spaces between. -/
theorem not_mem_join_keys {columns : OrderedMap Column}
    (h : columns.Holds fun name column => column.name = name ∧ column.Declared) {c : Char}
    (hword : isWord c = false) (hbetween : c ∉ ", ".toList) : c ∉ join ", " columns.keys := by
  intro hmem
  rcases mem_join hmem with hmem | ⟨name, hname, hmem⟩
  · exact hbetween hmem
  · obtain ⟨entry, hentry, rfl⟩ := List.mem_map.1 hname
    obtain ⟨heq, hcolumn⟩ := h entry hentry
    exact (heq ▸ hcolumn.isName).not_mem hword hmem

/-- The lines that change a recorded table are unbroken. -/
theorem unbroken_tableChange {change : TableChange}
    (hcurrent : change.current.Recorded (Dump.statements current) change.name)
    (htarget : change.target.Recorded (Dump.statements target) change.name) :
    Unbroken (tableChange change) := by
  have hname : '\n' ∉ change.name := htarget.isName.newline_not_mem
  have hordered : Unbroken (change.ordered.map (Edit.line change.name)) :=
    unbroken_map fun edit hedit =>
      (declared_of_mem_ordered hcurrent htarget hedit).newline_not_mem_line htarget.isName
  have hreplayed : Unbroken (change.replayed.flatMap fun sql =>
      [.comment "ALTER found in target:", .statement sql]) := by
    refine unbroken_flatMap fun sql hsql => ?_
    have hstatement := newline_not_mem_of_mem_statements (htarget.alters sql hsql).1
    simp [hstatement]
  have hkeys : '\n' ∉ join ", " change.current.columns.keys :=
    not_mem_join_keys hcurrent.columns (by decide) (by simp)
  have hkeys' : '\n' ∉ join ", " change.target.columns.keys :=
    not_mem_join_keys htarget.columns (by decide) (by simp)
  unfold tableChange
  split
  · simpa [hname, newline_not_mem_sizes, hordered] using hreplayed
  · simpa [hname, newline_not_mem_sizes, hordered] using ⟨hkeys, hkeys', hreplayed⟩

/-- The lines that change a view are unbroken. -/
theorem unbroken_viewChange {change : ViewChange}
    (h : change.Recorded (Dump.statements target)) : Unbroken (viewChange change) := by
  cases change with
  | create name sql =>
      have hname : '\n' ∉ name := h.1.newline_not_mem
      have hquoted := newline_not_mem_quoteName h.1
      have hsql := newline_not_mem_of_mem_statements h.2.1
      simp [viewChange, viewNotes, ViewChange.statements, ViewChange.dropLine, hname, hquoted,
        hsql]
  | remove name =>
      have hname : '\n' ∉ name := IsName.newline_not_mem h
      have hquoted := newline_not_mem_quoteName h
      simp [viewChange, viewNotes, ViewChange.statements, ViewChange.dropLine, hname, hquoted]
  | replace name sql =>
      have hname : '\n' ∉ name := h.1.newline_not_mem
      have hquoted := newline_not_mem_quoteName h.1
      have hsql := newline_not_mem_of_mem_statements h.2.1
      simp [viewChange, viewNotes, ViewChange.statements, ViewChange.dropLine, hname, hquoted,
        hsql]

/-- The lines of a summary are unbroken. -/
theorem unbroken_summary (counts : Summary) : Unbroken (summary counts) := by
  have hlast : '\n' ∉ (if counts.isSynchronized then synchronizedLine else reviewLine).text := by
    split
    · simp [synchronizedLine]
    · simp [reviewLine]
  simp [summary, title, newline_not_mem_divider, newline_not_mem_ofNat, hlast]

/-- No line of the script of two dumps holds a line feed. -/
theorem newline_not_mem_lines (current target : Text) :
    Unbroken (lines (Delta.ofTexts current target)) := by
  have hcurrent := Delta.recorded_current current target
  have htarget := Delta.recorded_target current target
  unfold lines
  simp only [unbroken_append]
  refine ⟨⟨⟨⟨⟨?_, ?_⟩, ?_⟩, ?_⟩, ?_⟩, unbroken_summary _⟩
  · simp [header]
  · refine unbroken_stage (by simp) (by simp) (unbroken_flatMap fun table htable => ?_)
    rw [Delta.created_eq htarget] at htable
    obtain ⟨entry, hentry, rfl⟩ := List.mem_map.1 htable
    exact unbroken_newTable (htarget.tables.of_get? (OrderedMap.get?_of_mem_added hentry))
  · refine unbroken_stage (by simp) (by simp) (unbroken_flatMap fun key hkey => ?_)
    rw [Delta.dropped_eq] at hkey
    obtain ⟨entry, hentry, rfl⟩ := List.mem_map.1 hkey
    exact unbroken_droppableTable
      (hcurrent.tables.of_get? (OrderedMap.get?_of_mem_removed hentry)).isName
  · refine unbroken_stage (by simp) (by simp) (unbroken_flatMap fun change hchange => ?_)
    obtain ⟨hold, hnew⟩ := Delta.mem_common_iff.1 (List.mem_filter.1 hchange).1
    exact unbroken_tableChange (hcurrent.tables.of_get? hold) (htarget.tables.of_get? hnew)
  · refine unbroken_stage (by simp) (by simp) ?_
    have hchanges : Unbroken ((Delta.ofTexts current target).viewChanges.flatMap viewChange) :=
      unbroken_flatMap fun change hchange =>
        unbroken_viewChange (Delta.recorded_of_mem_viewChanges hcurrent htarget hchange)
    unfold viewChanges
    split <;> simp [newline_not_mem_ofNat, hchanges]

/-- A script cut at its line feeds is its lines. -/
theorem plainLines_ofTexts (current target : Text) :
    plainLines (ofTexts current target) =
      (lines (Delta.ofTexts current target)).map Line.text := by
  refine plainLines_join (fun text htext => ?_) (by simp [lines, header])
  obtain ⟨line, hline, rfl⟩ := List.mem_map.1 htext
  exact newline_not_mem_lines current target line hline

end SchemaDelta.Script
