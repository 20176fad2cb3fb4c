import SchemaDelta.Proofs.Dump.LastWrite
import SchemaDelta.Proofs.Script.Active

/-!
# How the active lines of a script open

A header is looked for anywhere in a statement, so a statement may have one without opening with
its words: a row of data that speaks of a table is such a statement. `opened_iff_inForce` says
when that does harm. The texts that a schema keeps open with the words of their headers exactly
when the statements in force do, and then every active line of every script towards this schema
opens with `CREATE`, `ALTER TABLE` or `DROP VIEW IF EXISTS`.
-/

namespace SchemaDelta

open Sql Text

/-- Whether the text opens with these words, up to the case of ASCII letters. -/
def Text.opensWith (words t : Text) : Bool := (upper words).isPrefixOf (upper t)

/-- What stands behind a text does not change how it opens. -/
theorem Text.opensWith_append {words t : Text} (h : opensWith words t) (rest : Text) :
    opensWith words (t ++ rest) := by
  have hprefix : upper words <+: upper t := List.isPrefixOf_iff_prefix.1 h
  have happend : upper (t ++ rest) = upper t ++ upper rest := List.map_append
  rw [opensWith, happend, List.isPrefixOf_iff_prefix]
  exact hprefix.trans (List.prefix_append _ _)

/-- The statement opens with the words that a header like this one starts with. Nothing is asked
of the header of a drop. -/
def Sql.Header.Opens : Header → Text → Prop
  | .createView _, statement => opensWith "CREATE" statement
  | .createTable _, statement => opensWith "CREATE" statement
  | .alterTable _, statement => opensWith "ALTER TABLE" statement
  | .dropView _, _ => True

/-- Every definition and every alteration that the schema keeps opens with the words of its
header. -/
structure Schema.Opened (schema : Schema) : Prop where
  definition : ∀ key table sql, schema.tables.get? key = some table →
    table.definition = some sql → opensWith "CREATE" sql
  alters : ∀ key table sql, schema.tables.get? key = some table →
    sql ∈ table.alters → opensWith "ALTER TABLE" sql
  viewDefinition : ∀ key view sql, schema.views.get? key = some view →
    view.definition = some sql → opensWith "CREATE" sql

/-- The schema of a dump keeps texts that open with the words of their headers exactly when the
statements in force do. -/
theorem Schema.opened_schemaOfText_iff {text : Text} : (Dump.schemaOfText text).Opened ↔
    ∀ header sql, Dump.InForce (Dump.statements text) header sql → header.Opens sql := by
  have htidy : ∀ sql ∈ Dump.statements text, Tidy sql := fun _ => Dump.tidy_of_mem_statements
  constructor
  · intro h header sql hforce
    cases hforce with
    | definesTable heq hdefines hbehind =>
        obtain ⟨table, hget, hsql⟩ :=
          Dump.definition_iff_inForce.2 (.definesTable heq hdefines hbehind)
        exact h.definition _ table sql hget hsql
    | altersTable heq halters hbehind =>
        obtain ⟨table, hget, hsql⟩ :=
          Dump.mem_alters_iff_inForce.2 (.altersTable heq halters hbehind)
        exact h.alters _ table sql hget hsql
    | createsView heq hcreates hbehind =>
        obtain ⟨view, hget, hsql⟩ :=
          (Dump.viewDefinition_iff_inForce htidy).2 (.createsView heq hcreates hbehind)
        exact h.viewDefinition _ view sql hget hsql
  · intro h
    refine ⟨fun key table sql hget hsql => ?_, fun key table sql hget hsql => ?_,
      fun key view sql hget hsql => ?_⟩
    · exact h _ _ (Dump.definition_iff_inForce.1 ⟨table, hget, hsql⟩)
    · exact h _ _ (Dump.mem_alters_iff_inForce.1 ⟨table, hget, hsql⟩)
    · exact h _ _ ((Dump.viewDefinition_iff_inForce htidy).1 ⟨view, hget, hsql⟩)

namespace Script

/-- The line opens with `CREATE`, `ALTER TABLE` or `DROP VIEW IF EXISTS`, in any case. -/
def OpensAsDdl (line : Text) : Prop :=
  opensWith "CREATE" line ∨ opensWith "ALTER TABLE" line ∨
    opensWith "DROP VIEW IF EXISTS" line

instance (line : Text) : Decidable (OpensAsDdl line) :=
  inferInstanceAs (Decidable (_ ∨ _ ∨ _))

/-- The active lines are written from the statements that the delta calls for, as far as these do
not read as comments. -/
theorem mem_activeLines_iff {current target line : Text} :
    line ∈ activeLines (ofTexts current target) ↔
      ¬"--".toList <+: line ∧
        ∃ statement ∈ intended (Delta.ofTexts current target), statement.text = line := by
  rw [← filter_lines (Delta.recorded_target current target), activeLines, plainLines_ofTexts,
    List.mem_filter, Bool.and_eq_true, Bool.not_eq_true', decide_eq_true_eq,
    ← Bool.not_eq_true, List.isPrefixOf_iff_prefix]
  constructor
  · rintro ⟨hline, hne, hcomment⟩
    refine ⟨hcomment, ?_⟩
    obtain ⟨written, hwritten, rfl⟩ := List.mem_map.1 hline
    cases written with
    | blank => exact absurd rfl hne
    | comment note => simp [Line.text] at hcomment
    | statement sql => exact ⟨_, List.mem_filter.2 ⟨hwritten, rfl⟩, rfl⟩
  · rintro ⟨hcomment, statement, hstatement, rfl⟩
    obtain ⟨hwritten, hkind⟩ := List.mem_filter.1 hstatement
    refine ⟨List.mem_map_of_mem hwritten, ?_, hcomment⟩
    cases statement with
    | blank | comment => simp [Line.isStatement] at hkind
    | statement sql => simp [Line.text]

/-- What a delta calls for opens as it should if what its target keeps does. -/
theorem opensAsDdl_of_mem_intended {delta : Delta} {line : Line} (h : line ∈ intended delta)
    (htarget : delta.target.Opened) : OpensAsDdl line.text := by
  cases origin_of_mem_intended h with
  | definition hget hdefinition =>
      exact .inl (opensWith_append (htarget.definition _ _ _ hget hdefinition) _)
  | shell hget _ hsql =>
      exact .inr (.inl (opensWith_append (htarget.alters _ _ _ hget hsql) _))
  | edit hchange haction =>
      obtain ⟨rest, hrest⟩ := Edit.line_eq_alterTable haction _
      rw [hrest, Line.text, List.append_assoc]
      have hwords : opensWith "ALTER TABLE" "ALTER TABLE " := by decide
      exact .inr (.inl (opensWith_append hwords _))
  | replay hchange hsql =>
      have hget := (Delta.mem_common_iff.1 hchange).2
      exact .inr (.inl (opensWith_append (htarget.alters _ _ _ hget hsql) _))
  | viewDrop =>
      have hwords : opensWith "DROP VIEW IF EXISTS" "DROP VIEW IF EXISTS " := by decide
      rw [ViewChange.dropLine, Line.text, List.append_assoc]
      exact .inr (.inr (opensWith_append hwords _))
  | view hchange hcase =>
      rcases Delta.of_mem_viewChanges hchange with
        ⟨name, sql, view, hchange, hget, hsql⟩ | ⟨name, view, rfl, -⟩
      · have hopen := htarget.viewDefinition _ _ _ hget hsql
        rcases hcase with rfl | rfl
        · obtain ⟨-, rfl⟩ := ViewChange.create.inj (hchange.resolve_right (by simp))
          exact .inl (opensWith_append hopen _)
        · obtain ⟨-, rfl⟩ := ViewChange.replace.inj (hchange.resolve_left (by simp))
          exact .inl (opensWith_append hopen _)
      · simp at hcase

/-- A schema keeps only texts that open with the words of their headers exactly when all
statements in force open so, and then every active line of every script towards the schema opens
with `CREATE`, `ALTER TABLE` or `DROP VIEW IF EXISTS`. -/
theorem opened_iff_inForce (target : Text) :
    ((Dump.schemaOfText target).Opened ↔
      ∀ header sql, Dump.InForce (Dump.statements target) header sql → header.Opens sql) ∧
    ((Dump.schemaOfText target).Opened →
      ∀ current, ∀ line ∈ activeLines (ofTexts current target), OpensAsDdl line) := by
  refine ⟨Schema.opened_schemaOfText_iff, fun h current line hline => ?_⟩
  obtain ⟨-, statement, hstatement, rfl⟩ := mem_activeLines_iff.1 hline
  rw [← Delta.target_ofTexts current target] at h
  exact opensAsDdl_of_mem_intended hstatement h

/-- A row of data that speaks of a table. -/
def row : Text := "INSERT INTO notes VALUES ('CREATE TABLE t (id int)')"

/-- Of a dump with this row alone the row is kept as the definition of the table, and the script
that creates the table runs the row. -/
theorem not_opened_of_row :
    (Dump.schemaOfText (row ++ ";")).tables.get? "t" =
      some { Table.shell "t" with definition := some row } ∧
    ¬(Dump.schemaOfText (row ++ ";")).Opened ∧
    row ++ ";" ∈ activeLines (ofTexts "" (row ++ ";")) ∧ ¬OpensAsDdl (row ++ ";") := by
  have hget : (Dump.schemaOfText (row ++ ";")).tables.get? "t" =
      some { Table.shell "t" with definition := some row } := by
    decide +kernel
  have hintended : Line.statement row ∈ intended (Delta.ofTexts "" (row ++ ";")) := by
    decide +kernel
  have hopens : ¬opensWith "CREATE" row := by decide
  refine ⟨hget, fun h => hopens (h.definition "t" _ row hget rfl), ?_, by decide⟩
  exact mem_activeLines_iff.2 ⟨by decide, .statement row, hintended, rfl⟩

end Script

end SchemaDelta
