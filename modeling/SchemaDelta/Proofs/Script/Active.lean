import SchemaDelta.Proofs.Script.Lines

/-!
# What a script does

The lines of a script that are neither empty nor comments are its active lines. As long as the
target dump holds no two hyphens side by side outside its comments, they are the statements that
the delta calls for, in order and nothing else (`activeLines_ofTexts`); what is only suggested
stands in comments.
-/

namespace SchemaDelta

open Sql Text

/-- Whether the line is a statement. -/
def Line.isStatement : Line → Bool
  | .statement _ => true
  | _ => false

/-- Every edit but a suggestion is a statement that alters the table. -/
theorem Edit.line_eq_alterTable {edit : Edit} (h : edit.action ≠ .suggest) (table : Text) :
    ∃ rest : Text,
      edit.line table = .statement ("ALTER TABLE " ++ quoteName table ++ ' ' :: rest) := by
  cases edit with
  | suggestDropColumn name => exact absurd rfl h
  | addColumn | modifyColumn | addIndex | dropIndex | addConstraint | dropConstraint =>
      simp only [line, List.append_assoc]
      exact ⟨_, rfl⟩

/-- A suggestion is a comment. -/
theorem Edit.isStatement_line (edit : Edit) (table : Text) :
    (edit.line table).isStatement = (edit.action ≠ .suggest : Bool) := by
  cases edit <;> rfl

namespace Script

/-- The lines of a script that are neither empty nor start with two hyphens. -/
def activeLines (script : Text) : List Text :=
  (plainLines script).filter fun line => line ≠ [] && !"--".toList.isPrefixOf line

/-- The statements that create a table: its definition, or those that alter it if it has none. -/
def creation (table : Table) : List Text :=
  match table.definition with
  | some sql => [sql]
  | none => table.alters

/-- The statements that a delta calls for: those that create the tables that only the target
has, then for every table of both schemas the edits that are not mere suggestions and the
statements of the target that alter it, and last those that change the views. -/
def intended (delta : Delta) : List Line :=
  (OrderedMap.added delta.current.tables delta.target.tables).flatMap (fun entry =>
      (creation entry.2).map .statement) ++
    delta.common.flatMap (fun change =>
      (change.ordered.filter (·.action ≠ .suggest)).map (Edit.line change.name) ++
        change.target.alters.map .statement) ++
    delta.viewChanges.flatMap ViewChange.statements

/-- Where a statement that a delta calls for comes from. -/
inductive Origin (delta : Delta) : Line → Prop
  | definition {key : Text} {table : Table} {sql : Text} :
      delta.target.tables.get? key = some table → table.definition = some sql →
        Origin delta (.statement sql)
  | shell {key : Text} {table : Table} {sql : Text} :
      delta.target.tables.get? key = some table → table.definition = none →
        sql ∈ table.alters → Origin delta (.statement sql)
  | edit {change : TableChange} {edit : Edit} :
      change ∈ delta.common → edit.action ≠ .suggest → Origin delta (edit.line change.name)
  | replay {change : TableChange} {sql : Text} :
      change ∈ delta.common → sql ∈ change.target.alters → Origin delta (.statement sql)
  | viewDrop {name : Text} : Origin delta (ViewChange.dropLine name)
  | view {change : ViewChange} {name sql : Text} :
      change ∈ delta.viewChanges → change = .create name sql ∨ change = .replace name sql →
        Origin delta (.statement sql)

/-- Every statement that a delta calls for has an origin. -/
theorem origin_of_mem_intended {delta : Delta} {line : Line} (h : line ∈ intended delta) :
    Origin delta line := by
  rcases List.mem_append.1 h with h | h
  · rcases List.mem_append.1 h with h | h
    · obtain ⟨⟨key, table⟩, hentry, hline⟩ := List.mem_flatMap.1 h
      obtain ⟨sql, hsql, rfl⟩ := List.mem_map.1 hline
      have hget := OrderedMap.get?_of_mem_added hentry
      unfold creation at hsql
      split at hsql
      · next definition hdefinition =>
        obtain rfl := List.mem_singleton.1 hsql
        exact .definition hget hdefinition
      · next hnone => exact .shell hget hnone hsql
    · obtain ⟨change, hchange, hline⟩ := List.mem_flatMap.1 h
      rcases List.mem_append.1 hline with hline | hline
      · obtain ⟨edit, hedit, rfl⟩ := List.mem_map.1 hline
        exact .edit hchange (by simpa using (List.mem_filter.1 hedit).2)
      · obtain ⟨sql, hsql, rfl⟩ := List.mem_map.1 hline
        exact .replay hchange hsql
  · obtain ⟨change, hchange, hline⟩ := List.mem_flatMap.1 h
    cases hcase : change with
    | create name sql =>
        rw [hcase] at hline
        rcases List.mem_pair.1 hline with rfl | rfl
        · exact .viewDrop
        · exact .view hchange (.inl hcase)
    | remove name =>
        rw [hcase] at hline
        obtain rfl := List.mem_singleton.1 hline
        exact .viewDrop
    | replace name sql =>
        rw [hcase] at hline
        rcases List.mem_pair.1 hline with rfl | rfl
        · exact .viewDrop
        · exact .view hchange (.inr hcase)

/-! ## The statements among the lines -/

theorem filter_stage (words nothing : Text) (lines : List Line) :
    (stage words nothing lines).filter Line.isStatement = lines.filter Line.isStatement := by
  unfold stage
  cases lines <;> simp [title, divider, Line.isStatement]

theorem filter_newTable (table : Table) :
    (newTable table).filter Line.isStatement = (creation table).map .statement := by
  have halters : (table.alters.map Line.statement).filter Line.isStatement =
      table.alters.map .statement := by
    rw [List.filter_eq_self]
    intro line hline
    obtain ⟨sql, -, rfl⟩ := List.mem_map.1 hline
    rfl
  unfold newTable creation
  cases table.definition with
  | some sql => rfl
  | none => simp [Line.isStatement, halters]

theorem filter_droppableTable (name : Text) :
    (droppableTable name).filter Line.isStatement = [] := by
  simp [droppableTable, Line.isStatement]

theorem filter_tableChange (change : TableChange) :
    (tableChange change).filter Line.isStatement =
      (change.ordered.filter (·.action ≠ .suggest)).map (Edit.line change.name) ++
        change.target.alters.map .statement := by
  have hordered : (change.ordered.map (Edit.line change.name)).filter Line.isStatement =
      (change.ordered.filter (·.action ≠ .suggest)).map (Edit.line change.name) := by
    rw [List.filter_map]
    congr 1
    exact List.filter_congr fun edit _ => edit.isStatement_line change.name
  have hreplayed : (change.replayed.flatMap fun sql =>
      [Line.comment "ALTER found in target:", .statement sql]).filter Line.isStatement =
        change.target.alters.map .statement := by
    rw [TableChange.replayed]
    induction change.target.alters with
    | nil => rfl
    | cons sql rest ih =>
        rw [List.flatMap_cons, List.filter_append, ih]
        rfl
  have hnotes : (if change.columns.isEmpty then []
      else [Line.comment ("Current columns: " ++ join ", " change.current.columns.keys),
        .comment ("Target columns: " ++ join ", " change.target.columns.keys)]).filter
          Line.isStatement = [] := by
    split <;> rfl
  unfold tableChange
  simp only [List.filter_append, List.filter_cons, hordered, hreplayed, hnotes]
  simp [Line.isStatement]

theorem filter_viewChange (change : ViewChange) :
    (viewChange change).filter Line.isStatement = change.statements := by
  cases change <;> rfl

theorem filter_summary (counts : Summary) : (summary counts).filter Line.isStatement = [] := by
  unfold summary
  split <;> rfl

/-- A table that has no changes gives rise to no statement. -/
theorem statements_eq_nil_of_not_hasChanges {change : TableChange} (h : ¬change.hasChanges) :
    change.ordered = [] ∧ change.target.alters = [] := by
  simp only [TableChange.hasChanges, Bool.or_eq_true, Bool.not_eq_true', not_or,
    Bool.not_eq_false, List.isEmpty_iff] at h
  obtain ⟨⟨⟨hcolumns, hindexes⟩, hconstraints⟩, hreplayed⟩ := h
  refine ⟨?_, hreplayed⟩
  simp [TableChange.ordered, hcolumns, hindexes, hconstraints]

theorem filter_created {delta : Delta} {statements : List Text}
    (h : delta.target.Recorded statements) :
    (delta.created.flatMap newTable).filter Line.isStatement =
      (OrderedMap.added delta.current.tables delta.target.tables).flatMap fun entry =>
        (creation entry.2).map .statement := by
  rw [Delta.created_eq h, List.filter_flatMap, List.flatMap_map]
  exact List.flatMap_congr fun entry _ => filter_newTable entry.2

theorem filter_dropped (delta : Delta) :
    (delta.dropped.flatMap droppableTable).filter Line.isStatement = [] := by
  rw [List.filter_flatMap, List.flatMap_eq_nil_iff]
  exact fun name _ => filter_droppableTable name

theorem filter_altered (delta : Delta) :
    (delta.altered.flatMap tableChange).filter Line.isStatement =
      delta.common.flatMap fun change =>
        (change.ordered.filter (·.action ≠ .suggest)).map (Edit.line change.name) ++
          change.target.alters.map .statement := by
  rw [List.filter_flatMap, List.flatMap_congr fun change _ => filter_tableChange change,
    Delta.altered]
  -- Leaving out the tables without changes leaves out nothing.
  induction delta.common with
  | nil => rfl
  | cons change rest ih =>
      rw [List.filter_cons, List.flatMap_cons]
      split
      · rw [List.flatMap_cons, ih]
      · next hchanges =>
        obtain ⟨hordered, halters⟩ := statements_eq_nil_of_not_hasChanges hchanges
        rw [ih, hordered, halters]
        rfl

theorem filter_viewChanges (delta : Delta) :
    (viewChanges delta).filter Line.isStatement =
      delta.viewChanges.flatMap ViewChange.statements := by
  have hchanges : (delta.viewChanges.flatMap viewChange).filter Line.isStatement =
      delta.viewChanges.flatMap ViewChange.statements := by
    rw [List.filter_flatMap]
    exact List.flatMap_congr fun change _ => filter_viewChange change
  unfold viewChanges
  split
  · next hnone =>
    rw [List.isEmpty_iff] at hnone
    rw [hnone]
    rfl
  · rw [List.filter_append, hchanges]
    rfl

/-- The statements among the lines of a script are those that the delta calls for. -/
theorem filter_lines {delta : Delta} {statements : List Text}
    (h : delta.target.Recorded statements) :
    (lines delta).filter Line.isStatement = intended delta := by
  have hheader : header.filter Line.isStatement = [] := rfl
  rw [lines, List.filter_append, List.filter_append, List.filter_append, List.filter_append,
    List.filter_append, filter_stage, filter_stage, filter_stage, filter_stage, hheader,
    filter_created h, filter_dropped, filter_altered, filter_viewChanges, filter_summary]
  simp [intended]

/-! ## Statements are active and all else is not -/

/-- Statements without two hyphens side by side do not read as comments. -/
theorem not_comment_of_undashed {sql : Text} (h : Dump.Undashed sql) :
    ¬"--".toList <+: (Line.statement sql).text := by
  exact Apart.not_prefix (Apart.append_cons h .nil (by decide) (by decide))

/-- No statement that a delta calls for reads as a comment, if the statements of the target hold
no two hyphens side by side. -/
theorem not_comment_of_mem_intended {delta : Delta} {statements targetStatements : List Text}
    (hcurrent : delta.current.Recorded statements)
    (htarget : delta.target.Recorded targetStatements)
    (hundashed : ∀ sql ∈ targetStatements, Dump.Undashed sql) {line : Line}
    (h : line ∈ intended delta) : ¬"--".toList <+: line.text := by
  cases origin_of_mem_intended h with
  | definition hget hdefinition =>
      have htable := htarget.tables.of_get? hget
      exact not_comment_of_undashed (hundashed _ (htable.definition _ hdefinition).1)
  | shell hget hnone hsql =>
      have htable := htarget.tables.of_get? hget
      exact not_comment_of_undashed (hundashed _ (htable.alters _ hsql).1)
  | edit hchange haction =>
      obtain ⟨rest, hrest⟩ := Edit.line_eq_alterTable haction _
      rw [hrest]
      simp [Line.text]
  | replay hchange hsql =>
      have htable := htarget.tables.of_get? (Delta.mem_common_iff.1 hchange).2
      exact not_comment_of_undashed (hundashed _ (htable.alters _ hsql).1)
  | viewDrop => simp [ViewChange.dropLine, Line.text]
  | view hchange hcase =>
      have hrecorded := Delta.recorded_of_mem_viewChanges hcurrent htarget hchange
      rcases hcase with rfl | rfl
      · exact not_comment_of_undashed (hundashed _ hrecorded.2.1)
      · exact not_comment_of_undashed (hundashed _ hrecorded.2.1)

/-- Of lines whose statements do not read as comments, the active ones are the statements. -/
theorem filter_active {lines : List Line}
    (h : ∀ line ∈ lines.filter Line.isStatement, ¬"--".toList <+: line.text) :
    (lines.map Line.text).filter (fun line => line ≠ [] && !"--".toList.isPrefixOf line) =
      (lines.filter Line.isStatement).map Line.text := by
  rw [List.filter_map]
  congr 1
  refine List.filter_congr fun line hline => ?_
  cases line with
  | blank => rfl
  | comment note => simp [Line.text, Line.isStatement]
  | statement sql =>
      have hcomment := h (.statement sql) (List.mem_filter.2 ⟨hline, rfl⟩)
      rw [← List.isPrefixOf_iff_prefix, Bool.not_eq_true] at hcomment
      rw [Function.comp_apply, hcomment]
      simp [Line.text, Line.isStatement]

/-! ## Suggestions -/

theorem mem_stage {words nothing : Text} {lines : List Line} {line : Line} (h : line ∈ lines) :
    line ∈ stage words nothing lines := by
  have hne : lines ≠ [] := List.ne_nil_of_mem h
  unfold stage
  rw [if_neg (by simpa using hne)]
  exact List.mem_append_right _ (List.mem_cons_of_mem _ h)

/-- The suggestion to drop a table is a line of the script. -/
theorem mem_lines_of_mem_dropped {delta : Delta} {key : Text} (h : key ∈ delta.dropped) :
    .comment ("DROP TABLE IF EXISTS " ++ quoteName key ++ ";") ∈ lines delta := by
  have hline : Line.comment ("DROP TABLE IF EXISTS " ++ quoteName key ++ ";") ∈
      delta.dropped.flatMap droppableTable :=
    List.mem_flatMap.2 ⟨key, h, by simp [droppableTable]⟩
  simp only [lines, List.mem_append]
  exact .inl (.inl (.inl (.inr (mem_stage hline))))

/-- The line of an ordered edit of a table that both schemas have is a line of the script. -/
theorem mem_lines_of_mem_ordered {delta : Delta} {change : TableChange}
    (hchange : change ∈ delta.common) {edit : Edit} (h : edit ∈ change.ordered) :
    edit.line change.name ∈ lines delta := by
  have hchanges : change.hasChanges := by
    by_contra hnone
    rw [(statements_eq_nil_of_not_hasChanges hnone).1] at h
    simp at h
  have hline : edit.line change.name ∈ delta.altered.flatMap tableChange := by
    refine List.mem_flatMap.2 ⟨change, List.mem_filter.2 ⟨hchange, hchanges⟩, ?_⟩
    simp only [tableChange, List.mem_append, List.mem_cons]
    exact .inl (.inl (.inr (.inr (List.mem_map_of_mem h))))
  simp only [lines, List.mem_append]
  exact .inl (.inl (.inr (mem_stage hline)))

/-- The active lines of a script are the statements that the delta calls for, each with its
semicolon, if the clean text of the target dump holds no two hyphens side by side; nothing has
to be asked of the current dump. What only the current dump has is not among them: the drop of
each such table, and of each such column of a table that both have, is one comment line. -/
theorem activeLines_ofTexts {current target : Text}
    (hclean : ¬occursIn "--" (Dump.clean target)) :
    activeLines (ofTexts current target) =
      (intended (Delta.ofTexts current target)).map Line.text ∧
    (∀ key ∈ (Delta.ofTexts current target).dropped,
      "-- DROP TABLE IF EXISTS " ++ quoteName key ++ ";" ∈
        plainLines (ofTexts current target)) ∧
    ∀ change ∈ (Delta.ofTexts current target).common,
      ∀ column ∈ OrderedMap.removed change.current.columns change.target.columns,
        "-- ALTER TABLE " ++ quoteName change.name ++ " DROP COLUMN " ++ quoteName column.1 ++
          "; -- WARNING: may cause data loss" ∈ plainLines (ofTexts current target) := by
  have hcurrent := Delta.recorded_current current target
  have htarget := Delta.recorded_target current target
  have hundashed : ∀ sql ∈ Dump.statements target, Dump.Undashed sql := fun sql hsql =>
    Dump.undashed_of_mem_statements hclean hsql
  rw [activeLines, plainLines_ofTexts]
  refine ⟨?_, fun key hkey => ?_, fun change hchange column hcolumn => ?_⟩
  · rw [← filter_lines htarget]
    refine filter_active fun line hline => ?_
    rw [filter_lines htarget] at hline
    exact not_comment_of_mem_intended hcurrent htarget hundashed hline
  · have hline := List.mem_map_of_mem (f := Line.text) (mem_lines_of_mem_dropped hkey)
    simpa [Line.text] using hline
  · have hedit : .suggestDropColumn column.1 ∈ change.ordered := by
      have hmem : Edit.suggestDropColumn column.1 ∈ change.columns :=
        List.mem_append_left _ (List.mem_append_right _ (List.mem_map_of_mem hcolumn))
      simp only [TableChange.ordered, List.mem_append]
      exact .inl (.inl (.inr hmem))
    have hline := List.mem_map_of_mem (f := Line.text) (mem_lines_of_mem_ordered hchange hedit)
    simpa [Line.text, Edit.line] using hline

/-- A dump that adds the key of a column behind the definition of its table. -/
def keyedColumnText : Text := "CREATE TABLE t (a int, c int);\nALTER TABLE t ADD KEY k (c);"

/-- Where one column takes the place of another, the new one is added and the old one stays. The
key of the new one is added behind it. -/
theorem activeLines_of_replaced_column :
    ¬occursIn "--" (Dump.clean keyedColumnText) ∧
      activeLines (ofTexts "CREATE TABLE t (a int, b int);" keyedColumnText) =
        ["ALTER TABLE \x60t\x60 ADD COLUMN \x60c\x60 int;".toList,
          "ALTER TABLE t ADD KEY k (c);".toList] := by
  have hclean : ¬occursIn "--" (Dump.clean keyedColumnText) := by
    decide +kernel
  refine ⟨hclean, (activeLines_ofTexts hclean).1.trans ?_⟩
  decide +kernel

end Script

end SchemaDelta
