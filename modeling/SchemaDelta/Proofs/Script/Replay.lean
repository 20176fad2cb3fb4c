import SchemaDelta.Proofs.Script.Active
import SchemaDelta.Proofs.Sql.Header

/-!
# What a script replays

The statements of the target that alter a table are replayed for a table of both schemas and for
a new table without a definition of its own. For a new table with a definition the script has
the definition only: `replays_iff` says exactly when nothing is lost.
-/

namespace SchemaDelta.Script

open Sql Text

/-- The lines of the statements that alter the table stand in the script, once per statement and
in their order. -/
def Replays (script : Text) (table : Table) : Prop :=
  (table.alters.map (· ++ ";".toList)).Sublist (plainLines script)

instance (script : Text) (table : Table) : Decidable (Replays script table) :=
  inferInstanceAs (Decidable (List.Sublist _ _))

/-- The statements of a list, as lines of a script, are those of its parts. -/
theorem sublist_flatMap {α : Type} {parts : List α} {part : α} (h : part ∈ parts)
    (lines : α → List Line) : (lines part).Sublist (parts.flatMap lines) := by
  obtain ⟨before, behind, rfl⟩ := List.append_of_mem h
  rw [List.flatMap_append, List.flatMap_cons]
  exact (List.sublist_append_left _ _).trans (List.sublist_append_right _ _)

/-- What the delta calls for stands in the script, in order. -/
theorem intended_sublist (current target : Text) :
    ((intended (Delta.ofTexts current target)).map Line.text).Sublist
      (plainLines (ofTexts current target)) := by
  rw [plainLines_ofTexts, ← filter_lines (Delta.recorded_target current target)]
  exact List.filter_sublist.map _

/-- The statements that alter a table are replayed if both dumps have the table or the target
dump has no definition of it. -/
theorem replays_of_common_or_shell {current target key : Text} {table : Table}
    (htable : (Dump.schemaOfText target).tables.get? key = some table)
    (h : key ∈ (Dump.schemaOfText current).tables.keys ∨ table.definition = none) :
    Replays (ofTexts current target) table := by
  have hlines : (table.alters.map Line.statement).Sublist
      (intended (Delta.ofTexts current target)) := by
    by_cases hkey : key ∈ (Dump.schemaOfText current).tables.keys
    · obtain ⟨old, hold⟩ := Option.isSome_iff_exists.1
        (OrderedMap.contains_iff_mem_keys.2 hkey)
      have hcommon : (⟨key, old, table⟩ : TableChange) ∈ (Delta.ofTexts current target).common :=
        Delta.mem_common_iff.2 ⟨hold, htable⟩
      have hpart := sublist_flatMap hcommon fun change =>
        (change.ordered.filter (·.action ≠ .suggest)).map (Edit.line change.name) ++
          change.target.alters.map .statement
      have hchange : (table.alters.map Line.statement).Sublist
          (((⟨key, old, table⟩ : TableChange).ordered.filter (·.action ≠ .suggest)).map
            (Edit.line key) ++ table.alters.map .statement) :=
        List.sublist_append_right _ _
      exact (hchange.trans hpart).trans
        ((List.sublist_append_right _ _).trans (List.sublist_append_left _ _))
    · have hadded : (key, table) ∈
          OrderedMap.added (Dump.schemaOfText current).tables (Dump.schemaOfText target).tables :=
        OrderedMap.mem_added_iff.2 ⟨OrderedMap.get?_eq_some_iff.1 htable, hkey⟩
      have hpart := sublist_flatMap hadded fun entry => (creation entry.2).map .statement
      have hcreation : creation table = table.alters := by
        rw [creation, h.resolve_left hkey]
      rw [hcreation] at hpart
      exact hpart.trans ((List.sublist_append_left _ _).trans (List.sublist_append_left _ _))
  have htext := (hlines.map Line.text).trans (intended_sublist current target)
  rw [List.map_map] at htext
  exact htext

/-! ## Comments that read like statements -/

/-- A comment ends with a semicolon only where it suggests to drop a table. -/
def Inert : Line → Prop
  | .comment note => note.getLast? = some ';' →
    ∃ name, IsName name ∧ note = "DROP TABLE IF EXISTS " ++ quoteName name ++ ";"
  | _ => True

/-- A comment that ends with anything but a semicolon is no suggestion. -/
theorem inert_comment {note : Text} (h : note.getLast? ≠ some ';') : Inert (.comment note) :=
  fun hlast => absurd hlast h

/-- The last words of a comment tell how it ends. -/
theorem inert_comment_append {front back : Text} (h : back.getLast?.any (· ≠ ';')) :
    Inert (.comment (front ++ back)) := by
  obtain ⟨c, hback, hc⟩ := (Option.any_eq_true _ _).1 h
  have hlast : (front ++ back).getLast? = some c := by
    rw [List.getLast?_append, hback, Option.some_or]
  refine inert_comment ?_
  rw [hlast]
  simpa using hc

theorem inert_divider : Inert divider :=
  inert_comment (by simp)

theorem inert_stage {words nothing : Text} {lines : List Line} (hwords : Inert (.comment words))
    (hnothing : Inert (.comment nothing)) (hlines : ∀ line ∈ lines, Inert line) :
    ∀ line ∈ stage words nothing lines, Inert line := by
  unfold stage
  rw [List.forall_mem_append, List.forall_mem_cons]
  refine ⟨?_, trivial, ?_⟩
  · simpa [title] using ⟨inert_divider, hwords, inert_divider⟩
  · split
    · simpa using ⟨hnothing, trivial⟩
    · exact hlines

theorem inert_newTable (table : Table) : ∀ line ∈ newTable table, Inert line := by
  unfold newTable
  split
  · simp only [List.forall_mem_cons]
    exact ⟨inert_comment_append (by simp), trivial, trivial, by simp⟩
  · simp only [List.cons_append, List.forall_mem_cons, List.forall_mem_append,
      List.forall_mem_map]
    exact ⟨inert_comment_append (by simp), fun _ _ => trivial, trivial, by simp⟩

theorem inert_droppableTable {name : Text} (h : IsName name) :
    ∀ line ∈ droppableTable name, Inert line := by
  simp only [droppableTable, List.forall_mem_cons]
  exact ⟨inert_comment_append (by simp), inert_comment (by simp), fun _ => ⟨name, h, rfl⟩,
    trivial, by simp⟩

/-- A list of names does not end with a semicolon, nor do the words in front of it. -/
theorem inert_comment_join_keys {front : Text} (hfront : front.getLast?.any (· ≠ ';'))
    {columns : OrderedMap Column}
    (h : columns.Holds fun name column => column.name = name ∧ column.Declared) :
    Inert (.comment (front ++ join ", " columns.keys)) := by
  by_cases hempty : join ", " columns.keys = []
  · rw [hempty]
    rw [List.append_nil, ← List.nil_append front]
    exact inert_comment_append hfront
  refine inert_comment fun hlast => ?_
  rw [List.getLast?_append_of_ne_nil _ hempty] at hlast
  exact not_mem_join_keys h (by decide) (by simp) (List.mem_of_getLast? hlast)

theorem inert_line (edit : Edit) (table : Text) : Inert (edit.line table) := by
  cases edit with
  | suggestDropColumn name => exact inert_comment_append (by simp)
  | addColumn | modifyColumn | addIndex | dropIndex | addConstraint | dropConstraint =>
      exact trivial

theorem inert_tableChange {change : TableChange} {statements targetStatements : List Text}
    (hcurrent : change.current.Recorded statements change.name)
    (htarget : change.target.Recorded targetStatements change.name) :
    ∀ line ∈ tableChange change, Inert line := by
  have hsizes : ∀ front : Text, ∀ table, Inert (.comment (front ++ sizes table)) := by
    intro front table
    rw [sizes, ← List.append_assoc]
    exact inert_comment_append (by simp)
  have hcolumns : ∀ line ∈ (if change.columns.isEmpty then []
      else [Line.comment ("Current columns: " ++ join ", " change.current.columns.keys),
        .comment ("Target columns: " ++ join ", " change.target.columns.keys)]), Inert line := by
    split
    · simp
    · simp only [List.forall_mem_cons]
      exact ⟨inert_comment_join_keys (by simp) hcurrent.columns,
        inert_comment_join_keys (by simp) htarget.columns, by simp⟩
  unfold tableChange
  simp only [List.forall_mem_append, List.forall_mem_cons, List.forall_mem_map]
  refine ⟨⟨⟨⟨⟨?_, hsizes _ _, hsizes _ _, by simp⟩, hcolumns⟩, trivial, fun edit _ => ?_⟩, ?_⟩,
    trivial, by simp⟩
  · exact inert_comment_append (by simp)
  · exact inert_line edit change.name
  · intro line hline
    obtain ⟨sql, -, hline⟩ := List.mem_flatMap.1 hline
    rcases List.mem_pair.1 hline with rfl | rfl
    · exact inert_comment (by simp)
    · exact trivial

theorem inert_viewNotes (change : ViewChange) : ∀ line ∈ viewNotes change, Inert line := by
  cases change with
  | create name sql =>
      rw [viewNotes, List.forall_mem_singleton]
      exact inert_comment_append (by simp)
  | remove name =>
      rw [viewNotes, List.forall_mem_cons, List.forall_mem_singleton]
      exact ⟨inert_comment_append (by simp), inert_comment (by simp)⟩
  | replace name sql =>
      rw [viewNotes, List.forall_mem_singleton]
      exact inert_comment_append (by simp)

theorem inert_viewChange (change : ViewChange) : ∀ line ∈ viewChange change, Inert line := by
  have hstatements : ∀ line ∈ change.statements, Inert line := by
    cases change <;> simp [ViewChange.statements, ViewChange.dropLine, Inert]
  rw [viewChange, List.forall_mem_append, List.forall_mem_append, List.forall_mem_singleton]
  exact ⟨⟨inert_viewNotes change, hstatements⟩, trivial⟩

theorem inert_summary (counts : Summary) : ∀ line ∈ summary counts, Inert line := by
  have hnumeral : ∀ (front : Text) (n : Nat), Inert (.comment (front ++ ofNat n)) := by
    intro front n
    have hne : ofNat n ≠ [] := Nat.toDigits_ne_nil
    refine inert_comment fun hlast => ?_
    rw [List.getLast?_append_of_ne_nil _ hne] at hlast
    exact not_mem_ofNat (by decide) n (List.mem_of_getLast? hlast)
  have hwords : Inert (.comment "SCRIPT SUMMARY") := inert_comment (by simp)
  have hlast : Inert (if counts.isSynchronized then synchronizedLine else reviewLine) := by
    split
    · exact inert_comment (by simp)
    · exact inert_comment (by simp)
  simp only [summary, title, List.forall_mem_append, List.forall_mem_cons]
  exact ⟨⟨inert_divider, hwords, inert_divider, by simp⟩, hnumeral _ _, hnumeral _ _,
    hnumeral _ _, hnumeral _ _, hnumeral _ _, hnumeral _ _, trivial, hlast, by simp⟩

/-- Of the comments of a script only the suggestions to drop a table end with a semicolon. -/
theorem inert_lines (current target : Text) :
    ∀ line ∈ lines (Delta.ofTexts current target), Inert line := by
  have hcurrent := Delta.recorded_current current target
  have htarget := Delta.recorded_target current target
  have hflat : ∀ {α : Type} {parts : List α} {of : α → List Line},
      (∀ part ∈ parts, ∀ line ∈ of part, Inert line) →
        ∀ line ∈ parts.flatMap of, Inert line := by
    intro α parts of h line hline
    obtain ⟨part, hpart, hline⟩ := List.mem_flatMap.1 hline
    exact h part hpart line hline
  unfold lines
  simp only [List.forall_mem_append]
  refine ⟨⟨⟨⟨⟨?_, ?_⟩, ?_⟩, ?_⟩, ?_⟩, inert_summary _⟩
  · simp only [header, List.forall_mem_cons]
    exact ⟨inert_comment (by simp), inert_comment (by simp),
      inert_comment (by simp), inert_comment (by simp), trivial,
      by simp⟩
  · exact inert_stage (inert_comment (by simp))
      (inert_comment (by simp)) (hflat fun table _ => inert_newTable table)
  · refine inert_stage (inert_comment (by simp))
      (inert_comment (by simp)) (hflat fun key hkey => ?_)
    rw [Delta.dropped_eq] at hkey
    obtain ⟨entry, hentry, rfl⟩ := List.mem_map.1 hkey
    exact inert_droppableTable
      (hcurrent.tables.of_get? (OrderedMap.get?_of_mem_removed hentry)).isName
  · refine inert_stage (inert_comment (by simp))
      (inert_comment (by simp)) (hflat fun change hchange => ?_)
    obtain ⟨hold, hnew⟩ := Delta.mem_common_iff.1 (List.mem_filter.1 hchange).1
    exact inert_tableChange (hcurrent.tables.of_get? hold) (htarget.tables.of_get? hnew)
  · refine inert_stage (inert_comment (by simp))
      (inert_comment (by simp)) ?_
    unfold viewChanges
    split
    · simp
    · simp only [List.forall_mem_append, List.forall_mem_cons]
      exact ⟨⟨inert_comment (by simp), inert_comment_append (by simp),
        inert_comment_append (by simp), trivial, by simp⟩,
        hflat fun change _ => inert_viewChange change⟩

/-! ## What is lost -/

/-- A statement that alters a table is not one that the delta calls for if the current dump does
not have the table and the target dump has a definition of it. -/
theorem not_mem_intended {current target key : Text} {table : Table}
    (htable : (Dump.schemaOfText target).tables.get? key = some table)
    (hkey : key ∉ (Dump.schemaOfText current).tables.keys) (hdefinition : table.definition ≠ none)
    {sql : Text} (hheader : Header.ofStatement? sql = some (.alterTable key)) :
    .statement sql ∉ intended (Delta.ofTexts current target) := by
  have hcurrent := Delta.recorded_current current target
  have htarget := Delta.recorded_target current target
  have hnew : ∀ change ∈ (Delta.ofTexts current target).common, change.name ≠ key := by
    rintro change hchange rfl
    exact hkey (OrderedMap.contains_iff_mem_keys.1
      (Option.isSome_iff_exists.2 ⟨_, (Delta.mem_common_iff.1 hchange).1⟩))
  intro h
  -- The header of the statement tells its origin, and no origin fits.
  generalize hline : Line.statement sql = line at h
  cases origin_of_mem_intended h with
  | definition hget hsome =>
      obtain rfl := Line.statement.inj hline
      have hrecorded := htarget.tables.of_get? hget
      rw [(hrecorded.definition sql hsome).2] at hheader
      simp at hheader
  | @shell other created _ hget hnone hsql =>
      obtain rfl := Line.statement.inj hline
      have hrecorded := htarget.tables.of_get? hget
      rw [(hrecorded.alters sql hsql).2] at hheader
      obtain rfl : other = key := by simpa using hheader
      obtain rfl : created = table := Option.some.inj (hget.symm.trans htable)
      exact hdefinition hnone
  | @edit change edit hchange haction =>
      have hrecorded := htarget.tables.of_get? (Delta.mem_common_iff.1 hchange).2
      obtain ⟨rest, hrest⟩ := edit.line_eq_alterTable haction change.name
      rw [hrest] at hline
      obtain rfl := Line.statement.inj hline
      exact hnew change hchange (header_alterTable_eq hrecorded.isName hheader)
  | @replay change _ hchange hsql =>
      obtain rfl := Line.statement.inj hline
      have hrecorded := htarget.tables.of_get? (Delta.mem_common_iff.1 hchange).2
      rw [(hrecorded.alters sql hsql).2] at hheader
      exact hnew change hchange (by simpa using hheader)
  | viewDrop =>
      obtain rfl := Line.statement.inj hline
      exact header_dropView_ne hheader
  | view hchange hcase =>
      obtain rfl := Line.statement.inj hline
      have hrecorded := Delta.recorded_of_mem_viewChanges hcurrent htarget hchange
      have hview : ∃ name, Header.ofStatement? sql = some (.createView name) := by
        rcases hcase with rfl | rfl
        · exact ⟨_, hrecorded.2.2⟩
        · exact ⟨_, hrecorded.2.2⟩
      obtain ⟨name, hname⟩ := hview
      rw [hname] at hheader
      simp at hheader

/-- Nor is it, with its semicolon, a line of the script. -/
theorem not_mem_plainLines {current target key : Text} {table : Table}
    (htable : (Dump.schemaOfText target).tables.get? key = some table)
    (hkey : key ∉ (Dump.schemaOfText current).tables.keys) (hdefinition : table.definition ≠ none)
    {sql : Text} (hheader : Header.ofStatement? sql = some (.alterTable key)) :
    sql ++ ";".toList ∉ plainLines (ofTexts current target) := by
  rw [plainLines_ofTexts]
  intro h
  obtain ⟨line, hline, htext⟩ := List.mem_map.1 h
  cases line with
  | blank => simp [Line.text] at htext
  | statement other =>
      obtain rfl : other = sql := by simpa [Line.text] using htext
      refine not_mem_intended htable hkey hdefinition hheader ?_
      rw [← filter_lines (Delta.recorded_target current target)]
      exact List.mem_filter.2 ⟨hline, rfl⟩
  | comment note =>
      -- A comment that reads like the statement ends with a semicolon, so it suggests to drop a
      -- table, and then the statement would be one that starts with hyphens.
      have htext' : "-- ".toList ++ note = sql ++ [';'] := htext
      have hlast : note.getLast? = some ';' := by
        have hends := congrArg List.getLast? htext'
        rw [List.getLast?_concat] at hends
        by_cases hnote : note = []
        · subst hnote
          exact absurd hends (by decide)
        · rwa [List.getLast?_append_of_ne_nil _ hnote] at hends
      obtain ⟨name, hname, rfl⟩ := inert_lines current target _ hline hlast
      have hsql : "-- DROP TABLE IF EXISTS " ++ quoteName name = sql := by
        rw [← List.append_left_inj [';'], ← htext']
        simp
      rw [← hsql] at hheader
      exact header_dropTable_ne hname hheader

/-- Exactly these statements that alter a table are replayed: those of a table that both dumps
have or of which the target dump has no definition, and trivially those of a table that has
none. -/
theorem replays_iff {current target key : Text} {table : Table}
    (htable : (Dump.schemaOfText target).tables.get? key = some table) :
    Replays (ofTexts current target) table ↔
      key ∈ (Dump.schemaOfText current).tables.keys ∨ table.definition = none ∨
        table.alters = [] := by
  constructor
  · intro h
    by_contra hlost
    simp only [not_or] at hlost
    obtain ⟨hkey, hdefinition, halters⟩ := hlost
    obtain ⟨sql, rest, hcons⟩ := List.exists_cons_of_ne_nil halters
    have hmem : sql ∈ table.alters := hcons ▸ List.mem_cons_self
    have hrecorded := (Dump.recorded_schemaOfText target).tables.of_get? htable
    exact not_mem_plainLines htable hkey hdefinition (hrecorded.alters sql hmem).2
      (h.subset (List.mem_map_of_mem hmem))
  · rintro (hkey | hdefinition | halters)
    · exact replays_of_common_or_shell htable (.inl hkey)
    · exact replays_of_common_or_shell htable (.inr hdefinition)
    · unfold Replays
      rw [halters]
      exact List.nil_sublist _

/-- A dump that adds the key of a table behind the definition of the table. -/
def keyedLaterText : Text := "CREATE TABLE t (id int);\nALTER TABLE t ADD KEY k (id);"

/-- The table of this dump. -/
def keyedLater : Table :=
  ({ Table.shell "t" with definition := some "CREATE TABLE t (id int)" }.addColumn
    ⟨"id", "\x60id\x60 int", false⟩).addAlter "ALTER TABLE t ADD KEY k (id)"

theorem get?_keyedLater :
    (Dump.schemaOfText keyedLaterText).tables.get? "t" = some keyedLater := by
  decide +kernel

/-- The key is added where the current dump has the table too. -/
theorem replays_where_table_is_known :
    (Dump.schemaOfText keyedLaterText).tables.get? "t" = some keyedLater ∧
      keyedLater.alters = ["ALTER TABLE t ADD KEY k (id)".toList] ∧
      Replays (ofTexts "CREATE TABLE t (id int);" keyedLaterText) keyedLater := by
  have hkey : "t".toList ∈ (Dump.schemaOfText "CREATE TABLE t (id int);").tables.keys := by
    decide +kernel
  exact ⟨get?_keyedLater, rfl, (replays_iff get?_keyedLater).2 (.inl hkey)⟩

/-- The key is lost where the table is new. -/
theorem not_replays_where_table_is_new :
    (Dump.schemaOfText keyedLaterText).tables.get? "t" = some keyedLater ∧
      keyedLater.alters = ["ALTER TABLE t ADD KEY k (id)".toList] ∧
      ¬Replays (ofTexts "" keyedLaterText) keyedLater := by
  have hkey : "t".toList ∉ (Dump.schemaOfText "").tables.keys := by decide +kernel
  have hheader : Header.ofStatement? "ALTER TABLE t ADD KEY k (id)" =
      some (.alterTable "t") := by
    decide +kernel
  refine ⟨get?_keyedLater, rfl, fun h => ?_⟩
  have hline : "ALTER TABLE t ADD KEY k (id)".toList ++ ";".toList ∈
      keyedLater.alters.map (· ++ ";".toList) :=
    List.mem_singleton_self _
  exact not_mem_plainLines get?_keyedLater hkey (Option.some_ne_none _) hheader
    (h.subset hline)

end SchemaDelta.Script
