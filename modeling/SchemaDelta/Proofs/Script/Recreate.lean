import SchemaDelta.Proofs.Script.Reread

/-!
# Creating a schema from nothing

The script that leads from the empty dump to another dump creates what the other dump declares.
Its statements build, table by table and view by view, the schema of the other dump again
(`schemaOfText_ofTexts_nothing`); only the statements that alter a table with a definition and
the views without a definition are not in it.
-/

namespace SchemaDelta

open Sql Text Dump

/-- The table as the statements that create it leave it: without alterations if it has a
definition, and in all else as it is. -/
def Table.recreated (table : Table) : Table :=
  { table with alters := if table.definition.isSome then [] else table.alters }

/-- The view as the statements that create it leave it, if it has a definition. -/
def View.recreated? (view : View) : Option View :=
  view.definition.map fun sql =>
    ⟨view.name, some sql, some ("DROP VIEW IF EXISTS " ++ quoteName view.name)⟩

variable {statements : List Text} {key : Text}

/-! ## Statements that leave the tables or the views alone -/

theorem tables_foldl_of_none {parts : List Text} (h : ∀ sql ∈ parts, tableOf? sql = none)
    (schema : Schema) : (parts.foldl recordStatement schema).tables = schema.tables := by
  induction parts generalizing schema with
  | nil => rfl
  | cons first rest ih =>
      obtain ⟨hfirst, hrest⟩ := List.forall_mem_cons.1 h
      rw [List.foldl_cons, ih hrest, tables_of_none schema hfirst]

theorem views_foldl_of_none {parts : List Text} (h : ∀ sql ∈ parts, viewOf? sql = none)
    (schema : Schema) : (parts.foldl recordStatement schema).views = schema.views := by
  induction parts generalizing schema with
  | nil => rfl
  | cons first rest ih =>
      obtain ⟨hfirst, hrest⟩ := List.forall_mem_cons.1 h
      rw [List.foldl_cons, ih hrest, views_of_none schema hfirst]

/-! ## One table, one view -/

/-- Statements that alter a new table add a shell with all of them. -/
theorem entries_foldl_alters {schema : Schema} (hkey : key ∉ schema.tables.keys)
    {alters : List Text} (hne : alters ≠ []) (h : ∀ sql ∈ alters, AltersTable key sql) :
    (alters.foldl recordStatement schema).tables.entries =
      schema.tables.entries ++ [(key, { Table.shell key with alters := alters })] := by
  induction alters using List.reverseRecOn with
  | nil => exact absurd rfl hne
  | append_singleton rest sql ih =>
      have hsql := h sql (by simp)
      rw [List.foldl_concat, tables_of_altersTable _ hsql]
      by_cases hrest : rest = []
      · subst hrest
        have hshell : schema.tableOrShell key = .shell key := by
          rw [Schema.tableOrShell, OrderedMap.get?_eq_none_iff.2 hkey]
          rfl
        rw [List.foldl_nil, hshell, OrderedMap.entries_insert_of_not_mem _ hkey]
        rfl
      · have hentries := ih hrest fun other hother => h other (List.mem_append_left _ hother)
        have hget : (rest.foldl recordStatement schema).tables.get? key =
            some { Table.shell key with alters := rest } :=
          OrderedMap.get?_eq_some_iff.2 (by rw [hentries]; simp)
        rw [Schema.tableOrShell, hget, OrderedMap.entries_insert_of_last hentries]
        rfl

namespace Script

/-- The statements that create a recorded table add it to tables that do not have it. -/
theorem entries_foldl_creation {schema : Schema} (hkey : key ∉ schema.tables.keys)
    {table : Table} (hleft : table.LeftBy statements key) :
    ((creation table).foldl recordStatement schema).tables.entries =
      schema.tables.entries ++ [(key, table.recreated)] := by
  cases hleft with
  | @defined before behind sql _ hdefines _ =>
      have hcreation : creation { definedTable key sql with
          alters := behind.filter (AltersTable key ·) } = [sql] := by
        simp [creation]
      have hrecreated : Table.recreated { definedTable key sql with
          alters := behind.filter (AltersTable key ·) } = definedTable key sql := by
        have hunaltered : ∀ table : Table, table.alters = [] →
            { table with alters := [] } = table := by
          rintro ⟨⟩ rfl
          rfl
        rw [Table.recreated, if_pos (by simp)]
        exact hunaltered _ alters_definedTable
      rw [hcreation, hrecreated, List.foldl_cons, List.foldl_nil,
        tables_of_definesTable _ hdefines, OrderedMap.entries_insert_of_not_mem _ hkey]
  | shell _ halters =>
      obtain ⟨sql, hsql, halters⟩ := halters
      refine entries_foldl_alters hkey (List.ne_nil_of_mem (a := sql) ?_) fun other hother => ?_
      · exact List.mem_filter.2 ⟨hsql, by simpa using halters⟩
      · simpa using (List.mem_filter.1 hother).2

/-- The statements that create a view: a drop and its definition, or none if it has none. -/
def viewCreation (key : Text) (view : View) : List Text :=
  view.definition.elim [] fun sql => ["DROP VIEW IF EXISTS " ++ quoteName key, sql]

/-- The statements that create a recorded view add it to views that do not have it, if it has a
definition. -/
theorem entries_foldl_viewCreation {schema : Schema} (hkey : key ∉ schema.views.keys)
    {view : View} (hview : view.Recorded statements key)
    (htidy : ∀ sql ∈ statements, Tidy sql) :
    ((viewCreation key view).foldl recordStatement schema).views.entries =
      schema.views.entries ++ (view.recreated?.map (key, ·)).toList := by
  cases hdefinition : view.definition with
  | none => simp [viewCreation, View.recreated?, hdefinition]
  | some sql =>
      obtain ⟨hsql, hcreates⟩ := hview.definition sql hdefinition
      have hdrops : DropsView key ("DROP VIEW IF EXISTS " ++ quoteName key) :=
        header_dropView hview.isName
      have hshell : schema.viewOrShell key = .shell key := by
        rw [Schema.viewOrShell, OrderedMap.get?_eq_none_iff.2 hkey]
        rfl
      have hdropped : (recordStatement schema ("DROP VIEW IF EXISTS " ++ quoteName key)).views =
          schema.views.insert key
            ⟨key, none, some ("DROP VIEW IF EXISTS " ++ quoteName key)⟩ := by
        rw [views_of_dropsView _ hdrops, hshell, (plain_dropView hview.isName).trim_eq]
        rfl
      have hentries := OrderedMap.entries_insert_of_not_mem
        (⟨key, none, some ("DROP VIEW IF EXISTS " ++ quoteName key)⟩ : View) hkey
      simp only [viewCreation, View.recreated?, hdefinition, Option.elim_some, List.foldl_cons,
        List.foldl_nil, Option.map_some, Option.toList_some, hview.name_eq]
      rw [views_of_createsView _ hcreates, Schema.viewOrShell, hdropped,
        OrderedMap.get?_insert_self, OrderedMap.entries_insert_of_last hentries,
        (htidy sql hsql).trim_eq]
      rfl

/-! ## All tables, all views -/

/-- Where the statements for each entry add what is left of it under its key, the statements for
all add what is left of all. -/
theorem entries_foldl_flatMap {α β : Type} (map : Schema → OrderedMap β)
    {block : Text × α → List Text} (left : Text × α → Option β) {entries : List (Text × α)}
    (hnodup : (entries.map Prod.fst).Nodup)
    (hblock : ∀ entry ∈ entries, ∀ schema, entry.1 ∉ (map schema).keys →
      (map ((block entry).foldl recordStatement schema)).entries =
        (map schema).entries ++ ((left entry).map (entry.1, ·)).toList)
    {schema : Schema} (hnew : ∀ entry ∈ entries, entry.1 ∉ (map schema).keys) :
    (map ((entries.flatMap block).foldl recordStatement schema)).entries =
      (map schema).entries ++ entries.filterMap fun entry => (left entry).map (entry.1, ·) := by
  induction entries generalizing schema with
  | nil => simp
  | cons first rest ih =>
      rw [List.map_cons, List.nodup_cons] at hnodup
      obtain ⟨hfirst, hrest⟩ := List.forall_mem_cons.1 hblock
      have hentries := hfirst schema (hnew first List.mem_cons_self)
      rw [List.flatMap_cons, List.foldl_append, ih hnodup.2 hrest, hentries, List.append_assoc]
      · cases hleft : left first <;> simp [hleft]
      · intro entry hentry hmem
        -- The keys are distinct, so the first one is not the key of another entry.
        have hne : entry.1 ≠ first.1 := fun heq =>
          hnodup.1 (heq ▸ List.mem_map_of_mem hentry)
        rw [OrderedMap.keys, hentries, List.map_append, List.mem_append] at hmem
        rcases hmem with hmem | hmem
        · exact hnew entry (List.mem_cons_of_mem first hentry) hmem
        · cases hleft : left first <;> simp [hleft, hne] at hmem

/-- The statements that create a schema: those that create its tables, then those that create its
views. -/
def schemaCreation (schema : Schema) : List Text :=
  schema.tables.entries.flatMap (fun entry => creation entry.2) ++
    schema.views.entries.flatMap fun entry => viewCreation entry.1 entry.2

/-- What a delta from nothing calls for are the statements that create its target. -/
theorem intended_nothing (target : Schema) :
    intended ⟨∅, target⟩ = (schemaCreation target).map .statement := by
  have hcommon : Delta.common ⟨∅, target⟩ = [] := List.filterMap_eq_nil_iff.2 fun _ _ => rfl
  have hviews : (Delta.viewChanges ⟨∅, target⟩).flatMap ViewChange.statements =
      target.views.entries.flatMap fun entry => (viewCreation entry.1 entry.2).map .statement := by
    have hcreated : Delta.viewChanges ⟨∅, target⟩ = target.views.entries.filterMap fun entry =>
        entry.2.definition.map (ViewChange.create entry.1) := by
      show SchemaDelta.viewChanges ∅ target.views = _
      simp [SchemaDelta.viewChanges]
    rw [hcreated, flatMap_filterMap]
    refine List.flatMap_congr fun entry _ => ?_
    rw [viewCreation]
    cases entry.2.definition <;> rfl
  have htables : OrderedMap.added (∅ : Schema).tables target.tables = target.tables.entries :=
    OrderedMap.added_empty target.tables
  rw [intended, hcommon, hviews, htables, schemaCreation, List.map_append, List.map_flatMap,
    List.map_flatMap]
  simp

variable {target : Text}

/-- A statement that creates the schema of a dump is one of the dump with a header, or drops a
view. -/
theorem of_mem_schemaCreation {schema : Schema} (h : schema.Recorded statements) {sql : Text}
    (hsql : sql ∈ schemaCreation schema) :
    (sql ∈ statements ∧ ∃ header, Header.ofStatement? sql = some header) ∨
      ∃ name, IsName name ∧ sql = "DROP VIEW IF EXISTS " ++ quoteName name := by
  rcases List.mem_append.1 hsql with hsql | hsql
  · obtain ⟨⟨key, table⟩, hentry, hsql⟩ := List.mem_flatMap.1 hsql
    have htable := h.tables.of_mem hentry
    unfold creation at hsql
    split at hsql
    · next definition hdefinition =>
      obtain rfl := List.mem_singleton.1 hsql
      obtain ⟨hmem, hheader⟩ := htable.definition _ hdefinition
      exact .inl ⟨hmem, _, hheader⟩
    · obtain ⟨hmem, hheader⟩ := htable.alters sql hsql
      exact .inl ⟨hmem, _, hheader⟩
  · obtain ⟨⟨key, view⟩, hentry, hsql⟩ := List.mem_flatMap.1 hsql
    have hview := h.views.of_mem hentry
    unfold viewCreation at hsql
    cases hdefinition : view.definition with
    | none => simp [hdefinition] at hsql
    | some definition =>
        rw [hdefinition] at hsql
        rcases List.mem_pair.1 hsql with rfl | rfl
        · exact .inr ⟨key, hview.isName, rfl⟩
        · obtain ⟨hmem, hheader⟩ := hview.definition _ hdefinition
          exact .inl ⟨hmem, _, hheader⟩

/-- The statements of a script from nothing are those that create the schema of its target, if
nothing in the clean text of the target reads as the opening of a comment. -/
theorem statements_ofTexts_nothing (hdash : ¬occursIn "--" (clean target))
    (hslash : ¬occursIn "/*" (clean target)) :
    Dump.statements (ofTexts "" target) = schemaCreation (schemaOfText target) := by
  have hempty : schemaOfText "" = ∅ := by decide
  have hintended : intended (Delta.ofTexts "" target) =
      (schemaCreation (schemaOfText target)).map .statement := by
    rw [Delta.ofTexts, hempty, intended_nothing]
  have hrecorded := recorded_schemaOfText target
  refine statements_ofTexts hintended (fun sql hsql => ?_) fun sql hsql => ?_
  · rcases of_mem_schemaCreation hrecorded hsql with ⟨hmem, header, hheader⟩ | ⟨name, hname, rfl⟩
    · exact plain_of_mem_statements hdash hslash hmem hheader
    · exact plain_dropView hname
  · rcases of_mem_schemaCreation hrecorded hsql with ⟨hmem, -⟩ | ⟨name, hname, rfl⟩
    · exact whole_of_mem_statements hmem
    · exact whole_dropView hname

/-- The statements that create the tables of a dump speak of no view. -/
theorem viewOf?_of_mem_creation {table : Table} (h : table.Recorded statements key) {sql : Text}
    (hsql : sql ∈ creation table) : viewOf? sql = none := by
  unfold creation at hsql
  split at hsql
  · next definition hdefinition =>
    obtain rfl := List.mem_singleton.1 hsql
    rw [viewOf?, (h.definition _ hdefinition).2]
  · rw [viewOf?, (h.alters sql hsql).2]

/-- The statements that create the views of a dump speak of no table. -/
theorem tableOf?_of_mem_viewCreation {view : View} (h : view.Recorded statements key)
    {sql : Text} (hsql : sql ∈ viewCreation key view) : tableOf? sql = none := by
  unfold viewCreation at hsql
  cases hdefinition : view.definition with
  | none => simp [hdefinition] at hsql
  | some definition =>
      rw [hdefinition] at hsql
      rcases List.mem_pair.1 hsql with rfl | rfl
      · rw [tableOf?, header_dropView h.isName]
      · rw [tableOf?, (h.definition _ hdefinition).2]

/-- The statements that create recorded tables create all of them from nothing. -/
theorem tables_foldl_creation {schema : Schema}
    (hleft : schema.tables.Holds fun key table => table.LeftBy statements key) :
    ((schema.tables.entries.flatMap fun entry => creation entry.2).foldl
      recordStatement ∅).tables.entries =
        schema.tables.entries.map fun entry => (entry.1, entry.2.recreated) := by
  rw [entries_foldl_flatMap Schema.tables (fun entry => some entry.2.recreated)
    schema.tables.nodup_keys]
  · exact congrFun List.filterMap_eq_map schema.tables.entries
  · intro entry hentry other hkey
    exact entries_foldl_creation hkey (hleft entry hentry)
  · intro entry _ hmem
    exact absurd hmem List.not_mem_nil

/-- The statements that create recorded views create all that have a definition where there are
none. -/
theorem views_foldl_viewCreation {schema start : Schema} (hempty : start.views = ∅)
    (hviews : schema.views.Holds (View.Recorded statements))
    (htidy : ∀ sql ∈ statements, Tidy sql) :
    ((schema.views.entries.flatMap fun entry => viewCreation entry.1 entry.2).foldl
      recordStatement start).views.entries =
        schema.views.entries.filterMap fun entry =>
          entry.2.recreated?.map (entry.1, ·) := by
  rw [entries_foldl_flatMap Schema.views (fun entry => entry.2.recreated?)
    schema.views.nodup_keys, hempty]
  · rfl
  · intro entry hentry other hkey
    exact entries_foldl_viewCreation hkey (hviews entry hentry) htidy
  · intro entry _ hmem
    rw [hempty] at hmem
    exact absurd hmem List.not_mem_nil

/-- The statements that create a recorded schema leave its tables and its views as they leave each
of them. -/
theorem schemaOfStatements_schemaCreation {schema : Schema} (h : schema.Recorded statements)
    (hleft : schema.tables.Holds fun key table => table.LeftBy statements key)
    (htidy : ∀ sql ∈ statements, Tidy sql) :
    (schemaOfStatements (schemaCreation schema)).tables.entries =
        schema.tables.entries.map (fun entry => (entry.1, entry.2.recreated)) ∧
      (schemaOfStatements (schemaCreation schema)).views.entries =
        schema.views.entries.filterMap fun entry => entry.2.recreated?.map (entry.1, ·) := by
  have hviewless : ∀ sql ∈ schema.tables.entries.flatMap fun entry => creation entry.2,
      viewOf? sql = none := by
    intro sql hsql
    obtain ⟨entry, hentry, hsql⟩ := List.mem_flatMap.1 hsql
    exact viewOf?_of_mem_creation (h.tables entry hentry) hsql
  have htableless : ∀ sql ∈ schema.views.entries.flatMap fun entry =>
      viewCreation entry.1 entry.2, tableOf? sql = none := by
    intro sql hsql
    obtain ⟨entry, hentry, hsql⟩ := List.mem_flatMap.1 hsql
    exact tableOf?_of_mem_viewCreation (h.views entry hentry) hsql
  rw [schemaCreation, schemaOfStatements_append, schemaOfStatements_eq_foldl,
    tables_foldl_of_none htableless]
  exact ⟨tables_foldl_creation hleft,
    views_foldl_viewCreation (views_foldl_of_none hviewless ∅) h.views htidy⟩

/-- The script from nothing to a dump in whose clean text nothing reads as the opening of a
comment reads back as the dump. It has the same tables in the same order, each with everything
that the dump has of it but the alterations behind a definition, and the views that have a
definition, each with a drop in front. -/
theorem schemaOfText_ofTexts_nothing (hdash : ¬occursIn "--" (clean target))
    (hslash : ¬occursIn "/*" (clean target)) :
    (schemaOfText (ofTexts "" target)).tables.entries =
        (schemaOfText target).tables.entries.map (fun entry => (entry.1, entry.2.recreated)) ∧
      (schemaOfText (ofTexts "" target)).views.entries =
        (schemaOfText target).views.entries.filterMap fun entry =>
          entry.2.recreated?.map (entry.1, ·) := by
  have hrecorded := recorded_schemaOfText target
  have hleft := leftBy_schemaOfText target
  rw [schemaOfText_eq (ofTexts "" target), statements_ofTexts_nothing hdash hslash]
  exact schemaOfStatements_schemaCreation hrecorded hleft.1 fun _ => tidy_of_mem_statements

/-- A dump with a definition that a semicolon cuts apart, a table that is only altered and a view
that is only dropped. -/
def mixed : Text := "CREATE TABLE t (a varchar(9) DEFAULT 'x;y'); ALTER TABLE s ADD KEY k (a); " ++
  "DROP VIEW w; CREATE VIEW v AS SELECT 1;"

/-- The two tables come back, and the view that is defined. -/
theorem keys_ofTexts_mixed :
    ¬occursIn "--" (clean mixed) ∧ ¬occursIn "/*" (clean mixed) ∧
      (schemaOfText (ofTexts "" mixed)).tables.keys = ["t".toList, "s".toList] ∧
      (schemaOfText (ofTexts "" mixed)).views.keys = ["v".toList] := by
  have hdash : ¬occursIn "--" (clean mixed) := by decide +kernel
  have hslash : ¬occursIn "/*" (clean mixed) := by decide +kernel
  obtain ⟨htables, hviews⟩ := schemaOfText_ofTexts_nothing hdash hslash
  refine ⟨hdash, hslash, ?_, ?_⟩
  · rw [OrderedMap.keys, htables]
    decide +kernel
  · rw [OrderedMap.keys, hviews]
    decide +kernel

end Script

end SchemaDelta
