import Mathlib.Data.List.Induction
import SchemaDelta.Dump.Report
import SchemaDelta.Proofs.Dump.Statements
import SchemaDelta.Proofs.OrderedMap.Entries

/-!
# What is left of the statements of a dump

A schema is built by statements one after another, and later ones may undo what earlier ones
did. Of a table the last definition counts with the alterations behind it, of a view the last
definition and the last drop. The main statement is `left_of_statements`: it says what is under
every key, and in which order the keys stand, without going through the statements in between.
-/

namespace SchemaDelta

open Sql

namespace Dump

/-- The statement creates the table and has a body to read it from. -/
def DefinesTable (key statement : Text) : Prop :=
  Header.ofStatement? statement = some (.createTable key) ∧ (tableBody statement).isSome

/-- The statement alters the table. -/
def AltersTable (key statement : Text) : Prop :=
  Header.ofStatement? statement = some (.alterTable key)

/-- The statement creates the view. -/
def CreatesView (key statement : Text) : Prop :=
  Header.ofStatement? statement = some (.createView key)

/-- The statement drops the view and gives its name. -/
def DropsView (key statement : Text) : Prop :=
  Header.ofStatement? statement = some (.dropView (some key))

instance (key statement : Text) : Decidable (DefinesTable key statement) :=
  inferInstanceAs (Decidable (_ ∧ _))

instance (key statement : Text) : Decidable (AltersTable key statement) :=
  inferInstanceAs (Decidable (_ = _))

instance (key statement : Text) : Decidable (CreatesView key statement) :=
  inferInstanceAs (Decidable (_ = _))

instance (key statement : Text) : Decidable (DropsView key statement) :=
  inferInstanceAs (Decidable (_ = _))

/-- The table that a statement defines or alters. -/
def tableOf? (statement : Text) : Option Text :=
  match Header.ofStatement? statement with
  | some (.createTable name) => if (tableBody statement).isSome then some name else none
  | some (.alterTable name) => some name
  | _ => none

/-- The view that a statement creates or drops. -/
def viewOf? (statement : Text) : Option Text :=
  match Header.ofStatement? statement with
  | some (.createView name) => some name
  | some (.dropView name) => name
  | _ => none

variable {key statement : Text}

theorem tableOf?_eq_some_iff :
    tableOf? statement = some key ↔ DefinesTable key statement ∨ AltersTable key statement := by
  unfold tableOf? DefinesTable AltersTable
  cases Header.ofStatement? statement with
  | none => simp
  | some header =>
      cases header with
      | createTable name => by_cases hbody : (tableBody statement).isSome <;> simp [hbody]
      | createView | dropView | alterTable => simp

theorem viewOf?_eq_some_iff :
    viewOf? statement = some key ↔ CreatesView key statement ∨ DropsView key statement := by
  unfold viewOf? CreatesView DropsView
  cases Header.ofStatement? statement with
  | none => simp
  | some header => cases header <;> simp

/-- The table that a statement alone defines. -/
def definedTable (key statement : Text) : Table :=
  tableOfClauses key statement (clauses ((tableBody statement).getD []))

/-! ## One statement -/

/-- The schema with what a statement has to record, if it can be read. -/
def recordStatement (schema : Schema) (statement : Text) : Schema :=
  match Entry.ofStatement statement with
  | .ok entry => Entry.record schema entry
  | .error _ => schema

/-- A schema is built by its statements one after another. -/
theorem schemaOfStatements_concat (statements : List Text) (statement : Text) :
    schemaOfStatements (statements ++ [statement]) =
      recordStatement (schemaOfStatements statements) statement := by
  rw [schemaOfStatements, List.filterMap_append, List.foldl_append, ← schemaOfStatements,
    recordStatement]
  cases hread : Entry.ofStatement statement with
  | error reason => simp [hread, Except.toOption]
  | ok entry => simp [hread, Except.toOption]

/-- Behind other statements a statement is recorded in the schema that these have built. -/
theorem schemaOfStatements_append (before behind : List Text) :
    schemaOfStatements (before ++ behind) =
      behind.foldl recordStatement (schemaOfStatements before) := by
  induction behind using List.reverseRecOn with
  | nil => simp
  | append_singleton rest statement ih =>
      rw [← List.append_assoc, schemaOfStatements_concat, ih, List.foldl_concat]

theorem schemaOfStatements_eq_foldl (statements : List Text) :
    schemaOfStatements statements = statements.foldl recordStatement ∅ :=
  schemaOfStatements_append [] statements

/-- The clauses of a table change neither its name nor its statements. -/
theorem foldl_addTo_frame (declared : List Clause) (table : Table) :
    (declared.foldl Clause.addTo table).name = table.name ∧
      (declared.foldl Clause.addTo table).definition = table.definition ∧
      (declared.foldl Clause.addTo table).alters = table.alters := by
  induction declared generalizing table with
  | nil => exact ⟨rfl, rfl, rfl⟩
  | cons first rest ih =>
      obtain ⟨hname, hdefinition, halters⟩ := ih (Clause.addTo table first)
      rw [List.foldl_cons, hname, hdefinition, halters]
      cases first <;> exact ⟨rfl, rfl, rfl⟩

@[simp] theorem name_definedTable : (definedTable key statement).name = key :=
  (foldl_addTo_frame _ _).1

@[simp] theorem definition_definedTable :
    (definedTable key statement).definition = some statement :=
  (foldl_addTo_frame _ _).2.1

@[simp] theorem alters_definedTable : (definedTable key statement).alters = [] :=
  (foldl_addTo_frame _ _).2.2

/-- What a statement does to the tables: it may define one, or add itself to one, or it leaves
them as they are. -/
theorem tables_recordStatement (schema : Schema) (statement : Text) :
    (∃ name, DefinesTable name statement ∧ (recordStatement schema statement).tables =
      schema.tables.insert name (definedTable name statement)) ∨
    (∃ name, AltersTable name statement ∧ (recordStatement schema statement).tables =
      schema.tables.insert name ((schema.tableOrShell name).addAlter statement)) ∨
    tableOf? statement = none ∧ (recordStatement schema statement).tables = schema.tables := by
  unfold recordStatement Entry.ofStatement tableOf? DefinesTable AltersTable
  cases hheader : Header.ofStatement? statement with
  | none => exact .inr (.inr ⟨rfl, rfl⟩)
  | some header =>
      cases header with
      | createView name => exact .inr (.inr ⟨rfl, rfl⟩)
      | dropView name => cases name <;> exact .inr (.inr ⟨rfl, rfl⟩)
      | alterTable name => exact .inr (.inl ⟨name, rfl, rfl⟩)
      | createTable name =>
          cases hbody : tableBody statement with
          | none => exact .inr (.inr ⟨rfl, rfl⟩)
          | some body =>
              refine .inl ⟨name, ⟨rfl, rfl⟩, ?_⟩
              have htable : definedTable name statement =
                  tableOfClauses name statement (clauses body) := by
                rw [definedTable, hbody]
                rfl
              have hname : (tableOfClauses name statement (clauses body)).name = name :=
                htable ▸ name_definedTable
              simp only [Entry.record, Schema.addTable, hname, htable]

/-- What a statement does to the views: it may give one a definition or a drop, or it leaves
them as they are. -/
theorem views_recordStatement (schema : Schema) (statement : Text) :
    (∃ name, CreatesView name statement ∧ (recordStatement schema statement).views =
      schema.views.insert name
        { schema.viewOrShell name with definition := some (Text.trim statement) }) ∨
    (∃ name, DropsView name statement ∧ (recordStatement schema statement).views =
      schema.views.insert name
        { schema.viewOrShell name with dropStatement := some (Text.trim statement) }) ∨
    viewOf? statement = none ∧ (recordStatement schema statement).views = schema.views := by
  unfold recordStatement Entry.ofStatement viewOf? CreatesView DropsView
  cases hheader : Header.ofStatement? statement with
  | none => exact .inr (.inr ⟨rfl, rfl⟩)
  | some header =>
      cases header with
      | createView name => exact .inl ⟨name, rfl, rfl⟩
      | dropView name =>
          cases name with
          | none => exact .inr (.inr ⟨rfl, rfl⟩)
          | some name => exact .inr (.inl ⟨name, rfl, rfl⟩)
      | alterTable name => exact .inr (.inr ⟨rfl, rfl⟩)
      | createTable name => cases tableBody statement <;> exact .inr (.inr ⟨rfl, rfl⟩)

/-- A statement that defines the table leaves nothing of it but its own table. -/
theorem tables_of_definesTable (schema : Schema) (h : DefinesTable key statement) :
    (recordStatement schema statement).tables =
      schema.tables.insert key (definedTable key statement) := by
  rcases tables_recordStatement schema statement with
    ⟨name, hdefines, heq⟩ | ⟨name, halters, -⟩ | ⟨hnone, -⟩
  · obtain rfl : name = key :=
      Header.createTable.inj (Option.some.inj (hdefines.1.symm.trans h.1))
    exact heq
  · exact absurd (h.1.symm.trans halters) (by simp)
  · rw [tableOf?_eq_some_iff.2 (.inl h)] at hnone
    simp at hnone

/-- A statement that alters the table adds itself to it. -/
theorem tables_of_altersTable (schema : Schema) (h : AltersTable key statement) :
    (recordStatement schema statement).tables =
      schema.tables.insert key ((schema.tableOrShell key).addAlter statement) := by
  rcases tables_recordStatement schema statement with
    ⟨name, hdefines, -⟩ | ⟨name, halters, heq⟩ | ⟨hnone, -⟩
  · exact absurd (h.symm.trans hdefines.1) (by simp)
  · obtain rfl : name = key := Header.alterTable.inj (Option.some.inj (halters.symm.trans h))
    exact heq
  · rw [tableOf?_eq_some_iff.2 (.inr h)] at hnone
    simp at hnone

/-- A statement that speaks of no table leaves the tables as they are. -/
theorem tables_of_none (schema : Schema) (h : tableOf? statement = none) :
    (recordStatement schema statement).tables = schema.tables := by
  rcases tables_recordStatement schema statement with
    ⟨name, hdefines, -⟩ | ⟨name, halters, -⟩ | ⟨-, heq⟩
  · rw [tableOf?_eq_some_iff.2 (.inl hdefines)] at h
    simp at h
  · rw [tableOf?_eq_some_iff.2 (.inr halters)] at h
    simp at h
  · exact heq

/-- A statement that speaks of another table or of none leaves the table as it is. -/
theorem get?_tables_of_ne (schema : Schema) (h : tableOf? statement ≠ some key) :
    (recordStatement schema statement).tables.get? key = schema.tables.get? key := by
  rcases tables_recordStatement schema statement with
    ⟨name, hdefines, heq⟩ | ⟨name, halters, heq⟩ | ⟨-, heq⟩
  · rw [heq]
    refine OrderedMap.get?_insert_of_ne _ ?_
    rintro rfl
    exact h (tableOf?_eq_some_iff.2 (.inl hdefines))
  · rw [heq]
    refine OrderedMap.get?_insert_of_ne _ ?_
    rintro rfl
    exact h (tableOf?_eq_some_iff.2 (.inr halters))
  · rw [heq]

/-- A statement that creates the view becomes its definition. -/
theorem views_of_createsView (schema : Schema) (h : CreatesView key statement) :
    (recordStatement schema statement).views = schema.views.insert key
      { schema.viewOrShell key with definition := some (Text.trim statement) } := by
  rcases views_recordStatement schema statement with
    ⟨name, hcreates, heq⟩ | ⟨name, hdrops, -⟩ | ⟨hnone, -⟩
  · obtain rfl : name = key := Header.createView.inj (Option.some.inj (hcreates.symm.trans h))
    exact heq
  · exact absurd (h.symm.trans hdrops) (by simp)
  · rw [viewOf?_eq_some_iff.2 (.inl h)] at hnone
    simp at hnone

/-- A statement that drops the view becomes its drop. -/
theorem views_of_dropsView (schema : Schema) (h : DropsView key statement) :
    (recordStatement schema statement).views = schema.views.insert key
      { schema.viewOrShell key with dropStatement := some (Text.trim statement) } := by
  rcases views_recordStatement schema statement with
    ⟨name, hcreates, -⟩ | ⟨name, hdrops, heq⟩ | ⟨hnone, -⟩
  · exact absurd (h.symm.trans hcreates) (by simp)
  · obtain rfl : name = key :=
      Option.some.inj (Header.dropView.inj (Option.some.inj (hdrops.symm.trans h)))
    exact heq
  · rw [viewOf?_eq_some_iff.2 (.inr h)] at hnone
    simp at hnone

/-- A statement that speaks of no view leaves the views as they are. -/
theorem views_of_none (schema : Schema) (h : viewOf? statement = none) :
    (recordStatement schema statement).views = schema.views := by
  rcases views_recordStatement schema statement with
    ⟨name, hcreates, -⟩ | ⟨name, hdrops, -⟩ | ⟨-, heq⟩
  · rw [viewOf?_eq_some_iff.2 (.inl hcreates)] at h
    simp at h
  · rw [viewOf?_eq_some_iff.2 (.inr hdrops)] at h
    simp at h
  · exact heq

/-- A statement that speaks of another view or of none leaves the view as it is. -/
theorem get?_views_of_ne (schema : Schema) (h : viewOf? statement ≠ some key) :
    (recordStatement schema statement).views.get? key = schema.views.get? key := by
  rcases views_recordStatement schema statement with
    ⟨name, hcreates, heq⟩ | ⟨name, hdrops, heq⟩ | ⟨-, heq⟩
  · rw [heq]
    refine OrderedMap.get?_insert_of_ne _ ?_
    rintro rfl
    exact h (viewOf?_eq_some_iff.2 (.inl hcreates))
  · rw [heq]
    refine OrderedMap.get?_insert_of_ne _ ?_
    rintro rfl
    exact h (viewOf?_eq_some_iff.2 (.inr hdrops))
  · rw [heq]

/-! ## All statements -/

/-- Of a list with one more member the first occurrences are those of the list, and the member if
it is new. -/
theorem eraseDups_concat (l : List Text) (a : Text) :
    (l ++ [a]).eraseDups =
      if a ∈ l.eraseDups then l.eraseDups else l.eraseDups ++ [a] := by
  rw [List.eraseDups_append]
  by_cases h : a ∈ l <;> simp [List.removeAll, List.eraseDups_cons, h]

/-- Where each statement may put one key into a map and does nothing else to its keys, the keys
are those of the statements, in the order in which they first come. -/
theorem keys_eq_eraseDups {α : Type} (map : List Text → OrderedMap α)
    {keyOf? : Text → Option Text} (hnil : (map []).keys = [])
    (hstep : ∀ statements statement,
      (∃ name value, keyOf? statement = some name ∧
        map (statements ++ [statement]) = (map statements).insert name value) ∨
      keyOf? statement = none ∧ map (statements ++ [statement]) = map statements)
    (statements : List Text) :
    (map statements).keys = (statements.filterMap keyOf?).eraseDups := by
  induction statements using List.reverseRecOn with
  | nil => exact hnil
  | append_singleton rest statement ih =>
      rcases hstep rest statement with ⟨name, value, hkey, heq⟩ | ⟨hkey, heq⟩
      · have hkeys : (rest ++ [statement]).filterMap keyOf? =
            rest.filterMap keyOf? ++ [name] := by
          simp [hkey]
        rw [heq, hkeys, eraseDups_concat, ← ih]
        split
        · next hmem => exact OrderedMap.keys_insert_of_mem value hmem
        · next hmem => exact OrderedMap.keys_insert_of_not_mem value hmem
      · rw [heq, ih, List.filterMap_append]
        simp [hkey]

/-- The tables stand in the order in which statements first define or alter them. -/
theorem keys_tables_schemaOfStatements (statements : List Text) :
    (schemaOfStatements statements).tables.keys = (statements.filterMap tableOf?).eraseDups := by
  refine keys_eq_eraseDups (fun l => (schemaOfStatements l).tables) rfl ?_ statements
  intro before statement
  rw [schemaOfStatements_concat]
  rcases tables_recordStatement (schemaOfStatements before) statement with
    ⟨name, hdefines, heq⟩ | ⟨name, halters, heq⟩ | hsame
  · exact .inl ⟨name, _, tableOf?_eq_some_iff.2 (.inl hdefines), heq⟩
  · exact .inl ⟨name, _, tableOf?_eq_some_iff.2 (.inr halters), heq⟩
  · exact .inr hsame

/-- The views stand in the order in which statements first create or drop them. -/
theorem keys_views_schemaOfStatements (statements : List Text) :
    (schemaOfStatements statements).views.keys = (statements.filterMap viewOf?).eraseDups := by
  refine keys_eq_eraseDups (fun l => (schemaOfStatements l).views) rfl ?_ statements
  intro before statement
  rw [schemaOfStatements_concat]
  rcases views_recordStatement (schemaOfStatements before) statement with
    ⟨name, hcreates, heq⟩ | ⟨name, hdrops, heq⟩ | hsame
  · exact .inl ⟨name, _, viewOf?_eq_some_iff.2 (.inl hcreates), heq⟩
  · exact .inl ⟨name, _, viewOf?_eq_some_iff.2 (.inr hdrops), heq⟩
  · exact .inr hsame

/-- Statements that do not define a table add to it what alters it. -/
theorem tableOrShell_append (before : List Text) {behind : List Text}
    (h : ∀ later ∈ behind, ¬DefinesTable key later) :
    (schemaOfStatements (before ++ behind)).tableOrShell key =
      { (schemaOfStatements before).tableOrShell key with
        alters := ((schemaOfStatements before).tableOrShell key).alters ++
          behind.filter (AltersTable key ·) } := by
  induction behind using List.reverseRecOn with
  | nil => simp
  | append_singleton rest statement ih =>
      have hrest := ih fun later hlater => h later (List.mem_append_left _ hlater)
      have hdefines := h statement (List.mem_append_right _ (List.mem_singleton_self _))
      rw [← List.append_assoc, schemaOfStatements_concat, Schema.tableOrShell,
        List.filter_append]
      by_cases halters : AltersTable key statement
      · rw [tables_of_altersTable _ halters, OrderedMap.get?_insert_self, Option.getD_some, hrest]
        simp [Table.addAlter, halters]
      · have hother : tableOf? statement ≠ some key := fun hspeaks =>
          (tableOf?_eq_some_iff.1 hspeaks).elim hdefines halters
        rw [get?_tables_of_ne _ hother, ← Schema.tableOrShell, hrest]
        simp [halters]

/-- After its last definition a table is what the definition gives, with the alterations that
come behind. -/
theorem tableOrShell_of_defined {before behind : List Text} {sql : Text}
    (hdefines : DefinesTable key sql) (hlast : ∀ later ∈ behind, ¬DefinesTable key later) :
    (schemaOfStatements (before ++ sql :: behind)).tableOrShell key =
      { definedTable key sql with alters := behind.filter (AltersTable key ·) } := by
  rw [List.append_cons, tableOrShell_append _ hlast, schemaOfStatements_concat,
    Schema.tableOrShell, tables_of_definesTable _ hdefines, OrderedMap.get?_insert_self]
  simp

/-- Without a definition a table is a shell with all its alterations. -/
theorem tableOrShell_of_undefined {statements : List Text}
    (h : ∀ sql ∈ statements, ¬DefinesTable key sql) :
    (schemaOfStatements statements).tableOrShell key =
      { Table.shell key with alters := statements.filter (AltersTable key ·) } :=
  tableOrShell_append [] h

/-- A view has its last definition and its last drop. -/
theorem viewOrShell_schemaOfStatements {statements : List Text}
    (htidy : ∀ sql ∈ statements, Text.Tidy sql) :
    (schemaOfStatements statements).viewOrShell key =
      ⟨key, (statements.filter (CreatesView key ·)).getLast?,
        (statements.filter (DropsView key ·)).getLast?⟩ := by
  induction statements using List.reverseRecOn with
  | nil => rfl
  | append_singleton rest statement ih =>
      have hrest := ih fun sql hsql => htidy sql (List.mem_append_left _ hsql)
      have htrim : Text.trim statement = statement :=
        (htidy statement (List.mem_append_right _ (List.mem_singleton_self _))).trim_eq
      rw [schemaOfStatements_concat, Schema.viewOrShell, List.filter_append, List.filter_append,
        List.getLast?_append, List.getLast?_append]
      by_cases hcreates : CreatesView key statement
      · have hdrops : ¬DropsView key statement := fun hdrops =>
          absurd (hcreates.symm.trans hdrops) (by simp)
        rw [views_of_createsView _ hcreates, OrderedMap.get?_insert_self, Option.getD_some, hrest,
          htrim]
        simp [hcreates, hdrops]
      · by_cases hdrops : DropsView key statement
        · rw [views_of_dropsView _ hdrops, OrderedMap.get?_insert_self, Option.getD_some, hrest,
            htrim]
          simp [hcreates, hdrops]
        · have hother : viewOf? statement ≠ some key := fun hspeaks =>
            (viewOf?_eq_some_iff.1 hspeaks).elim hcreates hdrops
          rw [get?_views_of_ne _ hother, ← Schema.viewOrShell, hrest]
          simp [hcreates, hdrops]

/-! ## What is under a key -/

/-- The statements of a list either all fail a test, or there is a last one that passes. -/
theorem forall_not_or_exists_last {α : Type} (p : α → Prop) (l : List α) :
    (∀ a ∈ l, ¬p a) ∨
      ∃ before a behind, l = before ++ a :: behind ∧ p a ∧ ∀ b ∈ behind, ¬p b := by
  induction l with
  | nil => exact .inl (by simp)
  | cons first rest ih =>
      rcases ih with hnone | ⟨before, a, behind, rfl, ha, hbehind⟩
      · by_cases hfirst : p first
        · exact .inr ⟨[], first, rest, rfl, hfirst, hnone⟩
        · exact .inl (List.forall_mem_cons.2 ⟨hfirst, hnone⟩)
      · exact .inr ⟨first :: before, a, behind, rfl, ha, hbehind⟩

end Dump

open Dump

/-- What the statements leave of the table under a key: the last of its definitions with the
alterations behind it, or, if it has none, a shell with all its alterations. -/
inductive Table.LeftBy (statements : List Text) (key : Text) : Table → Prop
  | defined {before behind : List Text} {sql : Text} :
      statements = before ++ sql :: behind → DefinesTable key sql →
        (∀ later ∈ behind, ¬DefinesTable key later) →
          LeftBy statements key
            { definedTable key sql with alters := behind.filter (AltersTable key ·) }
  | shell :
      (∀ sql ∈ statements, ¬DefinesTable key sql) → (∃ sql ∈ statements, AltersTable key sql) →
        LeftBy statements key
          { Table.shell key with alters := statements.filter (AltersTable key ·) }

/-- What the statements leave of the view under a key: its last definition and its last drop,
one of which there is. -/
inductive View.LeftBy (statements : List Text) (key : Text) : View → Prop
  | mentioned {sql : Text} : sql ∈ statements → CreatesView key sql ∨ DropsView key sql →
      LeftBy statements key ⟨key, (statements.filter (CreatesView key ·)).getLast?,
        (statements.filter (DropsView key ·)).getLast?⟩

namespace Dump

variable {statements : List Text} {key : Text}

/-- A table is under a key exactly when a statement defines or alters it. -/
theorem mem_keys_tables_iff : key ∈ (schemaOfStatements statements).tables.keys ↔
    ∃ sql ∈ statements, DefinesTable key sql ∨ AltersTable key sql := by
  simp [keys_tables_schemaOfStatements, tableOf?_eq_some_iff]

/-- A view is under a key exactly when a statement creates or drops it. -/
theorem mem_keys_views_iff : key ∈ (schemaOfStatements statements).views.keys ↔
    ∃ sql ∈ statements, CreatesView key sql ∨ DropsView key sql := by
  simp [keys_views_schemaOfStatements, viewOf?_eq_some_iff]

/-- Under every key stands the table that the statements leave. -/
theorem get?_tables_iff {table : Table} :
    (schemaOfStatements statements).tables.get? key = some table ↔
      table.LeftBy statements key := by
  rw [OrderedMap.get?_eq_some_iff_getD (.shell key), ← Schema.tableOrShell, mem_keys_tables_iff]
  constructor
  · rintro ⟨⟨sql, hsql, hspeaks⟩, rfl⟩
    rcases forall_not_or_exists_last (DefinesTable key) statements with
      hnone | ⟨before, last, behind, rfl, hdefines, hbehind⟩
    · rw [tableOrShell_of_undefined hnone]
      exact .shell hnone ⟨sql, hsql, hspeaks.resolve_left (hnone sql hsql)⟩
    · rw [tableOrShell_of_defined hdefines hbehind]
      exact .defined rfl hdefines hbehind
  · intro h
    cases h with
    | defined heq hdefines hbehind =>
        subst heq
        exact ⟨⟨_, by simp, .inl hdefines⟩, tableOrShell_of_defined hdefines hbehind⟩
    | shell hnone halters =>
        obtain ⟨sql, hsql, halters⟩ := halters
        exact ⟨⟨sql, hsql, .inr halters⟩, tableOrShell_of_undefined hnone⟩

/-- Under every key stands the view that the statements leave. -/
theorem get?_views_iff (htidy : ∀ sql ∈ statements, Text.Tidy sql) {view : View} :
    (schemaOfStatements statements).views.get? key = some view ↔
      view.LeftBy statements key := by
  rw [OrderedMap.get?_eq_some_iff_getD (.shell key), ← Schema.viewOrShell, mem_keys_views_iff,
    viewOrShell_schemaOfStatements htidy]
  constructor
  · rintro ⟨⟨sql, hsql, hspeaks⟩, rfl⟩
    exact .mentioned hsql hspeaks
  · rintro ⟨hsql, hspeaks⟩
    exact ⟨⟨_, hsql, hspeaks⟩, rfl⟩

theorem schemaOfText_eq (text : Text) :
    schemaOfText text = schemaOfStatements (Dump.statements text) := by
  rw [schemaOfText, Report.ofText, Report.ofStatements]

/-- Every table and every view of the schema of a dump is what the statements of the dump leave
of it. -/
theorem leftBy_schemaOfText (text : Text) :
    ((schemaOfText text).tables.Holds fun key table => table.LeftBy (Dump.statements text) key) ∧
      (schemaOfText text).views.Holds fun key view =>
        view.LeftBy (Dump.statements text) key := by
  rw [schemaOfText_eq]
  refine ⟨fun entry hentry => get?_tables_iff.1 (OrderedMap.get?_eq_some_iff.2 hentry),
    fun entry hentry => ?_⟩
  exact (get?_views_iff fun _ => tidy_of_mem_statements).1
    (OrderedMap.get?_eq_some_iff.2 hentry)

/-- Of the members that pass a test the last is the one behind which none passes. -/
theorem getLast?_filter_eq_some_iff {p : Text → Prop} [DecidablePred p] {l : List Text}
    {last : Text} : (l.filter (p ·)).getLast? = some last ↔
      ∃ before behind, l = before ++ last :: behind ∧ p last ∧ ∀ later ∈ behind, ¬p later := by
  constructor
  · intro h
    rcases forall_not_or_exists_last p l with hnone | ⟨before, a, behind, rfl, ha, hbehind⟩
    · have hnil : l.filter (p ·) = [] := by simpa [List.filter_eq_nil_iff] using hnone
      simp [hnil] at h
    · have hnil : behind.filter (p ·) = [] := by simpa [List.filter_eq_nil_iff] using hbehind
      obtain rfl : a = last := by simpa [List.filter_append, ha, hnil] using h
      exact ⟨before, behind, rfl, ha, hbehind⟩
  · rintro ⟨before, behind, rfl, hlast, hbehind⟩
    have hnil : behind.filter (p ·) = [] := by simpa [List.filter_eq_nil_iff] using hbehind
    simp [List.filter_append, hlast, hnil]

/-- The statement with this header is in force: no later one takes its place. -/
inductive InForce (statements : List Text) : Header → Text → Prop
  | definesTable {before behind : List Text} {key sql : Text} :
      statements = before ++ sql :: behind → DefinesTable key sql →
        (∀ later ∈ behind, ¬DefinesTable key later) → InForce statements (.createTable key) sql
  | altersTable {before behind : List Text} {key sql : Text} :
      statements = before ++ sql :: behind → AltersTable key sql →
        (∀ later ∈ behind, ¬DefinesTable key later) → InForce statements (.alterTable key) sql
  | createsView {before behind : List Text} {key sql : Text} :
      statements = before ++ sql :: behind → CreatesView key sql →
        (∀ later ∈ behind, ¬CreatesView key later) → InForce statements (.createView key) sql

/-- The definition that a table keeps is the one in force. -/
theorem definition_iff_inForce {sql : Text} :
    (∃ table, (schemaOfStatements statements).tables.get? key = some table ∧
      table.definition = some sql) ↔ InForce statements (.createTable key) sql := by
  simp only [get?_tables_iff]
  constructor
  · rintro ⟨table, hleft, hdefinition⟩
    cases hleft with
    | defined heq hdefines hbehind =>
        obtain rfl := Option.some.inj (definition_definedTable.symm.trans hdefinition)
        exact .definesTable heq hdefines hbehind
    | shell => simp [Table.shell] at hdefinition
  · intro h
    cases h with
    | definesTable heq hdefines hbehind =>
        exact ⟨_, .defined heq hdefines hbehind, definition_definedTable⟩

/-- The alterations that a table keeps are those in force. -/
theorem mem_alters_iff_inForce {sql : Text} :
    (∃ table, (schemaOfStatements statements).tables.get? key = some table ∧
      sql ∈ table.alters) ↔ InForce statements (.alterTable key) sql := by
  constructor
  · rintro ⟨table, htable, hmem⟩
    cases get?_tables_iff.1 htable with
    | @defined before behind other heq _ hbehind =>
        obtain ⟨hsql, halters⟩ := List.mem_filter.1 hmem
        obtain ⟨between, rest, rfl⟩ := List.append_of_mem hsql
        have heq' : statements = (before ++ other :: between) ++ sql :: rest := by
          rw [heq, List.append_assoc, List.cons_append]
        exact .altersTable heq' (by simpa using halters) fun later hlater =>
          hbehind later (by simp [hlater])
    | shell hnone =>
        obtain ⟨hsql, halters⟩ := List.mem_filter.1 hmem
        obtain ⟨before, behind, rfl⟩ := List.append_of_mem hsql
        exact .altersTable rfl (by simpa using halters) fun later hlater =>
          hnone later (by simp [hlater])
  · intro h
    cases h with
    | @altersTable before behind _ _ heq halters hbehind =>
        subst heq
        have hkey : key ∈ (schemaOfStatements (before ++ sql :: behind)).tables.keys :=
          mem_keys_tables_iff.2 ⟨sql, by simp, .inr halters⟩
        -- What stands behind the statement only adds to what it leaves.
        have htable := tableOrShell_append (before ++ [sql]) hbehind
        rw [List.append_assoc, List.singleton_append] at htable
        refine ⟨_, (OrderedMap.get?_eq_some_iff_getD (Table.shell key)).2 ⟨hkey, htable⟩, ?_⟩
        rw [schemaOfStatements_concat, Schema.tableOrShell,
          tables_of_altersTable _ halters, OrderedMap.get?_insert_self]
        simp [Table.addAlter]

/-- The definition that a view keeps is the one in force. -/
theorem viewDefinition_iff_inForce (htidy : ∀ sql ∈ statements, Text.Tidy sql) {sql : Text} :
    (∃ view, (schemaOfStatements statements).views.get? key = some view ∧
      view.definition = some sql) ↔ InForce statements (.createView key) sql := by
  simp only [get?_views_iff htidy]
  constructor
  · rintro ⟨view, hleft, hdefinition⟩
    cases hleft with
    | mentioned =>
        obtain ⟨before, behind, heq, hcreates, hbehind⟩ :=
          getLast?_filter_eq_some_iff.1 hdefinition
        exact .createsView heq hcreates hbehind
  · intro h
    cases h with
    | @createsView before behind _ _ heq hcreates hbehind =>
        exact ⟨_, .mentioned (heq ▸ List.mem_append_right _ List.mem_cons_self) (.inl hcreates),
          getLast?_filter_eq_some_iff.2 ⟨before, behind, heq, hcreates, hbehind⟩⟩

/-- The schema of a dump is what its statements leave. A table is there exactly when a statement
defines or alters it and a view when one creates or drops it; tables and views stand in the
order in which statements first speak of them, and under every key stands the last write. -/
theorem left_of_statements (text : Text) :
    (∀ key, key ∈ (schemaOfText text).tables.keys ↔
      ∃ sql ∈ Dump.statements text, DefinesTable key sql ∨ AltersTable key sql) ∧
    (schemaOfText text).tables.keys = ((Dump.statements text).filterMap tableOf?).eraseDups ∧
    (∀ key table, (schemaOfText text).tables.get? key = some table ↔
      table.LeftBy (Dump.statements text) key) ∧
    (∀ key, key ∈ (schemaOfText text).views.keys ↔
      ∃ sql ∈ Dump.statements text, CreatesView key sql ∨ DropsView key sql) ∧
    (schemaOfText text).views.keys = ((Dump.statements text).filterMap viewOf?).eraseDups ∧
    ∀ key view, (schemaOfText text).views.get? key = some view ↔
      view.LeftBy (Dump.statements text) key := by
  rw [schemaOfText_eq]
  exact ⟨fun _ => mem_keys_tables_iff, keys_tables_schemaOfStatements _,
    fun _ _ => get?_tables_iff, fun _ => mem_keys_views_iff, keys_views_schemaOfStatements _,
    fun _ _ => get?_views_iff fun _ => tidy_of_mem_statements⟩

end Dump

end SchemaDelta
