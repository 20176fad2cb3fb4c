import SchemaDelta.Proofs.Dump.LastWrite
import SchemaDelta.Proofs.Dump.Schema

/-!
# Well-formed schemas

Of a well-formed schema every part stands under its own name and is kept in normal form, and no
part says nothing: a table has a definition or is altered, a view is defined or dropped. The
schema of every dump is well formed (`wellFormed_schemaOfText`).
-/

namespace SchemaDelta

open Sql Text

/-- The text is kept in normal form: it is not empty, no blank stands at its ends, and its blanks
are single spaces. -/
structure Text.Normal (t : Text) : Prop extends Tidy t where
  ne_nil : t ≠ []

/-- What has this name stands under this key: the two are the same word, which holds no name
mark and no blank. -/
structure NamedBy (key name : Text) : Prop where
  name_eq : name = key
  isName : IsName key
  not_nameMark : ∀ c ∈ key, c ≠ nameMark
  not_isBlank : ∀ c ∈ key, ¬isBlank c

/-- The column stands under its name, in normal form. -/
structure Column.WellFormed (key : Text) (column : Column) : Prop where
  named : NamedBy key column.name
  definition : Normal column.definition

/-- The index stands under its name, in normal form. -/
structure Index.WellFormed (key : Text) (index : Index) : Prop where
  named : NamedBy key index.name
  definition : Normal index.definition

/-- The constraint stands under its name, in normal form. A primary key has its fixed name and
lists columns in which nothing is left of the way a list is written; no other constraint lists
columns. -/
structure Constraint.WellFormed (key : Text) (constraint : Constraint) : Prop where
  named : NamedBy key constraint.name
  definition : Normal constraint.definition
  primary : constraint.kind = .primaryKey →
    constraint.name = Constraint.primaryName ∧ constraint.columns ≠ [] ∧
      ∀ column ∈ constraint.columns, ∀ c ∈ column, ¬isQuote c ∧ c ≠ ',' ∧ c ≠ ')'
  columns_eq_nil : constraint.kind ≠ .primaryKey → constraint.columns = []

/-- The table stands under its name, and so do its parts. Its statements are in normal form, and
without a definition it has no parts but is altered. -/
structure Table.WellFormed (key : Text) (table : Table) : Prop where
  named : NamedBy key table.name
  columns : table.columns.Holds Column.WellFormed
  indexes : table.indexes.Holds Index.WellFormed
  constraints : table.constraints.Holds Constraint.WellFormed
  definition : ∀ sql ∈ table.definition, Normal sql
  alters : ∀ sql ∈ table.alters, Normal sql
  shell : table.definition = none →
    table.columns = ∅ ∧ table.indexes = ∅ ∧ table.constraints = ∅ ∧ table.alters ≠ []

/-- The view stands under its name. It is defined or dropped, by statements in normal form. -/
structure View.WellFormed (key : Text) (view : View) : Prop where
  named : NamedBy key view.name
  definition : ∀ sql ∈ view.definition, Normal sql
  dropStatement : ∀ sql ∈ view.dropStatement, Normal sql
  stated : view.definition.isSome ∨ view.dropStatement.isSome

/-- Every table and every view is well formed. -/
structure Schema.WellFormed (schema : Schema) : Prop where
  tables : schema.tables.Holds Table.WellFormed
  views : schema.views.Holds View.WellFormed

/-! ## Parts of a table -/

variable {key : Text}

/-- A name stands under itself. -/
theorem Sql.IsName.namedBy {name : Text} (h : IsName name) : NamedBy name name :=
  ⟨rfl, h, fun c hc hmark => h.not_isQuote hc (hmark ▸ by decide), fun _ hc => h.not_isBlank hc⟩

/-- A declared column is well formed. -/
theorem Column.Declared.wellFormed {column : Column} (h : column.Declared) :
    column.WellFormed column.name := by
  have htype : column.typeDefinition ≠ [] := by
    intro hnil
    have hword := h.startsWord
    rw [hnil] at hword
    exact absurd hword (by decide)
  have htidy := h.tidy.append_space (by simp [quoteName])
    (fun _ hc => h.isName.not_isBlank_quoteName hc) htype
  rw [← h.definition_eq] at htidy
  refine ⟨h.isName.namedBy, { htidy with ne_nil := ?_ }⟩
  rw [h.definition_eq]
  simp

/-- A declared index is well formed. -/
theorem Index.Declared.wellFormed {index : Index} (h : index.Declared) :
    index.WellFormed index.name :=
  ⟨h.isName.namedBy, { h.tidy with ne_nil := Dump.ne_nil_of_ofText h.ofText_definition }⟩

/-- A declared constraint is well formed. -/
theorem Constraint.Declared.wellFormed {constraint : Constraint} (h : constraint.Declared) :
    constraint.WellFormed constraint.name := by
  refine ⟨h.isName.namedBy, { h.tidy with ne_nil := Dump.ne_nil_of_ofText h.ofText_definition },
    fun hkind => ?_, h.columns_eq_nil⟩
  obtain ⟨hname, hcolumns⟩ := h.primary hkind
  refine ⟨hname, hcolumns.ne_nil, fun column hcolumn c hc =>
    ⟨hcolumns.not_isQuote column hcolumn c hc, ?_, ?_⟩⟩
  · rintro rfl
    exact hcolumns.comma_not_mem column hcolumn hc
  · rintro rfl
    exact hcolumns.paren_not_mem column hcolumn hc

/-! ## Tables and views -/

/-- A statement with a header is in normal form. -/
theorem normal_of_mem_statements {text sql : Text} {header : Header}
    (hmem : sql ∈ Dump.statements text) (h : Header.ofStatement? sql = some header) :
    Normal sql :=
  { Dump.tidy_of_mem_statements hmem with ne_nil := ne_nil_of_header h }

/-- A table that is recorded from the statements of a dump and left by them is well formed. -/
theorem Table.Recorded.wellFormed {text : Text} {table : Table}
    (h : table.Recorded (Dump.statements text) key)
    (hleft : table.LeftBy (Dump.statements text) key) : table.WellFormed key := by
  refine ⟨h.name_eq ▸ h.isName.namedBy, fun entry hentry => ?_, fun entry hentry => ?_,
    fun entry hentry => ?_, fun sql hsql => ?_, fun sql hsql => ?_, fun hnone => ?_⟩
  · obtain ⟨hname, hcolumn⟩ := h.columns entry hentry
    rw [← hname]
    exact hcolumn.wellFormed
  · obtain ⟨hname, hindex⟩ := h.indexes entry hentry
    rw [← hname]
    exact hindex.wellFormed
  · obtain ⟨hname, hconstraint⟩ := h.constraints entry hentry
    rw [← hname]
    exact hconstraint.wellFormed
  · exact normal_of_mem_statements (h.definition sql hsql).1 (h.definition sql hsql).2
  · exact normal_of_mem_statements (h.alters sql hsql).1 (h.alters sql hsql).2
  · cases hleft with
    | defined _ _ _ => simp at hnone
    | shell _ halters =>
        obtain ⟨sql, hsql, halters⟩ := halters
        refine ⟨rfl, rfl, rfl, List.ne_nil_of_mem (a := sql) ?_⟩
        exact List.mem_filter.2 ⟨hsql, by simpa using halters⟩

/-- A view that is recorded from the statements of a dump and left by them is well formed. -/
theorem View.Recorded.wellFormed {text : Text} {view : View}
    (h : view.Recorded (Dump.statements text) key)
    (hleft : view.LeftBy (Dump.statements text) key) : view.WellFormed key := by
  refine ⟨h.name_eq ▸ h.isName.namedBy, fun sql hsql => ?_, fun sql hsql => ?_, ?_⟩
  · exact normal_of_mem_statements (h.definition sql hsql).1 (h.definition sql hsql).2
  · exact normal_of_mem_statements (h.dropStatement sql hsql).1 (h.dropStatement sql hsql).2
  · obtain ⟨hsql, hspeaks⟩ := hleft
    refine hspeaks.imp (fun hcreates => ?_) fun hdrops => ?_
    · simpa using ⟨_, hsql, hcreates⟩
    · simpa using ⟨_, hsql, hdrops⟩

/-- The schema of every dump is well formed. -/
theorem wellFormed_schemaOfText (text : Text) : (Dump.schemaOfText text).WellFormed := by
  have hrecorded := Dump.recorded_schemaOfText text
  have hleft := Dump.leftBy_schemaOfText text
  refine ⟨fun entry hentry => ?_, fun entry hentry => ?_⟩
  · exact (hrecorded.tables entry hentry).wellFormed (hleft.1 entry hentry)
  · exact (hrecorded.views entry hentry).wellFormed (hleft.2 entry hentry)

end SchemaDelta
