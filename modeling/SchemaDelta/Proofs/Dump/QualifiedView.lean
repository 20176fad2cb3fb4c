import SchemaDelta.Proofs.Change.Delta
import SchemaDelta.Proofs.Dump.HeaderName
import SchemaDelta.Proofs.Dump.LastWrite

/-!
# Views with a qualifier in front of their name

A table is booked under its own name, with a qualifier in front of it or without one. The headers
of views know no qualifier: what stands in front of the dot is read as the name of the view. So
views of one database that are written in this way share one key (`keyed_by_qualifier`), and a
script drops another name than the one that it creates.
-/

namespace SchemaDelta.Dump

open Sql Text Reader HeaderPart

variable {object : ObjectName}

/-! ## What a statement is booked under -/

/-- The name is written behind this qualifier, which stands bare or in name marks. -/
structure ObjectName.QualifiedBy (object : ObjectName) (q : Text) : Prop where
  lawful : object.Lawful
  qualifier : ∃ style, style ≠ .inDoubleMarks ∧ object.qualifier = some (style, q)

/-- The statement creates or drops a view of this name. Behind the name of a view that is created
anything may stand. -/
inductive NamesView (object : ObjectName) : Text → Prop
  | create (options : ViewOptions) {front : Text} (rest : Text)
      (hfront : Spelled (.plain "CREATE" :: options.parts) front) (hoptions : options.Lawful) :
      NamesView object (front ++ (object.text ++ rest))
  | drop (guarded : Bool) {front : Text} (hfront : Spelled (dropViewParts guarded) front) :
      NamesView object (front ++ object.text)

/-- The statement defines or alters a table of this name, and no other header is in it that would be
preferred. -/
inductive NamesTable (object : ObjectName) : Text → Prop
  | create (temporary guarded : Bool) {front : Text} (rest : Text)
      (hfront : Spelled (createTableParts temporary guarded) front) (hrest : OpensBody rest)
      (hbody : (tableBody (front ++ (object.text ++ rest))).isSome)
      (hview : first createdView (front ++ (object.text ++ rest)) = none) :
      NamesTable object (front ++ (object.text ++ rest))
  | alter (only : Bool) {front : Text} (rest : Text) (hfront : Spelled (alterTableParts only) front)
      (hrest : rest.head?.any isBlank)
      (hview : first createdView (front ++ (object.text ++ rest)) = none)
      (htable : first createdTable (front ++ (object.text ++ rest)) = none) :
      NamesTable object (front ++ (object.text ++ rest))

variable {q statement : Text}

/-- The qualifier is written in front of a dot. -/
theorem ObjectName.QualifiedBy.text_append (h : object.QualifiedBy q) (rest : Text) :
    IsName q ∧ ∃ style : NameStyle, style ≠ .inDoubleMarks ∧
      object.text ++ rest = style.write q ++ '.' :: (object.style.write object.name ++ rest) := by
  obtain ⟨style, hstyle, hqualifier⟩ := h.qualifier
  refine ⟨h.lawful.isName_qualifier _ hqualifier, style, hstyle, ?_⟩
  simp [ObjectName.text, ObjectName.front, hqualifier]

/-- A statement that names a view with a qualifier is booked under the qualifier. -/
theorem NamesView.viewOf?_eq (h : NamesView object statement) (hobject : object.QualifiedBy q) :
    viewOf? statement = some q := by
  have hdot : ∀ t : Text, ∀ c ∈ ('.' :: t).head?, ¬isWord c := by simp; decide
  cases h with
  | create options rest hfront hoptions =>
      obtain ⟨hname, style, hstyle, htext⟩ := hobject.text_append rest
      have hcreated := run_createdView hoptions hstyle hname hfront
        (hdot (object.style.write object.name ++ rest))
      rw [← htext] at hcreated
      rw [viewOf?, Header.ofStatement?, first_of_run hcreated]
  | drop guarded hfront =>
      obtain ⟨hname, style, hstyle, htext⟩ := hobject.text_append []
      have hview := run_viewName hstyle hname (hdot (object.style.write object.name ++ []))
      rw [← htext, List.append_nil] at hview
      have hblank := hobject.lawful.not_isBlank
      have hdropped := first_of_run (run_droppedView hfront hblank hview)
      have hdrops := dropsView_of_spelled hfront fun c hc => hblank c (List.mem_of_mem_head? hc)
      have hnone := first_createdView_eq_none hfront hblank
      simp only [viewOf?, Header.ofStatement?, hnone, hdrops, if_true, hdropped]

/-- A statement that names a table is booked under the name. -/
theorem NamesTable.tableOf?_eq (h : NamesTable object statement) (hobject : object.QualifiedBy q) :
    tableOf? statement = some object.name := by
  obtain ⟨_, -, hqualifier⟩ := hobject.qualifier
  cases h with
  | create temporary guarded rest hfront hrest hbody hview =>
      have htable := first_of_run (run_createdTable hobject.lawful hfront hrest)
      have hdrops := not_dropsView hfront (lawful_createTableParts _ _) ⟨_, rfl, by decide⟩
        (hobject.lawful.head? rest)
      simp only [tableOf?, Header.ofStatement?, hview, hdrops, htable, hbody, if_true]
      rfl
  | alter only rest hfront hrest hview htable =>
      have honly : ¬object.IsBareOnly := by simp [ObjectName.IsBareOnly, hqualifier]
      have haltered := first_of_run (run_alteredTable hobject.lawful (fun _ => honly) hfront hrest)
      have hdrops := not_dropsView hfront (lawful_alterTableParts _) ⟨_, rfl, by decide⟩
        (hobject.lawful.head? rest)
      simp only [tableOf?, Header.ofStatement?, hview, hdrops, htable, haltered]
      rfl

/-- What is booked for a view is its definition or its drop. -/
theorem entry_of_viewOf? (h : viewOf? statement = some q) :
    Entry.ofStatement statement = .ok (.view q (trim statement)) ∨
      Entry.ofStatement statement = .ok (.viewDrop q (trim statement)) := by
  rcases viewOf?_eq_some_iff.1 h with hcreates | hdrops
  · left
    rw [Entry.ofStatement, hcreates]
  · right
    rw [Entry.ofStatement, hdrops]

/-- A view that a script creates by a statement of the target has the key that the statement is
booked under. -/
theorem viewOf?_of_mem_viewChanges {delta : Delta} {text key : Text}
    (htarget : delta.target = schemaOfText text) {change : ViewChange}
    (hmem : change ∈ delta.viewChanges)
    (hchange : change = .create key statement ∨ change = .replace key statement) :
    viewOf? statement = some key := by
  have hcreates : ∀ {name sql : Text} {view : View}, delta.target.views.get? name = some view →
      view.definition = some sql → viewOf? sql = some name := by
    intro name sql view hget hsql
    rw [htarget, schemaOfText_eq] at hget
    cases (viewDefinition_iff_inForce fun _ => tidy_of_mem_statements).1 ⟨view, hget, hsql⟩ with
    | createsView _ hcreates _ => exact viewOf?_eq_some_iff.2 (.inl hcreates)
  rcases Delta.of_mem_viewChanges hmem with
    ⟨name, sql, view, rfl | rfl, hget, hsql⟩ | ⟨name, view, rfl, -⟩
  · obtain ⟨rfl, rfl⟩ : name = key ∧ sql = statement := by simpa using hchange
    exact hcreates hget hsql
  · obtain ⟨rfl, rfl⟩ : name = key ∧ sql = statement := by simpa using hchange
    exact hcreates hget hsql
  · simp at hchange

/-- A statement that creates or drops a view with a qualifier is booked under the qualifier, so it
is booked under the name only if the two are the same, and under one key with all views of that
qualifier. A script that runs such a statement drops the view that is called as the qualifier
before. Statements about tables are booked under the name. -/
theorem keyed_by_qualifier {other : ObjectName} {q' statement' : Text}
    (hobject : object.QualifiedBy q) (hother : other.QualifiedBy q')
    (h : NamesView object statement) (h' : NamesView other statement') :
    (Entry.ofStatement statement = .ok (.view q (trim statement)) ∨
      Entry.ofStatement statement = .ok (.viewDrop q (trim statement))) ∧
    (viewOf? statement = some object.name ↔ q = object.name) ∧
    (viewOf? statement = viewOf? statement' ↔ q = q') ∧
    (∀ (delta : Delta) (text key : Text), delta.target = schemaOfText text →
      ∀ change ∈ delta.viewChanges,
        change = .create key statement ∨ change = .replace key statement →
          change.statements.map Line.text =
            ["DROP VIEW IF EXISTS " ++ quoteName q ++ ";", statement ++ ";"]) ∧
    ∀ table, NamesTable object table → tableOf? table = some object.name := by
  have hview := h.viewOf?_eq hobject
  rw [hview, h'.viewOf?_eq hother, Option.some.injEq, Option.some.injEq]
  refine ⟨entry_of_viewOf? hview, .rfl, .rfl, ?_, fun table htable => htable.tableOf?_eq hobject⟩
  intro delta text key htarget change hmem hchange
  obtain rfl : q = key := by
    rw [viewOf?_of_mem_viewChanges htarget hmem hchange] at hview
    exact (Option.some.inj hview).symm
  rcases hchange with rfl | rfl <;> rfl

/-- Two views of one database and a table there. -/
theorem keyed_by_qualifier_of_two_views :
    Entry.ofStatement "CREATE VIEW db.v AS SELECT 1" =
        .ok (.view "db" "CREATE VIEW db.v AS SELECT 1") ∧
      viewOf? "CREATE VIEW db.v AS SELECT 1" = viewOf? "DROP VIEW IF EXISTS `db`.`w`" ∧
      tableOf? "CREATE TABLE db.v (id int)" = some "v" := by
  have hv : ObjectName.QualifiedBy ⟨some (.bare, "db"), .bare, "v"⟩ "db" :=
    ⟨⟨by decide, by decide⟩, .bare, by decide, rfl⟩
  have hw : ObjectName.QualifiedBy ⟨some (.inNameMarks, "db"), .inNameMarks, "w"⟩ "db" :=
    ⟨⟨by decide, by decide⟩, .inNameMarks, by decide, rfl⟩
  have hcreateWords : Spelled (.plain "CREATE" :: ViewOptions.parts ⟨false, none, none, none⟩)
      "CREATE VIEW " :=
    .cons_space "CREATE" (by decide) (.cons_space "VIEW" (by decide) .nil)
  have hcreate : NamesView ⟨some (.bare, "db"), .bare, "v"⟩ "CREATE VIEW db.v AS SELECT 1" :=
    .create _ " AS SELECT 1" hcreateWords ⟨by simp, by simp, by simp⟩
  have hdrop : NamesView ⟨some (.inNameMarks, "db"), .inNameMarks, "w"⟩
      "DROP VIEW IF EXISTS `db`.`w`" := .drop true spelled_dropView
  have htable : NamesTable ⟨some (.bare, "db"), .bare, "v"⟩ "CREATE TABLE db.v (id int)" :=
    .create false false " (id int)" spelled_createTable rfl (by decide +kernel) (by decide +kernel)
  obtain ⟨hentry, -, hkey, -, hnames⟩ := keyed_by_qualifier hv hw hcreate hdrop
  have htrim : trim "CREATE VIEW db.v AS SELECT 1" = "CREATE VIEW db.v AS SELECT 1" := by
    decide +kernel
  have hcreated : Entry.ofStatement "CREATE VIEW db.v AS SELECT 1" ≠
      .ok (.viewDrop "db" (trim "CREATE VIEW db.v AS SELECT 1")) := by
    decide +kernel
  exact ⟨htrim ▸ hentry.resolve_right hcreated, hkey.2 rfl, hnames _ htable⟩

/-- Tables are booked under the name behind the qualifier, and views are not. -/
theorem not_keyed_by_name :
    tableOf? "CREATE TABLE db.v (id int)" = some "v" ∧
      tableOf? "ALTER TABLE db.v ADD b int" = some "v" ∧
      viewOf? "CREATE VIEW db.v AS SELECT 1" ≠ some "v" ∧
      viewOf? "DROP VIEW db.v" ≠ some "v" ∧ viewOf? "DROP VIEW IF EXISTS db.v" ≠ some "v" := by
  decide +kernel

end SchemaDelta.Dump
