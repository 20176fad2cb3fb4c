import SchemaDelta.Proofs.Dump.HeaderName

/-!
# Headers of the statements that a script writes

A statement changes a table only if no other kind of header is found in it, and then the table is
the first that the words `ALTER TABLE` name (`first_of_header_alterTable`). With that the
statements a script writes itself can be told from those it replays: `header_alterTable_eq` for
the edits, `header_dropView_ne` for the view drops and `header_dropTable_ne` for a table drop in
a comment. A view drop that a script writes is read as one (`header_dropView`).
-/

namespace SchemaDelta.Sql

open Reader Text Dump

/-- A statement that changes a table creates no view and no table and drops no view, and the
table is the first that is altered in it. -/
theorem first_of_header_alterTable {statement key : Text}
    (h : Header.ofStatement? statement = some (.alterTable key)) :
    ¬dropsView statement ∧ first alteredTable statement = some key := by
  unfold Header.ofStatement? at h
  split at h
  · simp at h
  · split at h
    · simp at h
    · next hdrop =>
      split at h
      · simp at h
      · obtain ⟨table, htable, heq⟩ := Option.map_eq_some_iff.1 h
        obtain rfl := Header.alterTable.inj heq
        exact ⟨hdrop, htable⟩

/-- A statement that opens with the words `ALTER TABLE` and a quoted name changes no other
table. -/
theorem header_alterTable_eq {name rest key : Text} (hname : IsName name)
    (h : Header.ofStatement? ("ALTER TABLE " ++ quoteName name ++ ' ' :: rest) =
      some (.alterTable key)) : name = key := by
  have honly : ¬(ObjectName.quoted name).IsBareOnly := by
    simp [ObjectName.IsBareOnly, ObjectName.quoted]
  have hblank : (' ' :: rest).head?.any isBlank := rfl
  have halter := run_alteredTable (ObjectName.lawful_quoted hname) (fun _ => honly)
    spelled_alterTable hblank
  rw [ObjectName.text_quoted, ← List.append_assoc] at halter
  have hfirst := (first_of_header_alterTable h).2
  rw [first_of_run halter] at hfirst
  exact Option.some.inj hfirst

/-- A statement that a script writes to drop a view opens as a drop and speaks of a view. -/
theorem dropsView_dropView (name : Text) :
    dropsView ("DROP VIEW IF EXISTS " ++ quoteName name) :=
  dropsView_of_spelled spelled_dropView (by simp [quoteName]; decide)

/-- A statement that a script writes to drop a view does not change a table. -/
theorem header_dropView_ne {name key : Text} :
    Header.ofStatement? ("DROP VIEW IF EXISTS " ++ quoteName name) ≠ some (.alterTable key) :=
  fun h => (first_of_header_alterTable h).1 (dropsView_dropView name)

/-- A statement that a script writes to drop a view drops the view. -/
theorem header_dropView {name : Text} (hname : IsName name) :
    Header.ofStatement? ("DROP VIEW IF EXISTS " ++ quoteName name) =
      some (.dropView (some name)) := by
  have hblank : ∀ c ∈ quoteName name, ¬isBlank c := fun _ hc => hname.not_isBlank_quoteName hc
  have hcreated := first_createdView_eq_none spelled_dropView hblank
  have hstyle : NameStyle.inNameMarks ≠ .inDoubleMarks := by decide
  have hview : viewName.run (quoteName name ++ []) = some (name, [nameMark]) :=
    run_viewName hstyle hname (by simp)
  rw [List.append_nil] at hview
  have hdropped := first_of_run (run_droppedView spelled_dropView hblank hview)
  rw [Header.ofStatement?, hcreated]
  show (if _ then _ else _) = _
  rw [if_pos (dropsView_dropView name), hdropped]

/-- The comment that suggests to drop a table does not change a table. -/
theorem header_dropTable_ne {name key : Text} (hname : IsName name) :
    Header.ofStatement? ("-- DROP TABLE IF EXISTS " ++ quoteName name) ≠
      some (.alterTable key) := by
  intro h
  have hsilent : Silent "ALTER" ("-- DROP TABLE IF EXISTS " ++ quoteName name) :=
    Silent.append_quoteName (by decide +kernel) (by decide) hname
  have hnone : first alteredTable ("-- DROP TABLE IF EXISTS " ++ quoteName name) = none :=
    hsilent.first_eq_none
  rw [(first_of_header_alterTable h).2] at hnone
  simp at hnone

end SchemaDelta.Sql
