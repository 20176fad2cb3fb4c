import SchemaDelta.Dump.Report
import SchemaDelta.Proofs.Dump.Clean
import SchemaDelta.Proofs.Dump.Rewalk

/-!
# One dump behind another

Two dumps with a semicolon between them are read one after the other (`report_append`). What is
needed of the first one is that it has no comments and leaves no table definition open; the
second one may be any text. The blanks around the semicolon are all that the two have in common,
and a walk does not see them (`walk_append_cons`, `walk_trimStart`).
-/

namespace SchemaDelta.Dump

open Sql Text

/-- Blanks at the end of a fragment behind which no definition is open do not matter. -/
theorem WalkStep.append_blanks {pending : Option OpenTable} {fragment blanks : Text}
    {made : List Outcome} (h : WalkStep pending fragment made none)
    (hblanks : ∀ c ∈ blanks, isBlank c) : WalkStep pending (fragment ++ blanks) made none := by
  have htrim : trim (fragment ++ blanks) = trim fragment := trim_append_blanks fragment hblanks
  cases h with
  | blank hnil => exact .blank (htrim.trans hnil)
  | headless hne hhead =>
      rw [← htrim] at hne hhead ⊢
      exact .headless hne hhead
  | complete hhead hbalance =>
      rw [← htrim] at hhead hbalance ⊢
      exact .complete hhead hbalance
  | @closing table _ hbalance =>
      have hstatement : trim (table.extend (fragment ++ blanks)).statement =
          trim (table.extend fragment).statement := by
        show trim (table.statement ++ ';' :: (fragment ++ blanks)) =
          trim (table.statement ++ ';' :: fragment)
        rw [← List.cons_append, ← List.append_assoc, trim_append_blanks _ hblanks]
      rw [← hstatement]
      refine .closing ?_
      show table.balance + parenBalance (fragment ++ blanks) = 0
      rw [parenBalance_append, parenBalance_blanks hblanks, Int.add_zero]
      exact hbalance

/-- If a walk leaves no definition open, neither blanks at the end of its last fragment nor the
fragments behind it matter for what it makes of its own fragments. -/
theorem walk_append_cons {front : List Text} {last blanks : Text} {pending : Option OpenTable}
    (hclosed : ∀ table, .unterminated table ∉ walk pending (front ++ [last]))
    (hblanks : ∀ c ∈ blanks, isBlank c) (behind : List Text) :
    walk pending (front ++ (last ++ blanks) :: behind) =
      walk pending (front ++ [last]) ++ walk none behind := by
  induction front generalizing pending with
  | nil =>
      obtain ⟨made, left, h⟩ := exists_step pending last
      obtain rfl : left = none := by
        rw [Option.eq_none_iff_forall_ne_some]
        rintro table rfl
        refine hclosed table ?_
        rw [List.nil_append, h.walk_eq]
        simp [walk]
      rw [List.nil_append, List.nil_append, h.walk_eq, (h.append_blanks hblanks).walk_eq]
      simp [walk]
  | cons first rest ih =>
      obtain ⟨made, left, h⟩ := exists_step pending first
      rw [List.cons_append, h.walk_eq] at hclosed
      rw [List.cons_append, List.cons_append, h.walk_eq, h.walk_eq, ih, List.append_assoc]
      intro table hmem
      exact hclosed table (List.mem_append_right _ hmem)

/-- What a walk makes of a dump behind a semicolon it makes of the dump alone, if what stands in
front has no comments and leaves no definition open. -/
theorem outcomes_append {a b : Text} (hdash : ¬occursIn "--" a) (hslash : ¬occursIn "/*" a)
    (hclosed : ∀ table, .unterminated table ∉ outcomes a) :
    outcomes (a ++ ";" ++ b) = outcomes a ++ outcomes b := by
  have happend : a ++ ";" ++ b = a ++ ';' :: b := by simp
  obtain ⟨front, back, hfront, hback, hclean⟩ := clean_append_cons
    (apart_of_not_occursIn hdash) (apart_of_not_occursIn hslash) b
  obtain ⟨blanks, heq, hblanks⟩ := exists_trimEnd_append front
  have hplain : ∀ c ∈ blanks, ¬(c == ';') := by
    intro c hc hsemicolon
    have hblank := hblanks c hc
    rw [beq_iff_eq.1 hsemicolon] at hblank
    exact absurd hblank (by decide)
  rw [hfront] at heq
  -- Alone the first dump loses the blanks at its end; in front of the semicolon they stay.
  obtain ⟨parts, last, hparts, hlonger⟩ := pieces_append_plain hplain (clean a)
  rw [heq] at hlonger
  rw [outcomes, fragments, hparts] at hclosed
  calc outcomes (a ++ ";" ++ b)
    _ = walk none (parts ++ (last ++ blanks) :: pieces (· == ';') back) := by
        rw [outcomes, fragments, happend, hclean, pieces_append_cons front (by simp), hlonger,
          List.append_assoc, List.singleton_append]
    _ = walk none (parts ++ [last]) ++ walk none (pieces (· == ';') back) :=
        walk_append_cons hclosed hblanks _
    _ = outcomes a ++ outcomes b := by
        rw [← walk_trimStart back, hback, ← hparts]
        rfl

/-- Behind a dump that has no comments and leaves no definition open another dump is read on its
own: there are the statements of the one and then of the other, as many as both have, and what is
left out of each is reported one after the other. -/
theorem report_append {a b : Text} (hdash : ¬occursIn "--" a) (hslash : ¬occursIn "/*" a)
    (hclosed : ∀ table, .unterminated table ∉ outcomes a) :
    statements (a ++ ";" ++ b) = statements a ++ statements b ∧
      (Report.ofText (a ++ ";" ++ b)).statements =
        (Report.ofText a).statements + (Report.ofText b).statements ∧
      (Report.ofText (a ++ ";" ++ b)).skipped =
        (Report.ofText a).skipped ++ (Report.ofText b).skipped := by
  have hstatements : statements (a ++ ";" ++ b) = statements a ++ statements b := by
    rw [statements, outcomes_append hdash hslash hclosed, List.filterMap_append]
    rfl
  refine ⟨hstatements, ?_, ?_⟩
  · simp only [Report.ofText, Report.ofStatements, hstatements, List.length_append]
  · simp only [Report.ofText, Report.ofStatements, hstatements, List.flatMap_append]

/-- A dump with a definition that a semicolon cuts apart and a clause that is left out. -/
def guardedTable : Text := "CREATE TABLE t (a text DEFAULT ';', CHECK (a > 0)) "

/-- A dump that opens with a comment and drops a table that is not known as a view. -/
def annotatedDrop : Text := "-- old\nDROP VIEW v /* x */; DROP TABLE u"

/-- Both left out parts are reported, the clause of the first dump before the statement of the
second. -/
theorem report_append_of_guarded_table :
    ¬occursIn "--" guardedTable ∧ ¬occursIn "/*" guardedTable ∧
      (∀ table, .unterminated table ∉ outcomes guardedTable) ∧
      statements (guardedTable ++ ";" ++ annotatedDrop) =
        ["CREATE TABLE t (a text DEFAULT ';', CHECK (a > 0))", "DROP VIEW v",
          "DROP TABLE u"] ∧
      (Report.ofText (guardedTable ++ ";" ++ annotatedDrop)).skipped =
        [⟨some "t", "CHECK (a > 0)", .unrecognizedClause⟩,
          ⟨none, "DROP TABLE u", .unclassified⟩] := by
  have hdash : ¬occursIn "--" guardedTable := by decide +kernel
  have hslash : ¬occursIn "/*" guardedTable := by decide +kernel
  have houtcomes : outcomes guardedTable =
      [.statement "CREATE TABLE t (a text DEFAULT ';', CHECK (a > 0))"] := by
    decide +kernel
  have hclosed : ∀ table, .unterminated table ∉ outcomes guardedTable := by
    intro table
    simp [houtcomes]
  obtain ⟨hstatements, -, hskipped⟩ := report_append (b := annotatedDrop) hdash hslash hclosed
  refine ⟨hdash, hslash, hclosed, ?_, ?_⟩
  · rw [hstatements]
    decide +kernel
  · rw [hskipped]
    decide +kernel

end SchemaDelta.Dump
