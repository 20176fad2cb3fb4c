import SchemaDelta.Proofs.Dump.Column
import SchemaDelta.Proofs.Dump.Key

/-!
# What clauses declare

Every tidy clause that is read at all declares a column, an index or a constraint in the form in
which it can be read back (`declared_of_ofText`).
-/

namespace SchemaDelta.Dump

open SchemaDelta.Sql
open Text

/-- What the clause declares is in the form in which it can be read back. -/
def Clause.Declared : Clause → Prop
  | .column c => c.Declared
  | .index i => i.Declared
  | .constraint c => c.Declared

/-- What a tidy clause declares can be read back. -/
theorem declared_of_ofText {clause : Text} {declared : Clause} (hclause : Tidy clause)
    (h : Clause.ofText clause = .ok declared) : declared.Declared := by
  have hread := h
  rw [Clause.ofText] at h
  split at h
  · next head hhead =>
    obtain rfl := Except.ok.inj h
    unfold columnHead? at hhead
    split at hhead
    · simp at hhead
    · next found _ hrun =>
      split at hhead
      · simp at hhead
      · obtain rfl := Option.some.inj hhead
        exact declared_of_run_columnHead hclause hrun
  · rcases ofKey_inv h with
      ⟨columns, hcolumns, rfl⟩ | ⟨name, kind, hname, hkind, rfl⟩ | ⟨name, hname, rfl⟩
    · have hprimary : IsName Constraint.primaryName := by decide
      exact ⟨hprimary, hclause, hread, fun _ => ⟨rfl, hcolumns hclause.newline_not_mem⟩⟩
    · exact ⟨hname, hclause, hread, fun hprimary => absurd hprimary hkind⟩
    · exact ⟨hname, hclause, hread⟩

/-- The empty text declares nothing. -/
theorem ne_nil_of_ofText {clause : Text} {declared : Clause}
    (h : Clause.ofText clause = .ok declared) : clause ≠ [] := by
  rintro rfl
  have hnil : Clause.ofText [] = .error .unrecognizedClause := by decide
  rw [hnil] at h
  simp at h

end SchemaDelta.Dump
