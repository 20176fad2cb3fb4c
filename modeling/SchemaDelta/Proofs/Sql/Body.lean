import SchemaDelta.Proofs.Text.Tidy
import SchemaDelta.Sql.Body

/-!
# Bodies and clauses as parts

A table body is a part of its statement and a clause is the trimmed form of a part of its body,
so the clauses of a single-spaced statement are tidy (`tidy_of_mem_clauses`). The parentheses of
a join are those of its parts together (`parenBalance_join`).
-/

namespace SchemaDelta.Sql

open Text

/-- The parentheses of several texts together. -/
def balanceOf : List Text → Int
  | [] => 0
  | first :: others => parenBalance first + balanceOf others

theorem balanceOf_singleton (t : Text) : balanceOf [t] = parenBalance t := Int.add_zero _

theorem balanceOf_append (a b : List Text) : balanceOf (a ++ b) = balanceOf a + balanceOf b := by
  induction a with
  | nil => exact (Int.zero_add _).symm
  | cons first others ih =>
      rw [List.cons_append, balanceOf, balanceOf, ih]
      omega

/-- Texts whose parentheses balance do so together. -/
theorem balanceOf_eq_zero {parts : List Text} (h : ∀ part ∈ parts, parenBalance part = 0) :
    balanceOf parts = 0 := by
  induction parts with
  | nil => rfl
  | cons first others ih =>
      obtain ⟨hfirst, hothers⟩ := List.forall_mem_cons.1 h
      rw [balanceOf, hfirst, ih hothers]
      rfl

/-- Separators without parentheses do not count. -/
theorem parenBalance_join {separator : Text} (h : parenBalance separator = 0)
    (parts : List Text) : parenBalance (join separator parts) = balanceOf parts := by
  induction parts with
  | nil => rfl
  | cons first others ih =>
      by_cases hnil : others = []
      · subst hnil
        rw [join_singleton, balanceOf_singleton]
      · rw [join_cons separator first hnil, parenBalance_append, parenBalance_append, ih, h,
          balanceOf]
        omega

theorem prefix_of_untilClosed {scan : Scan} {t body : Text}
    (h : untilClosed scan t = some body) : body <+: t := by
  induction t generalizing scan body with
  | nil => simp [untilClosed] at h
  | cons c rest ih =>
      simp only [untilClosed] at h
      split at h
      · exact Option.some.inj h ▸ List.nil_prefix
      · obtain ⟨tail, htail, rfl⟩ := Option.map_eq_some_iff.1 h
        exact (List.prefix_cons_inj c).2 (ih htail)

/-- The body of a table definition is a part of it. -/
theorem isInfix_of_tableBody {statement body : Text} (h : tableBody statement = some body) :
    body <:+: statement := by
  have hsuffix : statement.dropWhile (· ≠ '(') <:+ statement := List.dropWhile_suffix _
  unfold tableBody at h
  split at h
  · simp at h
  · next c rest heq =>
    have hrest : rest <:+ statement := (List.suffix_cons c rest).trans (heq ▸ hsuffix)
    exact (prefix_of_untilClosed h).isInfix.trans hrest.isInfix

/-- The clauses of a single-spaced table definition are tidy. -/
theorem tidy_of_mem_clauses {statement body clause : Text} (hs : SingleSpaced statement)
    (hbody : tableBody statement = some body) (hclause : clause ∈ clauses body) :
    Tidy clause := by
  obtain ⟨piece, hpiece, rfl⟩ := List.mem_map.1 (List.mem_filter.1 hclause).1
  have hpart : piece <:+: body := join_clausePieces Scan.start body ▸ isInfix_join hpiece
  exact (hs.of_part (hpart.trans (isInfix_of_tableBody hbody))).tidy_trim

end SchemaDelta.Sql
