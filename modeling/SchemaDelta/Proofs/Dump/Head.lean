import SchemaDelta.Proofs.Dump.Rewalk
import SchemaDelta.Proofs.Sql.Phrase

/-!
# Heads and headers

A walk keeps a fragment if it finds a head in it, and a statement is read if it has a header.
The two are found in different ways, but nearly every statement with a header has a head too
(`exists_head_of_header`), so a dump that is one such statement has just this statement
(`statements_eq_singleton_iff`). The exception are statements that create a temporary table and
speak of nothing else that a head is found by: they have a header and no head.
-/

namespace SchemaDelta.Dump

open Sql Text

/-- A fragment has a head exactly when it holds the words for one. -/
theorem exists_head_iff {fragment : Text} : (∃ head, Head.ofFragment? fragment = some head) ↔
    containsCaseless fragment "CREATE TABLE" ∨
    (containsCaseless fragment "CREATE" ∧ containsCaseless fragment "VIEW") ∨
    (containsCaseless fragment "DROP TABLE" ∨ containsCaseless fragment "DROP VIEW") ∨
    containsCaseless fragment "ALTER TABLE" := by
  simp only [← Option.isSome_iff_exists, Head.ofFragment?]
  -- One split for each sort of head, in the order in which they are looked for.
  split
  · next htable => exact iff_of_true rfl (.inl htable)
  · next htable =>
    split
    · next hview => exact iff_of_true rfl (.inr (.inl (Bool.and_eq_true_iff.1 hview)))
    · next hview =>
      split
      · next hdrop =>
        exact iff_of_true rfl (.inr (.inr (.inl (Bool.or_eq_true_iff.1 hdrop))))
      · next hdrop =>
        rw [Bool.and_eq_true] at hview
        rw [Bool.or_eq_true] at hdrop
        simp only [htable, hview, hdrop, Bool.false_eq_true, false_or]
        split
        · next halter => exact iff_of_true rfl halter
        · next halter => exact iff_of_false (by simp) halter

/-- A fragment that speaks of creating a table has that head, and no other does. -/
theorem head_eq_createTable_iff {fragment : Text} :
    Head.ofFragment? fragment = some .createTable ↔ containsCaseless fragment "CREATE TABLE" := by
  simp only [Head.ofFragment?]
  split
  · next htable => exact iff_of_true rfl htable
  · next htable =>
    refine iff_of_false (fun hhead => ?_) htable
    split at hhead
    · simp at hhead
    · split at hhead
      · simp at hhead
      · split at hhead <;> simp at hhead

/-- The statement creates a temporary table, and it holds no words by which a head is found. -/
def OnlyTemporary (statement : Text) : Prop :=
  containsCaseless statement "CREATE TEMPORARY TABLE" ∧
    ∀ words ∈ (["CREATE TABLE", "VIEW", "DROP TABLE", "ALTER TABLE"] : List String),
      ¬containsCaseless statement words

instance (statement : Text) : Decidable (OnlyTemporary statement) :=
  inferInstanceAs (Decidable (_ ∧ _))

variable {statement : Text}

/-- A statement with a header has a head, unless it creates a temporary table. -/
theorem exists_head_or_temporary {header : Header} (hspaced : SingleSpaced statement)
    (h : Header.ofStatement? statement = some header) :
    (∃ head, Head.ofFragment? statement = some head) ∨
      (header.kind = .createTable ∧ containsCaseless statement "CREATE TEMPORARY TABLE") := by
  rw [exists_head_iff]
  unfold Header.ofStatement? at h
  split at h
  · next hview => exact .inl (.inr (.inl (phrase_of_createdView hview)))
  · split at h
    · next hdrops =>
      obtain ⟨⟨_, rest⟩, hrun⟩ :=
        Option.isSome_iff_exists.1 (Bool.and_eq_true_iff.1 hdrops).1
      exact .inl (.inr (.inr (.inl (phrase_of_dropOpening hspaced hrun))))
    · split at h
      · next htable =>
        obtain rfl := Option.some.inj h
        rcases phrase_of_createdTable hspaced htable with htable | htemporary
        · exact .inl (.inl htable)
        · exact .inr ⟨rfl, htemporary⟩
      · obtain ⟨table, halter, -⟩ := Option.map_eq_some_iff.1 h
        exact .inl (.inr (.inr (.inr (phrase_of_alteredTable hspaced halter))))

/-- A statement that creates a temporary table has a head, if words for one stand in it. -/
theorem exists_head_of_temporary
    (h : containsCaseless statement "CREATE TEMPORARY TABLE")
    (hspeaks : ¬OnlyTemporary statement) : ∃ head, Head.ofFragment? statement = some head := by
  obtain ⟨words, hmem, hwords⟩ : ∃ words ∈
      (["CREATE TABLE", "VIEW", "DROP TABLE", "ALTER TABLE"] : List String),
      containsCaseless statement words := by
    by_contra hnone
    exact hspeaks ⟨h, fun words hmem hwords => hnone ⟨words, hmem, hwords⟩⟩
  have hcreate : containsCaseless statement "CREATE" :=
    containsCaseless_of_isInfix h ⟨[], " TEMPORARY TABLE", by decide⟩
  rw [exists_head_iff]
  simp only [List.mem_cons, List.not_mem_nil, or_false] at hmem
  rcases hmem with rfl | rfl | rfl | rfl
  · exact .inl hwords
  · exact .inr (.inl ⟨hcreate, hwords⟩)
  · exact .inr (.inr (.inl (.inl hwords)))
  · exact .inr (.inr (.inr hwords))

/-- A statement that only creates a temporary table has no head. -/
theorem OnlyTemporary.ofFragment?_eq_none (h : OnlyTemporary statement) :
    Head.ofFragment? statement = none := by
  rw [Option.eq_none_iff_forall_ne_some]
  intro head hhead
  have hsilent := h.2
  rcases exists_head_iff.1 ⟨head, hhead⟩ with htable | ⟨-, hview⟩ | (hdrop | hdrop) | halter
  · exact hsilent "CREATE TABLE" (by simp) htable
  · exact hsilent "VIEW" (by simp) hview
  · exact hsilent "DROP TABLE" (by simp) hdrop
  · exact hsilent "VIEW" (by simp) (containsCaseless_of_isInfix hdrop ⟨"DROP ", [], by decide⟩)
  · exact hsilent "ALTER TABLE" (by simp) halter

/-- A dump that is one fragment is walked over in one step. -/
theorem statements_of_fragment (hclean : clean statement = statement)
    (hsemicolon : ';' ∉ statement) :
    statements statement = (walk none [statement]).filterMap Outcome.statement? := by
  rw [statements, outcomes, fragments, hclean, pieces_fragment hsemicolon]

/-- If the fragment has a head, it is a statement, as long as it leaves no definition open. -/
theorem statements_of_head {head : Head} (hclean : clean statement = statement)
    (hsemicolon : ';' ∉ statement) (hhead : Head.ofFragment? statement = some head)
    (hbalance : head = .createTable → parenBalance statement = 0) :
    statements statement = [statement] := by
  have htrim : trim statement = statement := by
    rw [← hclean]
    exact trim_trim _
  rw [← htrim] at hhead hbalance
  have hstep := WalkStep.complete hhead hbalance
  rw [statements_of_fragment hclean hsemicolon, hstep.walk_eq, htrim]
  rfl

/-- A dump that is one clean statement of a known kind, with balanced parentheses, has just this
statement, unless it only creates a temporary table. Then it has none. -/
theorem statements_eq_singleton_iff {kind : StatementKind} (hclean : clean statement = statement)
    (hsemicolon : ';' ∉ statement) (hbalance : parenBalance statement = 0)
    (h : StatementKind.ofStatement? statement = some kind) :
    (statements statement = [statement] ↔ ¬OnlyTemporary statement) ∧
      (OnlyTemporary statement → kind = .createTable ∧ statements statement = []) := by
  obtain ⟨header, hheader, rfl⟩ := Option.map_eq_some_iff.1 h
  have hne : statement ≠ [] := ne_nil_of_header hheader
  have hspaced : SingleSpaced statement := hclean ▸ singleSpaced_clean statement
  have htrim : trim statement = statement := by
    rw [← hclean]
    exact trim_trim _
  have hknown := exists_head_or_temporary hspaced hheader
  have hlost : OnlyTemporary statement → statements statement = [] := by
    intro htemporary
    have hhead := htemporary.ofFragment?_eq_none
    rw [← htrim] at hne hhead
    rw [statements_of_fragment hclean hsemicolon, (WalkStep.headless hne hhead).walk_eq]
    rfl
  refine ⟨⟨fun hkept htemporary => ?_, fun hspeaks => ?_⟩, fun htemporary => ⟨?_, ?_⟩⟩
  · rw [hlost htemporary] at hkept
    exact List.cons_ne_nil _ _ hkept.symm
  · obtain ⟨head, hhead⟩ : ∃ head, Head.ofFragment? statement = some head :=
      hknown.elim id fun hcreates => exists_head_of_temporary hcreates.2 hspeaks
    exact statements_of_head hclean hsemicolon hhead fun _ => hbalance
  · refine hknown.elim (fun hhead => ?_) And.left
    obtain ⟨head, hhead⟩ := hhead
    rw [htemporary.ofFragment?_eq_none] at hhead
    exact absurd hhead (by simp)
  · exact hlost htemporary

/-- A table definition with optional words is kept. -/
theorem statements_of_table_unless_present :
    clean "CREATE TABLE IF NOT EXISTS `t` (id int)" = "CREATE TABLE IF NOT EXISTS `t` (id int)" ∧
      StatementKind.ofStatement? "CREATE TABLE IF NOT EXISTS `t` (id int)" = some .createTable ∧
      statements "CREATE TABLE IF NOT EXISTS `t` (id int)" =
        ["CREATE TABLE IF NOT EXISTS `t` (id int)"] := by
  have hclean : clean "CREATE TABLE IF NOT EXISTS `t` (id int)" =
      "CREATE TABLE IF NOT EXISTS `t` (id int)" := by decide +kernel
  have hkind : StatementKind.ofStatement? "CREATE TABLE IF NOT EXISTS `t` (id int)" =
      some .createTable := by decide +kernel
  refine ⟨hclean, hkind, ?_⟩
  exact (statements_eq_singleton_iff hclean (by decide) (by decide) hkind).1.2 (by decide +kernel)

/-- The definition of a temporary table is of a known kind, and the dump that it makes up has no
statement. -/
theorem not_statements_of_temporary_table :
    clean "CREATE TEMPORARY TABLE t (id int)" = "CREATE TEMPORARY TABLE t (id int)" ∧
      ';' ∉ "CREATE TEMPORARY TABLE t (id int)".toList ∧
      parenBalance "CREATE TEMPORARY TABLE t (id int)" = 0 ∧
      StatementKind.ofStatement? "CREATE TEMPORARY TABLE t (id int)" = some .createTable ∧
      statements "CREATE TEMPORARY TABLE t (id int)" ≠ ["CREATE TEMPORARY TABLE t (id int)"] := by
  decide +kernel

end SchemaDelta.Dump
