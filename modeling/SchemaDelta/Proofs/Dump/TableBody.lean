import SchemaDelta.Dump.Entry
import SchemaDelta.Proofs.Sql.Nesting

/-!
# The body of a table definition

A text is balanced if, read with its quotation marks, it closes every parenthesis and every mark
that it opens and no others (`Balanced`). A statement has a balanced text as its body if the first
parenthesis of the statement stands in front of it and a closing one behind it (`HasBody`). What
one character does to the places of a reading is a relation of its own, and the scan for the body
follows it until the parenthesis that nothing in the body opens (`Step.bodyScan_step`,
`exists_step_or_end`). So the scan finds the body of every statement that has one and of no
other, and what stands around the body does not matter for the clauses (`tableBody_enclosed`).
-/

namespace SchemaDelta.Sql

open Text

namespace Nesting

/-- `Step place c behind` says that the character `c` leads from `place` to `behind`. A mark is
closed by the same mark, parentheses count only outside quotation marks, and none is closed that
is not open. -/
inductive Step : Nesting → Char → Nesting → Prop where
  | openMark {depth : Nat} {mark : Char} : mark ∈ bodyMarks →
      Step ⟨depth, none⟩ mark ⟨depth, some mark⟩
  | closeMark {depth : Nat} {mark : Char} : Step ⟨depth, some mark⟩ mark ⟨depth, none⟩
  | quoted {depth : Nat} {mark c : Char} : c ≠ mark →
      Step ⟨depth, some mark⟩ c ⟨depth, some mark⟩
  | openParen {depth : Nat} : Step ⟨depth, none⟩ '(' ⟨depth + 1, none⟩
  | closeParen {depth : Nat} : Step ⟨depth + 1, none⟩ ')' ⟨depth, none⟩
  | plain {depth : Nat} {c : Char} : c ∉ bodyMarks → c ≠ '(' → c ≠ ')' →
      Step ⟨depth, none⟩ c ⟨depth, none⟩

/-- `Leads place t behind` says that the text `t` leads from `place` to `behind`. -/
inductive Leads : Nesting → Text → Nesting → Prop where
  | nil {place : Nesting} : Leads place [] place
  | cons {place mid behind : Nesting} {c : Char} {rest : Text} : Step place c mid →
      Leads mid rest behind → Leads place (c :: rest) behind

variable {place behind : Nesting} {c : Char} {t body : Text}

/-- The scan for the body follows a step. -/
theorem Step.bodyScan_step (h : Step place c behind) (around : Int) :
    (place.bodyScan around).step bodyMarks c = behind.bodyScan around := by
  cases h with
  | openMark hmark => simp [bodyScan, Scan.step, hmark]
  | closeMark => simp [bodyScan, Scan.step]
  | quoted hne => simp [bodyScan, Scan.step, hne]
  | openParen => simp [bodyScan, Scan.step, bodyMarks, Int.add_assoc]
  | closeParen => simp [bodyScan, Scan.step, bodyMarks, ← Int.add_assoc]
  | plain hmark hopen hclose => simp [bodyScan, Scan.step, hmark, hopen, hclose]

/-- Every character is a step, but for the parenthesis that closes what is not open. -/
theorem exists_step_or_end (place : Nesting) (c : Char) :
    (∃ behind, Step place c behind) ∨ place = outside ∧ c = ')' := by
  obtain ⟨depth, quote⟩ := place
  cases quote with
  | some mark =>
      by_cases hmark : c = mark
      · subst hmark
        exact .inl ⟨_, .closeMark⟩
      · exact .inl ⟨_, .quoted hmark⟩
  | none =>
      by_cases hmark : c ∈ bodyMarks
      · exact .inl ⟨_, .openMark hmark⟩
      by_cases hopen : c = '('
      · subst hopen
        exact .inl ⟨_, .openParen⟩
      by_cases hclose : c = ')'
      · subst hclose
        cases depth with
        | zero => exact .inr ⟨rfl, rfl⟩
        | succ depth => exact .inl ⟨_, .closeParen⟩
      · exact .inl ⟨_, .plain hmark hopen hclose⟩

/-- In front of a step the scan for the body goes on. -/
theorem Step.untilClosed_cons (h : Step place c behind) (rest : Text) :
    untilClosed (place.bodyScan 1) (c :: rest) =
      (untilClosed (behind.bodyScan 1) rest).map (c :: ·) := by
  have hdepth : (behind.bodyScan 1).depth ≠ 0 := by
    show (1 : Int) + behind.depth ≠ 0
    omega
  rw [untilClosed, h.bodyScan_step, if_neg hdepth]

/-- At the parenthesis that closes what is not open it ends. -/
theorem untilClosed_end (rest : Text) : untilClosed (outside.bodyScan 1) (')' :: rest) = some [] :=
  rfl

/-- The scan takes a text that leads outside, up to the parenthesis behind it. -/
theorem Leads.untilClosed_eq (h : Leads place body outside) (rest : Text) :
    untilClosed (place.bodyScan 1) (body ++ ')' :: rest) = some body := by
  generalize hend : outside = behind at h
  induction h with
  | nil =>
      subst hend
      exact untilClosed_end rest
  | cons hstep _ ih =>
      rw [List.cons_append, hstep.untilClosed_cons, ih hend]
      rfl

/-- What the scan takes leads outside, and the parenthesis that ends it stands behind. -/
theorem leads_of_untilClosed (h : untilClosed (place.bodyScan 1) t = some body) :
    Leads place body outside ∧ ∃ rest, t = body ++ ')' :: rest := by
  induction t generalizing place body with
  | nil => simp [untilClosed] at h
  | cons c rest ih =>
      rcases exists_step_or_end place c with ⟨behind, hstep⟩ | ⟨rfl, rfl⟩
      · rw [hstep.untilClosed_cons, Option.map_eq_some_iff] at h
        obtain ⟨inner, hinner, rfl⟩ := h
        obtain ⟨hleads, after, rfl⟩ := ih hinner
        exact ⟨.cons hstep hleads, after, rfl⟩
      · rw [untilClosed_end] at h
        obtain rfl := Option.some.inj h
        exact ⟨.nil, rest, rfl⟩

end Nesting

/-! ## Statements with a body -/

/-- The text closes all that it opens and no more. -/
def Balanced (t : Text) : Prop := Nesting.outside.Leads t Nesting.outside

/-- The statement has this body: a balanced text behind its first parenthesis, with a closing
parenthesis behind it. -/
def HasBody (statement body : Text) : Prop :=
  ∃ front rest, '(' ∉ front ∧ Balanced body ∧ statement = front ++ '(' :: (body ++ ')' :: rest)

variable {statement body : Text}

/-- A statement without a parenthesis has nothing to scan. -/
theorem tableBody_eq_none (h : '(' ∉ statement) : tableBody statement = none := by
  have hdrop : statement.dropWhile (· ≠ '(') = [] := by
    rw [List.dropWhile_eq_nil_iff]
    intro c hc
    have hne : c ≠ '(' := fun heq => h (heq ▸ hc)
    simpa using hne
  rw [tableBody, hdrop]

/-- The scan finds a text exactly if it is the body of the statement. -/
theorem tableBody_eq_some_iff : tableBody statement = some body ↔ HasBody statement body := by
  constructor
  · intro h
    by_cases hparen : '(' ∈ statement
    · obtain ⟨front, t, rfl, hfront⟩ := List.eq_append_cons_of_mem hparen
      rw [tableBody_append_cons hfront] at h
      have hscan : untilClosed (Nesting.outside.bodyScan 1) t = some body := h
      obtain ⟨hbalanced, rest, rfl⟩ := Nesting.leads_of_untilClosed hscan
      exact ⟨front, rest, hfront, hbalanced, rfl⟩
    · simp [tableBody_eq_none hparen] at h
  · rintro ⟨front, rest, hfront, hbalanced, rfl⟩
    rw [tableBody_append_cons hfront]
    exact hbalanced.untilClosed_eq rest

end SchemaDelta.Sql

namespace SchemaDelta

open Sql

/-- The two tables have the same columns, indexes and constraints. -/
structure Table.Alike (table other : Table) : Prop where
  columns : table.columns = other.columns
  indexes : table.indexes = other.indexes
  constraints : table.constraints = other.constraints

namespace Dump

variable {table other : Table}

/-- Tables that are alike stay so with the same clauses added to both. -/
theorem alike_foldl_addTo (h : table.Alike other) (declared : List Clause) :
    (declared.foldl Clause.addTo table).Alike (declared.foldl Clause.addTo other) := by
  induction declared generalizing table other with
  | nil => exact h
  | cons clause rest ih =>
      obtain ⟨hcolumns, hindexes, hconstraints⟩ := h
      refine ih ?_
      cases clause with
      | column c => exact ⟨congrArg (·.insert c.name c) hcolumns, hindexes, hconstraints⟩
      | index i => exact ⟨hcolumns, congrArg (·.insert i.name i) hindexes, hconstraints⟩
      | constraint c => exact ⟨hcolumns, hindexes, congrArg (·.insert c.name c) hconstraints⟩

/-- A table that a statement defines is made of the clauses of its body, and what is left out
is left out of these. -/
theorem of_ofStatement_table {statement : Text} {skipped : List Skipped}
    (h : Entry.ofStatement statement = .ok (.table table skipped)) :
    ∃ name body, tableBody statement = some body ∧
      table = tableOfClauses name statement (clauses body) ∧
      skipped = (clauses body).filterMap (skippedClause? name) := by
  unfold Entry.ofStatement at h
  split at h <;> try simp at h
  next name _ =>
    cases hbody : tableBody statement with
    | none => simp [hbody] at h
    | some body =>
        simp only [hbody, Except.ok.injEq, Entry.table.injEq] at h
        exact ⟨name, body, rfl, h.1.symm, h.2.symm⟩

/-- The name of the table is only noted with what is left out. -/
theorem map_skippedClause? (name : Text) (clauses : List Text) :
    (clauses.filterMap (skippedClause? name)).map (fun left => (left.fragment, left.reason)) =
      (clauses.filterMap (skippedClause? [])).map fun left => (left.fragment, left.reason) := by
  rw [List.map_filterMap, List.map_filterMap]
  refine List.filterMap_congr fun clause _ => ?_
  unfold skippedClause?
  cases Clause.ofText clause <;> rfl

/-- For every statement, the scan finds a text exactly if it is the body of the statement, and it
finds nothing exactly if the statement has none. Two statements with the same body declare the
same columns, indexes and constraints, and the same clauses of them are left out for the same
reasons, whatever stands in front of the body and behind it. -/
theorem tableBody_enclosed (statement : Text) :
    (∀ body, tableBody statement = some body ↔ HasBody statement body) ∧
    (tableBody statement = none ↔ ∀ body, ¬HasBody statement body) ∧
    ∀ again body, HasBody statement body → HasBody again body →
      ∀ table other skipped skippedAgain,
        Entry.ofStatement statement = .ok (.table table skipped) →
        Entry.ofStatement again = .ok (.table other skippedAgain) →
        table.Alike other ∧
          skipped.map (fun left => (left.fragment, left.reason)) =
            skippedAgain.map fun left => (left.fragment, left.reason) := by
  refine ⟨fun _ => tableBody_eq_some_iff, ?_, ?_⟩
  · rw [Option.eq_none_iff_forall_ne_some]
    exact forall_congr' fun body => not_congr tableBody_eq_some_iff
  · intro again body hbody hagain table other skipped skippedAgain hread hreadAgain
    obtain ⟨name, found, hfound, rfl, rfl⟩ := of_ofStatement_table hread
    obtain ⟨nameAgain, foundAgain, hfoundAgain, rfl, rfl⟩ := of_ofStatement_table hreadAgain
    obtain rfl : body = found :=
      Option.some.inj ((tableBody_eq_some_iff.2 hbody).symm.trans hfound)
    obtain rfl : body = foundAgain :=
      Option.some.inj ((tableBody_eq_some_iff.2 hagain).symm.trans hfoundAgain)
    have hshell : Table.Alike { Table.shell name with definition := some statement }
        { Table.shell nameAgain with definition := some again } := ⟨rfl, rfl, rfl⟩
    refine ⟨alike_foldl_addTo hshell _, ?_⟩
    rw [map_skippedClause? name, map_skippedClause? nameAgain]

example : tableBody "CREATE TABLE t (a enum(')', \x22(\x22) NOT NULL) COMMENT='(v1'" =
    some "a enum(')', \x22(\x22) NOT NULL".toList := by decide

end Dump

end SchemaDelta
