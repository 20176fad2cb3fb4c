import SchemaDelta.Proofs.Dump.Statements

/-!
# Walking over statements again

A statement that a walk has completed is completed again from its own fragments, whatever
fragments come behind it (`whole_of_mem_statements`). The invariant of the first walk is that
the definition that is open resumes: its own fragments lead a walk back to where it stands. So a
text in which whole statements stand one after another, each ended by a semicolon, has just these
statements (`statements_of_clean_eq`).
-/

namespace SchemaDelta.Dump

open Sql Text

/-- A walk makes one statement of the fragments of this text, whatever fragments come behind. -/
def Whole (s : Text) : Prop :=
  ∀ rest, walk none (pieces (· == ';') s ++ rest) = .statement s :: walk none rest

/-- A walk over the fragments of the open definition leads back to it, whatever fragments come
behind. -/
structure OpenTable.Resumes (table : OpenTable) : Prop where
  head : ∀ first ∈ table.statement.head?, ¬isBlank first
  walk_eq : ∀ rest,
    walk none (pieces (· == ';') table.statement ++ rest) = walk (some table) rest

/-- A fragment is cut no further. -/
theorem pieces_fragment {fragment : Text} (h : ';' ∉ fragment) :
    pieces (· == ';') fragment = [fragment] :=
  pieces_eq_singleton fun _ hc heq => h (beq_iff_eq.1 heq ▸ hc)

/-- What comes behind a semicolon is the last fragment. -/
theorem pieces_append_fragment (a : Text) {fragment : Text} (h : ';' ∉ fragment) :
    pieces (· == ';') (a ++ ';' :: fragment) = pieces (· == ';') a ++ [fragment] := by
  rw [pieces_append_cons a (by simp), pieces_fragment h]

/-! ## Blanks between fragments -/

/-- Blanks at the start of a text do not change the walk over its fragments. -/
theorem walk_trimStart (t : Text) :
    walk none (pieces (· == ';') (trimStart t)) = walk none (pieces (· == ';') t) := by
  induction t with
  | nil => rfl
  | cons c r ih =>
      by_cases hc : isBlank c
      · have hsemicolon : c ≠ ';' := by
          rintro rfl
          exact absurd hc (by decide)
        obtain ⟨first, others, hr, hcons⟩ := pieces_cons_of_ne hsemicolon r
        rw [trimStart, List.dropWhile_cons_of_pos hc, ← trimStart, ih, hcons, hr]
        simp only [walk, trim_cons hc]
      · rw [trimStart, List.dropWhile_cons_of_neg hc]

/-- A space in front of the first fragment changes nothing. -/
theorem walk_space (t : Text) :
    walk none (pieces (· == ';') (' ' :: t)) = walk none (pieces (· == ';') t) := by
  rw [← walk_trimStart, trimStart, List.dropWhile_cons_of_pos (by decide), ← trimStart,
    walk_trimStart]

/-! ## What a walk completes is whole -/

/-- A fragment that is a statement when it stands alone is whole. -/
theorem whole_of_complete {s : Text} {head : Head} (hsemicolon : ';' ∉ s) (htrim : trim s = s)
    (hhead : Head.ofFragment? s = some head)
    (hbalance : head = .createTable → parenBalance s = 0) : Whole s := by
  intro rest
  rw [← htrim] at hhead hbalance
  have hstep := WalkStep.complete hhead hbalance
  rw [pieces_fragment hsemicolon, List.singleton_append, hstep.walk_eq, htrim,
    List.singleton_append]

/-- Blanks have no parentheses. -/
theorem parenBalance_blanks {blanks : Text} (h : ∀ c ∈ blanks, isBlank c) :
    parenBalance blanks = 0 := by
  have hopen : '(' ∉ blanks := fun hmem => absurd (h _ hmem) (by decide)
  have hclose : ')' ∉ blanks := fun hmem => absurd (h _ hmem) (by decide)
  simp [parenBalance, List.count_eq_zero_of_not_mem hopen, List.count_eq_zero_of_not_mem hclose]

/-- The balance of a text does not count its blanks. -/
theorem parenBalance_trimEnd (t : Text) : parenBalance (trimEnd t) = parenBalance t := by
  obtain ⟨back, heq, hback⟩ := exists_trimEnd_append t
  conv_rhs => rw [← heq, parenBalance_append, parenBalance_blanks hback]
  omega

theorem parenBalance_trim (t : Text) : parenBalance (trim t) = parenBalance t := by
  obtain ⟨front, back, heq, hfront, hback⟩ := exists_append_trim_append t
  conv_rhs => rw [← heq, parenBalance_append, parenBalance_append, parenBalance_blanks hfront,
    parenBalance_blanks hback]
  omega

section Pending

variable {table : OpenTable} {fragment : Text}

/-- A definition that is opened resumes. -/
theorem resumes_of_opening (hsemicolon : ';' ∉ fragment)
    (hhead : Head.ofFragment? (trim fragment) = some .createTable)
    (hbalance : parenBalance (trim fragment) ≠ 0) :
    OpenTable.Resumes ⟨trim fragment, parenBalance (trim fragment)⟩ := by
  have hsemicolon' : ';' ∉ trim fragment := fun hmem =>
    hsemicolon ((trim_isInfix fragment).subset hmem)
  refine ⟨head?_trim fragment, fun rest => ?_⟩
  rw [← trim_trim] at hhead hbalance
  have hstep := WalkStep.opening hhead hbalance
  rw [pieces_fragment hsemicolon', List.singleton_append, hstep.walk_eq, trim_trim,
    List.nil_append]

/-- A definition that resumes still does with one more fragment. -/
theorem OpenTable.Resumes.extend (h : table.Resumes) (hsemicolon : ';' ∉ fragment)
    (hbalance : (table.extend fragment).balance ≠ 0) : (table.extend fragment).Resumes := by
  refine ⟨head?_append_cons h.head (by decide) fragment, fun rest => ?_⟩
  calc walk none (pieces (· == ';') (table.statement ++ ';' :: fragment) ++ rest)
    _ = walk none (pieces (· == ';') table.statement ++ fragment :: rest) := by
        rw [pieces_append_fragment _ hsemicolon, List.append_assoc, List.singleton_append]
    _ = walk (some table) (fragment :: rest) := h.walk_eq _
    _ = walk (some (table.extend fragment)) rest := (WalkStep.extending hbalance).walk_eq rest

/-- What completes a definition that resumes makes a whole statement of it. -/
theorem OpenTable.Resumes.whole (h : table.Resumes) (hsemicolon : ';' ∉ fragment)
    (hbalance : (table.extend fragment).balance = 0) :
    Whole (trim (table.extend fragment).statement) := by
  have htrim : trim (table.extend fragment).statement =
      (table.extend (trimEnd fragment)).statement :=
    trim_append_cons h.head (by decide) fragment
  have hsemicolon' : ';' ∉ trimEnd fragment := by
    obtain ⟨blanks, heq, -⟩ := exists_trimEnd_append fragment
    rw [← heq] at hsemicolon
    exact fun hmem => hsemicolon (List.mem_append_left _ hmem)
  have hbalance' : (table.extend (trimEnd fragment)).balance = 0 := by
    show table.balance + parenBalance (trimEnd fragment) = 0
    rw [parenBalance_trimEnd]
    exact hbalance
  intro rest
  calc walk none (pieces (· == ';') (trim (table.extend fragment).statement) ++ rest)
    _ = walk none (pieces (· == ';') table.statement ++ trimEnd fragment :: rest) := by
        rw [htrim, OpenTable.extend, pieces_append_fragment _ hsemicolon', List.append_assoc,
          List.singleton_append]
    _ = walk (some table) (trimEnd fragment :: rest) := h.walk_eq _
    _ = .statement (trim (table.extend (trimEnd fragment)).statement) :: walk none rest :=
        (WalkStep.closing hbalance').walk_eq rest
    _ = .statement (trim (table.extend fragment).statement) :: walk none rest := by
        rw [← htrim, trim_trim]

/-- A step from a definition that resumes makes whole statements and leaves definitions open that
resume. -/
theorem WalkStep.whole {pending left : Option OpenTable} {made : List Outcome}
    (h : WalkStep pending fragment made left) (hsemicolon : ';' ∉ fragment)
    (hpending : ∀ table ∈ pending, table.Resumes) :
    (∀ s, .statement s ∈ made → Whole s) ∧ ∀ table ∈ left, table.Resumes := by
  cases h with
  | blank | headless => simp
  | complete hhead hbalance =>
      refine ⟨fun s hs => ?_, by simp⟩
      obtain rfl := Outcome.statement.inj (List.mem_singleton.1 hs)
      have hsemicolon' : ';' ∉ trim fragment := fun hmem =>
        hsemicolon ((trim_isInfix fragment).subset hmem)
      exact whole_of_complete hsemicolon' (trim_trim fragment) hhead hbalance
  | opening hhead hbalance =>
      refine ⟨by simp, fun table htable => ?_⟩
      obtain rfl := Option.some.inj htable
      exact resumes_of_opening hsemicolon hhead hbalance
  | closing hbalance =>
      refine ⟨fun s hs => ?_, by simp⟩
      obtain rfl := Outcome.statement.inj (List.mem_singleton.1 hs)
      exact (hpending _ rfl).whole hsemicolon hbalance
  | extending hbalance =>
      refine ⟨by simp, fun longer hlonger => ?_⟩
      obtain rfl := Option.some.inj hlonger
      exact (hpending _ rfl).extend hsemicolon hbalance

end Pending

/-- Every statement of a dump is whole. -/
theorem whole_of_mem_statements {text s : Text} (hs : s ∈ statements text) : Whole s := by
  have hall : ∀ s ∈ statements text, Whole s := by
    refine forall_mem_statements OpenTable.Resumes ?_
    intro fragment hfragment _ _ _ h hpending
    exact h.whole (fun hmem => not_of_mem_pieces hfragment hmem (by simp)) hpending
  exact hall s hs

/-! ## Whole statements one after another -/

/-- A walk over whole statements, each ended by a semicolon, completes just them. -/
theorem walk_join {parts : List Text} (h : ∀ s ∈ parts, Whole s) :
    walk none (pieces (· == ';') (join " " (parts.map (· ++ ";")))) = parts.map .statement := by
  induction parts with
  | nil => rfl
  | cons first rest ih =>
      obtain ⟨hfirst, hrest⟩ := List.forall_mem_cons.1 h
      cases rest with
      | nil =>
          rw [List.map_singleton, join_singleton]
          show walk none (pieces (· == ';') (first ++ ';' :: [])) = [.statement first]
          rw [pieces_append_cons first (by simp), hfirst]
          rfl
      | cons second others =>
          have hjoin : join " " ((first :: second :: others).map (· ++ ";")) =
              first ++ ';' :: ' ' :: join " " ((second :: others).map (· ++ ";")) := by
            rw [List.map_cons, join_cons " " _ (by simp), List.append_assoc, List.append_assoc]
            rfl
          rw [hjoin, pieces_append_cons first (by simp), hfirst, walk_space, ih hrest]
          rfl

/-- A text whose clean form is made of whole statements, each ended by a semicolon, has just
these statements. -/
theorem statements_of_clean_eq {text : Text} {parts : List Text} (h : ∀ s ∈ parts, Whole s)
    (hclean : clean text = join " " (parts.map (· ++ ";"))) : statements text = parts := by
  rw [statements, outcomes, fragments, hclean, walk_join h, List.filterMap_map]
  exact List.filterMap_some

end SchemaDelta.Dump
