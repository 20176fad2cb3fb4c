import SchemaDelta.Proofs.Dump.Clause
import SchemaDelta.Proofs.Dump.Spelling
import SchemaDelta.Proofs.Sql.Listing

/-!
# Declarations and the clauses that write them

A declaration is a column, a key or a foreign key, and it is written as a clause in one way. Read
as a clause, this text declares just what it is written for (`Declaration.Lawful.ofText_text`).
The clause of a key is told from the other sorts by its first words, so it has to be silent about
the words of those that are asked for before.
-/

namespace SchemaDelta.Dump

open Sql Text Reader

/-- A type of a column as a definition writes it. Outside of its literals its parentheses balance
and commas stand only between parentheses; in the literals there is no parenthesis. Nothing in it
opens a comment, ends a statement or speaks of creating. -/
structure IsType (type : Text) : Prop extends Tidy type where
  startsWord : startsWord type
  closed : Closed type
  semicolon_not_mem : ';' ∉ type
  undashed : ¬occursIn "--" type
  unslashed : ¬occursIn "/*" type
  uncreated : ¬containsCaseless type "CREATE"

instance (type : Text) : Decidable (IsType type) :=
  decidable_of_iff (Tidy type ∧ startsWord type ∧ Closed type ∧ ';' ∉ type ∧
      ¬occursIn "--" type ∧ ¬occursIn "/*" type ∧ ¬containsCaseless type "CREATE")
    ⟨fun ⟨htidy, hword, hclosed, hsemicolon, hdash, hslash, hcreate⟩ =>
        ⟨htidy, hword, hclosed, hsemicolon, hdash, hslash, hcreate⟩,
      fun h => ⟨h.toTidy, h.startsWord, h.closed, h.semicolon_not_mem, h.undashed, h.unslashed,
        h.uncreated⟩⟩

/-- What a table definition declares. -/
inductive Declaration where
  | column (name type : Text)
  | primaryKey (columns : List Text)
  | uniqueKey (name : Text) (columns : List Text)
  | index (name : Text) (columns : List Text)
  | foreignKey (name : Text) (columns : List Text) (table : Text) (referenced : List Text)
  deriving DecidableEq

/-- The clause of a key: the words that open it, its name and its columns. -/
def keyClause (words name : Text) (columns : List Text) : Text :=
  words ++ (quoteName name ++ ' ' :: nameList columns)

/-- The clause of a foreign key. -/
def foreignKeyClause (name : Text) (columns : List Text) (table : Text)
    (referenced : List Text) : Text :=
  "CONSTRAINT " ++ (quoteName name ++ (" FOREIGN KEY " ++ (nameList columns ++
    keyClause " REFERENCES " table referenced)))

namespace Declaration

/-- The declaration as a clause. -/
def text : Declaration → Text
  | .column name type => quoteName name ++ ' ' :: type
  | .primaryKey columns => primaryKeyClause columns
  | .uniqueKey name columns => keyClause "UNIQUE KEY " name columns
  | .index name columns => keyClause "KEY " name columns
  | .foreignKey name columns table referenced => foreignKeyClause name columns table referenced

/-- What the clause has to declare. Columns and keys keep their clauses as definitions, and a
column is a primary key if its type says so. -/
def clause (declaration : Declaration) : Clause :=
  match declaration with
  | .column name type =>
    .column ⟨name, declaration.text, mentions type primaryKeyWords⟩
  | .primaryKey columns => .constraint (.primaryKey columns declaration.text)
  | .uniqueKey name _ => .constraint (.named name .uniqueKey declaration.text)
  | .index name _ => .index ⟨name, declaration.text⟩
  | .foreignKey name _ _ _ => .constraint (.named name .foreignKey declaration.text)

/-- All names in the declaration are names, lists are not empty, and a type is one. -/
def Lawful : Declaration → Prop
  | .column name type => IsName name ∧ IsType type
  | .primaryKey columns => IsNameList columns
  | .uniqueKey name columns | .index name columns => IsName name ∧ IsNameList columns
  | .foreignKey name columns table referenced =>
    IsName name ∧ IsNameList columns ∧ IsName table ∧ IsNameList referenced

instance : (declaration : Declaration) → Decidable declaration.Lawful
  | .column name type => inferInstanceAs (Decidable (IsName name ∧ IsType type))
  | .primaryKey columns => inferInstanceAs (Decidable (IsNameList columns))
  | .uniqueKey name columns | .index name columns =>
    inferInstanceAs (Decidable (IsName name ∧ IsNameList columns))
  | .foreignKey name columns table referenced => inferInstanceAs (Decidable
      (IsName name ∧ IsNameList columns ∧ IsName table ∧ IsNameList referenced))

end Declaration

variable {name type front rest : Text} {columns : List Text}

/-! ## Words in clauses -/

/-- Words that open a text are mentioned in it, if no word goes on behind them. -/
theorem mentions_of_run {words : Reader Unit} {clause : Text}
    (h : words.run clause = some ((), rest)) (hrest : ¬startsWord rest) :
    mentions clause words := by
  have hrun : (do words; wordEnd : Reader Unit).run clause = some ((), rest) :=
    run_bind_eq_some_iff.2 ⟨(), rest, h, if_neg hrest⟩
  exact hasAtWord_iff.2 ⟨[], clause, rfl, by simp, by rw [hrun]; rfl⟩

/-- A text that is silent about a keyword does not mention words that open with it. -/
theorem mentions_eq_false {k clause : Text} (h : Silent k clause) (r : Reader Unit) :
    mentions clause (do keyword k; gap; r) = false := by
  rw [← Bool.not_eq_true, mentions, hasAtWord_iff]
  rintro ⟨front, place, rfl, -, hrun⟩
  obtain ⟨_, hrun⟩ := Option.isSome_iff_exists.1 hrun
  obtain ⟨_, _, hwords, -⟩ := run_bind_eq_some_iff.1 hrun
  rw [h.run_eq_none (List.suffix_append front place)] at hwords
  simp at hwords

/-- The name behind the words of a key is read. -/
theorem run_nameAfter {words : Reader Unit} {clause : Text} (hname : IsName name)
    (h : words.run clause = some ((), ' ' :: (quoteName name ++ rest))) :
    (nameAfter words).run clause = some (name, nameMark :: rest) := by
  refine run_bind_eq_some_iff.2 ⟨(), _, h, ?_⟩
  refine run_bind_eq_some_iff.2 ⟨(), _, run_gap_space (head?_quoteName_append name rest), ?_⟩
  exact run_markedName .inNameMarks hname (by simp [NameStyle.mark]; decide)

/-! ## Columns -/

/-- Behind a space no word goes on. -/
theorem getLast?_append_space (front : Text) {more : Text}
    (h : ∀ c ∈ more.getLast?, ¬isWord c) : ∀ c ∈ (front ++ ' ' :: more).getLast?, ¬isWord c := by
  intro c hc
  rw [List.getLast?_append_of_ne_nil _ (by simp)] at hc
  cases more with
  | nil =>
      obtain rfl : ' ' = c := by simpa using hc
      decide
  | cons d r => exact h c (by simpa [List.getLast?_cons_cons] using hc)

/-- A column mentions just the words that its type mentions. -/
theorem mentions_column {k : Text} (hk : IsKeyword k) (hname : IsName name) (type : Text)
    (r : Reader Unit) : mentions (quoteName name ++ ' ' :: type) (do keyword k; gap; r) =
      mentions type (do keyword k; gap; r) := by
  have hspace : isBlank ' ' := by decide
  have hquoted : NameStyle.inNameMarks = .bare → name.map keywordFold ≠ k := by simp
  exact (mentions_write hk hname hquoted hspace type r).trans (mentions_cons hk hspace type r)

/-- The clause of a column is read as the column. -/
theorem ofText_column (hname : IsName name) (htype : IsType type) :
    Clause.ofText (quoteName name ++ ' ' :: type) = .ok (.column
      ⟨name, quoteName name ++ ' ' :: type, mentions type primaryKeyWords⟩) := by
  have hmentions : mentions (quoteName name ++ ' ' :: type) primaryKeyWords =
      mentions type primaryKeyWords :=
    mentions_column (by decide) hname type _
  rw [Clause.ofText, columnHead?_quoted hname htype.startsWord]
  simp only [ColumnHead.column, hmentions]

/-! ## Keys -/

/-- The columns of a key are columns as the list of a primary key has them. -/
theorem isKeyColumns_of_isNameList (h : IsNameList columns) : IsKeyColumns columns where
  ne_nil := h.ne_nil
  not_isQuote column hcolumn _ hc := (h.isName column hcolumn).not_isQuote hc
  comma_not_mem column hcolumn := (h.isName column hcolumn).not_mem (by decide)
  paren_not_mem column hcolumn := (h.isName column hcolumn).not_mem (by decide)
  newline_not_mem column hcolumn := (h.isName column hcolumn).newline_not_mem

/-- The clause of a key is silent about a keyword if its words are. -/
theorem woven_keyClause {P : Text → Prop} (hP : Woven P) {words : Text} (hwords : P words)
    (hname : IsName name) (hcolumns : IsNameList columns) : P (keyClause words name columns) := by
  have hlist := hP.nameList hcolumns.isName hP.nil hP.nil
  rw [List.nil_append, List.append_nil] at hlist
  refine hP.quoteName hname hwords (hP.space hlist ?_)
  simp [nameList]
  decide

theorem woven_foreignKeyClause {P : Text → Prop} (hP : Woven P)
    (hwords : P "CONSTRAINT " ∧ P " FOREIGN KEY " ∧ P " REFERENCES ") {table : Text}
    {referenced : List Text} (hname : IsName name) (hcolumns : IsNameList columns)
    (htable : IsName table) (hreferenced : IsNameList referenced) :
    P (foreignKeyClause name columns table referenced) :=
  hP.quoteName hname hwords.1 (hP.nameList hcolumns.isName hwords.2.1
    (woven_keyClause hP hwords.2.2 htable hreferenced))

/-- The words `UNIQUE KEY` in front of a space are taken. -/
theorem run_uniqueKeyWords (rest : Text) :
    uniqueKeyWords.run ("UNIQUE KEY " ++ rest) = some ((), ' ' :: rest) := by
  have htext : "UNIQUE KEY " ++ rest =
      "UNIQUE".toList ++ ' ' :: ("KEY".toList ++ ' ' :: rest) := by
    simp
  rw [htext, uniqueKeyWords, run_keyword_gap (by decide) (by simp; decide), keyWord, run_orElse,
    run_keyword_append (by decide)]
  rfl

/-- The clause of a unique key is read as the unique key. -/
theorem ofText_uniqueKey (hname : IsName name) (hcolumns : IsNameList columns) :
    Clause.ofText (keyClause "UNIQUE KEY " name columns) =
      .ok (.constraint (.named name .uniqueKey (keyClause "UNIQUE KEY " name columns))) := by
  have hsilent : Silent "PRIMARY" (keyClause "UNIQUE KEY " name columns) :=
    woven_keyClause (woven_silent (by decide)) (by decide +kernel) hname hcolumns
  have hprimary : mentions (keyClause "UNIQUE KEY " name columns) primaryKeyWords = false :=
    mentions_eq_false hsilent _
  have hrun := run_uniqueKeyWords (quoteName name ++ ' ' :: nameList columns)
  have hunique : mentions (keyClause "UNIQUE KEY " name columns) uniqueKeyWords :=
    mentions_of_run hrun (by simp [startsWord]; decide)
  have hfirst : first (nameAfter uniqueKeyWords) (keyClause "UNIQUE KEY " name columns) =
      some name := first_of_run (run_nameAfter hname hrun)
  have hhead : columnHead? (keyClause "UNIQUE KEY " name columns) = none := by
    have hword : IsName "UNIQUE" := by decide
    exact columnHead?_of_opening hword (by decide) _
  rw [Clause.ofText, hhead]
  simp only [Clause.ofKey, hprimary, hunique, hfirst, if_true, Bool.false_eq_true, if_false]

/-- The clause of an index is read as the index. -/
theorem ofText_index (hname : IsName name) (hcolumns : IsNameList columns) :
    Clause.ofText (keyClause "KEY " name columns) =
      .ok (.index ⟨name, keyClause "KEY " name columns⟩) := by
  have hsilent : ∀ k, IsKeyword k → Silent k "KEY " → Silent k (keyClause "KEY " name columns) :=
    fun k hk hwords => woven_keyClause (woven_silent hk) hwords hname hcolumns
  have hprimary : mentions (keyClause "KEY " name columns) primaryKeyWords = false :=
    mentions_eq_false (hsilent "PRIMARY" (by decide) (by decide +kernel)) _
  have hunique : mentions (keyClause "KEY " name columns) uniqueKeyWords = false :=
    mentions_eq_false (hsilent "UNIQUE" (by decide) (by decide +kernel)) _
  have hforeign : mentions (keyClause "KEY " name columns) foreignKeyWords = false :=
    mentions_eq_false (hsilent "FOREIGN" (by decide) (by decide +kernel)) _
  have hrun : keyWord.run ("KEY".toList ++ ' ' :: (quoteName name ++ ' ' :: nameList columns)) =
      some ((), ' ' :: (quoteName name ++ ' ' :: nameList columns)) := by
    rw [keyWord, run_orElse, run_keyword_append (by decide)]
    rfl
  have hkey : mentions (keyClause "KEY " name columns) keyWord :=
    mentions_of_run hrun (by simp [startsWord]; decide)
  have hfirst : firstAtWord (nameAfter keyWord) false (keyClause "KEY " name columns) =
      some name := firstAtWord_of_run (run_nameAfter hname hrun)
  have hhead : columnHead? (keyClause "KEY " name columns) = none := by
    have hword : IsName "KEY" := by decide
    exact columnHead?_of_opening hword (by decide) _
  rw [Clause.ofText, hhead]
  simp only [Clause.ofKey, hprimary, hunique, hforeign, hkey, hfirst, if_true,
    Bool.false_eq_true, if_false]

/-- The words `FOREIGN KEY` in front of a blank are taken. -/
theorem run_foreignKeyWords (rest : Text) :
    foreignKeyWords.run ("FOREIGN KEY" ++ rest) = some ((), rest) := by
  have htext : "FOREIGN KEY" ++ rest = "FOREIGN".toList ++ ' ' :: ("KEY".toList ++ rest) := by
    simp
  rw [htext, foreignKeyWords, run_keywords_append (by decide) (by decide) (by simp; decide)]

/-- The whole of a name is read in front of a mark behind which the words `FOREIGN KEY` follow. -/
theorem nameBeforeForeignKey_append (hname : IsName name)
    (hahead : foreignKeyAhead (nameMark :: rest)) :
    nameBeforeForeignKey (name ++ nameMark :: rest) = some name := by
  obtain ⟨hne, hword⟩ := hname
  have hstop : nameBeforeForeignKey (nameMark :: rest) = none := rfl
  induction name with
  | nil => exact absurd rfl hne
  | cons c others ih =>
      rw [List.cons_append, nameBeforeForeignKey, if_pos (hword c List.mem_cons_self)]
      by_cases hnil : others = []
      · subst hnil
        rw [List.nil_append, hstop]
        simp only [hahead, if_true]
      · rw [ih hnil fun d hd => hword d (List.mem_cons_of_mem c hd)]

/-- The words `FOREIGN KEY` are ahead where they are read. -/
theorem foreignKeyAhead_words (rest : Text) : foreignKeyAhead ("FOREIGN KEY" ++ rest) := by
  have hrun := run_foreignKeyWords rest
  show foreignKeyAhead ('F' :: ("OREIGN KEY" ++ rest))
  rw [foreignKeyAhead, Bool.or_eq_true]
  exact .inl (Option.isSome_iff_exists.2 ⟨_, hrun⟩)

/-- What is ahead of a place on a line is ahead of the place in front. -/
theorem foreignKeyAhead_cons {c : Char} (hc : c ≠ '\n') {t : Text} (h : foreignKeyAhead t) :
    foreignKeyAhead (c :: t) := by
  rw [foreignKeyAhead, Bool.or_eq_true, Bool.and_eq_true]
  exact .inr ⟨by simpa using hc, h⟩

/-- The name of a foreign key is read behind the word `CONSTRAINT` if the words `FOREIGN KEY`
are ahead. -/
theorem run_foreignKeyName_of_ahead (hname : IsName name) (hahead : foreignKeyAhead rest) :
    foreignKeyName.run ("CONSTRAINT " ++ (quoteName name ++ ' ' :: rest)) = some (name, []) := by
  have htext : "CONSTRAINT " ++ (quoteName name ++ ' ' :: rest) =
      "CONSTRAINT".toList ++ ' ' :: nameMark :: (name ++ nameMark :: ' ' :: rest) := by
    simp [quoteName]
  have hbehind : foreignKeyAhead (nameMark :: ' ' :: rest) :=
    foreignKeyAhead_cons (by decide) (foreignKeyAhead_cons (by decide) hahead)
  rw [htext, foreignKeyName, run_keyword_gap (by decide) (by simp; decide), StateT.run_bind,
    run_mark_cons (by decide)]
  show (nameBeforeForeignKey _).map _ = _
  rw [nameBeforeForeignKey_append hname hbehind]
  rfl

theorem run_foreignKeyName (hname : IsName name) (rest : Text) :
    foreignKeyName.run ("CONSTRAINT " ++ (quoteName name ++ (" FOREIGN KEY" ++ rest))) =
      some (name, []) :=
  run_foreignKeyName_of_ahead hname (foreignKeyAhead_words rest)

/-- The clause of a foreign key is read as the foreign key. -/
theorem ofText_foreignKey {table : Text} {referenced : List Text} (hname : IsName name)
    (hcolumns : IsNameList columns) (htable : IsName table) (hreferenced : IsNameList referenced) :
    Clause.ofText (foreignKeyClause name columns table referenced) =
      .ok (.constraint
        (.named name .foreignKey (foreignKeyClause name columns table referenced))) := by
  generalize hclause : foreignKeyClause name columns table referenced = clause
  have hsilent : ∀ k, IsKeyword k →
      (Silent k "CONSTRAINT " ∧ Silent k " FOREIGN KEY " ∧ Silent k " REFERENCES ") →
      Silent k clause := fun k hk hwords =>
    hclause ▸ woven_foreignKeyClause (woven_silent hk) hwords hname hcolumns htable hreferenced
  have hprimary : mentions clause primaryKeyWords = false :=
    mentions_eq_false (hsilent "PRIMARY" (by decide) (by decide +kernel)) _
  have hunique : mentions clause uniqueKeyWords = false :=
    mentions_eq_false (hsilent "UNIQUE" (by decide) (by decide +kernel)) _
  obtain ⟨rest, hrest⟩ : ∃ rest, clause =
      "CONSTRAINT " ++ (quoteName name ++ (" FOREIGN KEY" ++ ' ' :: rest)) := ⟨_, hclause.symm⟩
  have hforeign : mentions clause foreignKeyWords := by
    refine hasAtWord_iff.2 ⟨("CONSTRAINT " ++ quoteName name) ++ ' ' :: [],
      "FOREIGN KEY" ++ ' ' :: rest, ?_, getLast?_append_space _ (by simp), ?_⟩
    · rw [hrest]
      simp
    · rw [StateT.run_bind, run_foreignKeyWords]
      rfl
  have hfirst : first foreignKeyName clause = some name := by
    rw [hrest]
    exact first_of_run (run_foreignKeyName hname _)
  have hhead : columnHead? clause = none := by
    have hword : IsName "CONSTRAINT" := by decide
    rw [hrest]
    exact columnHead?_of_opening hword (by decide) _
  rw [Clause.ofText, hhead]
  simp only [Clause.ofKey, hprimary, hunique, hforeign, hfirst, if_true, Bool.false_eq_true,
    if_false]

/-- Read as a clause, the text of a declaration declares what it is written for. -/
theorem Declaration.Lawful.ofText_text {declaration : Declaration} (h : declaration.Lawful) :
    Clause.ofText declaration.text = .ok declaration.clause := by
  cases declaration with
  | column name type => exact ofText_column h.1 h.2
  | primaryKey columns => exact ofText_primaryKey (isKeyColumns_of_isNameList h)
  | uniqueKey name columns => exact ofText_uniqueKey h.1 h.2
  | index name columns => exact ofText_index h.1 h.2
  | foreignKey name columns table referenced =>
      obtain ⟨hname, hcolumns, htable, hreferenced⟩ := h
      exact ofText_foreignKey hname hcolumns htable hreferenced

end SchemaDelta.Dump
