import SchemaDelta.Proofs.Dump.Column

/-!
# Indexes and constraints that clauses declare

The definition of an index or a constraint is the clause that declares it, and reading it again
gives the same index or constraint (`Index.Declared`, `Constraint.Declared`). A primary key is
also read back from its columns alone: `ofText_primaryKey` says so of the clause that a script
writes for it.
-/

namespace SchemaDelta

open Sql Text

namespace Dump

open Reader

/-- What may stand between the parentheses of a primary key: at least one name, and in the names
no quotation mark, comma, closing parenthesis or line feed. -/
structure IsKeyColumns (columns : List Text) : Prop where
  ne_nil : columns ≠ []
  not_isQuote : ∀ column ∈ columns, ∀ c ∈ column, ¬isQuote c
  comma_not_mem : ∀ column ∈ columns, ',' ∉ column
  paren_not_mem : ∀ column ∈ columns, ')' ∉ column
  newline_not_mem : ∀ column ∈ columns, '\n' ∉ column

theorem mem_of_mem_bareName {t : Text} {c : Char} (h : c ∈ bareName t) : c ∈ t ∧ ¬isQuote c := by
  obtain ⟨hmem, hquote⟩ := List.mem_filter.1 h
  exact ⟨(trim_isInfix t).subset hmem, by simpa using hquote⟩

/-- The names that a list on one line gives are columns of a key unless the list closes a
parenthesis. -/
theorem isKeyColumns_keyColumns {list : Text} (hparen : ')' ∉ list) (hline : '\n' ∉ list) :
    IsKeyColumns (keyColumns list) := by
  have hpart : ∀ column ∈ keyColumns list, ∃ piece ∈ pieces (· == ',') list,
      column = bareName piece := by
    intro column hcolumn
    obtain ⟨piece, hpiece, rfl⟩ := List.mem_map.1 hcolumn
    exact ⟨piece, hpiece, rfl⟩
  have hmem : ∀ column ∈ keyColumns list, column ⊆ list := by
    intro column hcolumn c hc
    obtain ⟨piece, hpiece, rfl⟩ := hpart column hcolumn
    exact (isInfix_of_mem_pieces hpiece).subset (mem_of_mem_bareName hc).1
  refine ⟨?_, ?_, ?_, fun column hcolumn hc => hparen (hmem column hcolumn hc),
    fun column hcolumn hc => hline (hmem column hcolumn hc)⟩
  · rw [keyColumns, Ne, List.map_eq_nil_iff]
    exact pieces_ne_nil _ _
  · intro column hcolumn c hc
    obtain ⟨piece, -, rfl⟩ := hpart column hcolumn
    exact (mem_of_mem_bareName hc).2
  · intro column hcolumn hc
    obtain ⟨piece, hpiece, rfl⟩ := hpart column hcolumn
    exact not_of_mem_pieces hpiece (mem_of_mem_bareName hc).1 (by decide)

/-- Texts without commas, listed, give their bare names. -/
theorem keyColumns_join_bareName {parts : List Text} (hne : parts ≠ [])
    (hcomma : ∀ part ∈ parts, ',' ∉ part) :
    keyColumns (join ", " parts) = parts.map bareName := by
  have hspaced : ∀ part ∈ spaced parts, ',' ∉ part :=
    forall_mem_spaced hcomma fun part hpart => by simpa using hcomma part hpart
  have hbare : ∀ texts : List Text,
      texts.map bareName = (texts.map trim).map (List.filter (!isQuote ·)) := fun texts =>
    List.map_map.symm
  have hpieces : pieces (· == ',') (join ", " parts) = spaced parts := by
    rw [join_spaced]
    exact pieces_join hspaced (spaced_ne_nil hne)
  rw [keyColumns, hpieces, hbare, map_trim_spaced, ← hbare]

/-- Columns of a key, quoted and listed, are the columns that the list gives. -/
theorem keyColumns_join {columns : List Text} (h : IsKeyColumns columns) :
    keyColumns (join ", " (columns.map quoteName)) = columns := by
  have hcomma : ∀ part ∈ columns.map quoteName, ',' ∉ part := by
    intro part hpart hc
    obtain ⟨column, hcolumn, rfl⟩ := List.mem_map.1 hpart
    have hc' : ',' ∈ column := by simpa [quoteName, nameMark] using hc
    exact h.comma_not_mem column hcolumn hc'
  rw [keyColumns_join_bareName (by simpa using h.ne_nil) hcomma, List.map_map]
  refine (List.map_congr_left fun column hcolumn => ?_).trans (List.map_id columns)
  exact bareName_quoteName (h.not_isQuote column hcolumn)

/-- The words `PRIMARY KEY` in front of a text are taken. -/
theorem run_primaryKeyWords (rest : Text) :
    primaryKeyWords.run ("PRIMARY KEY".toList ++ rest) = some ((), rest) := by
  have htext : "PRIMARY KEY".toList ++ rest =
      "PRIMARY".toList ++ ' ' :: ("KEY".toList ++ rest) := rfl
  rw [htext, primaryKeyWords, run_keywords_append (by decide) (by decide) (by simp; decide)]

/-- A clause that opens with the words `PRIMARY KEY` and a list in parentheses is read as the
primary key over what the list gives, whatever stands behind the list. -/
theorem ofText_primaryKeyList {clause list rest : Text}
    (hclause : clause = "PRIMARY KEY (" ++ (list ++ ')' :: rest)) (hne : list ≠ [])
    (hparen : ')' ∉ list) :
    Clause.ofText clause = .ok (.constraint (.primaryKey (keyColumns list) clause)) := by
  have hwords : clause = "PRIMARY KEY".toList ++ ([' '] ++ '(' :: (list ++ ')' :: rest)) := hclause
  have hhead : columnHead? clause = none := by
    have hword : IsName "PRIMARY" := by decide
    rw [hwords]
    exact columnHead?_of_opening hword (by decide) _
  have hmentions : mentions clause primaryKeyWords := by
    have hrun : (do primaryKeyWords; wordEnd : Reader Unit).run clause =
        some ((), [' '] ++ '(' :: (list ++ ')' :: rest)) := by
      rw [hwords]
      exact run_bind_eq_some_iff.2 ⟨(), _, run_primaryKeyWords _, rfl⟩
    rw [mentions, hasAtWord, firstAtWord_of_run hrun]
    rfl
  have hlist : keyColumnList.run clause = some (list, rest) := by
    rw [hwords]
    unfold keyColumnList
    refine run_bind_eq_some_iff.2 ⟨(), _, run_primaryKeyWords _, ?_⟩
    refine run_bind_eq_some_iff.2 ⟨(), _, rfl, ?_⟩
    refine run_bind_eq_some_iff.2 ⟨(), _, run_char_self '(' _, ?_⟩
    refine run_bind_eq_some_iff.2 ⟨list, ')' :: rest, ?_, ?_⟩
    · refine run_many1_append hne (fun c hc => ?_) (by simp)
      simpa using ne_of_mem_of_not_mem hc hparen
    · exact run_bind_eq_some_iff.2 ⟨(), rest, run_char_self ')' rest, rfl⟩
  rw [Clause.ofText, hhead]
  simp only [Clause.ofKey, hmentions, first_of_run hlist, if_true]

/-- The clause of a primary key over these columns. -/
def primaryKeyClause (columns : List Text) : Text :=
  "PRIMARY KEY (" ++ join ", " (columns.map quoteName) ++ ")"

/-- Columns, quoted and listed, are not nothing. -/
theorem IsKeyColumns.join_ne_nil {columns : List Text} (h : IsKeyColumns columns) :
    join ", " (columns.map quoteName) ≠ [] := by
  obtain ⟨first, others, rfl⟩ := List.exists_cons_of_ne_nil h.ne_nil
  intro hnil
  have hpart : quoteName first <:+: join ", " ((first :: others).map quoteName) :=
    isInfix_join (by simp)
  rw [hnil, List.infix_nil] at hpart
  simp [quoteName] at hpart

/-- Columns, quoted and listed, hold what they hold themselves, and commas, spaces and name
marks. -/
theorem mem_join_quoteName {columns : List Text} {c : Char}
    (h : c ∈ join ", " (columns.map quoteName)) (hbetween : c ∉ ", ".toList)
    (hmark : c ≠ nameMark) : ∃ column ∈ columns, c ∈ column := by
  rcases mem_join h with h | ⟨quoted, hquoted, h⟩
  · exact absurd h hbetween
  · obtain ⟨column, hcolumn, rfl⟩ := List.mem_map.1 hquoted
    exact ⟨column, hcolumn, by simpa [quoteName, hmark] using h⟩

/-- The clause of a primary key is read as the primary key over its columns. -/
theorem ofText_primaryKey {columns : List Text} (h : IsKeyColumns columns) :
    Clause.ofText (primaryKeyClause columns) =
      .ok (.constraint (.primaryKey columns (primaryKeyClause columns))) := by
  have hparen : ')' ∉ join ", " (columns.map quoteName) := by
    intro hmem
    obtain ⟨column, hcolumn, hmem⟩ := mem_join_quoteName hmem (by simp) (by decide)
    exact h.paren_not_mem column hcolumn hmem
  have hclause : primaryKeyClause columns =
      "PRIMARY KEY (" ++ (join ", " (columns.map quoteName) ++ ')' :: []) := rfl
  rw [ofText_primaryKeyList hclause h.join_ne_nil hparen, keyColumns_join h]

/-- The list of a primary key is a part of the clause without a closing parenthesis. -/
theorem run_keyColumnList_inv {t list rest : Text} (h : keyColumnList.run t = some (list, rest)) :
    ')' ∉ list ∧ list <:+: t := by
  unfold keyColumnList at h
  obtain ⟨_, behindWords, hwords, h⟩ := run_bind_eq_some_iff.1 h
  obtain ⟨_, behindBlanks, hblanks, h⟩ := run_bind_eq_some_iff.1 h
  obtain ⟨_, inside, hopen, h⟩ := run_bind_eq_some_iff.1 h
  obtain ⟨found, behindList, hlist, h⟩ := run_bind_eq_some_iff.1 h
  obtain ⟨_, _, hclose, h⟩ := run_bind_eq_some_iff.1 h
  obtain ⟨rfl, -⟩ : found = list ∧ _ = rest := by simpa using h
  constructor
  · intro hmem
    simpa using (gives_many1 _ hlist).2 ')' hmem
  · have hprefix : found <+: inside := ⟨behindList, (eq_append_of_run_many1 hlist).1.symm⟩
    have hshortens : Shortens primaryKeyWords :=
      shortens_keyword_gap (shortens_keyword _)
    have hinside : inside <:+ t :=
      (shortens_char _ hopen).trans ((shortens_blanks hblanks).trans (hshortens hwords))
    exact hprefix.isInfix.trans hinside.isInfix

theorem gives_nameAfter (words : Reader Unit) : Gives (nameAfter words) IsName :=
  .bind fun _ => .bind fun _ => .bind fun _ => gives_word

/-- What stands before the words `FOREIGN KEY` in a word is a name. -/
theorem isName_of_nameBeforeForeignKey {t name : Text}
    (h : nameBeforeForeignKey t = some name) : IsName name := by
  induction t generalizing name with
  | nil => simp [nameBeforeForeignKey] at h
  | cons c rest ih =>
      rw [nameBeforeForeignKey] at h
      split at h
      · next hc =>
        split at h
        · next longer hlonger =>
          obtain rfl := Option.some.inj h
          refine ⟨by simp, fun d hd => ?_⟩
          rcases List.mem_cons.1 hd with rfl | hd
          · exact hc
          · exact (ih hlonger).isWord d hd
        · obtain rfl : [c] = name := by simpa using (Option.ite_none_right_eq_some.1 h).2
          exact ⟨by simp, by simpa using hc⟩
      · simp at h

theorem gives_foreignKeyName : Gives foreignKeyName IsName := by
  refine .bind fun _ => .bind fun _ => .bind fun _ => fun t name rest hrun => ?_
  obtain ⟨known, hknown, heq⟩ := Option.map_eq_some_iff.1 hrun
  obtain ⟨rfl, -⟩ : known = name ∧ [] = rest := by simpa using heq
  exact isName_of_nameBeforeForeignKey hknown

/-- What a clause without a column front declares keeps the clause as its definition, and a primary
key on one line lists columns of a key. -/
theorem ofKey_inv {clause : Text} {declared : Clause} (h : Clause.ofKey clause = .ok declared) :
    (∃ columns, ('\n' ∉ clause → IsKeyColumns columns) ∧
      declared = .constraint (.primaryKey columns clause)) ∨
    (∃ name kind, IsName name ∧ kind ≠ .primaryKey ∧
      declared = .constraint (.named name kind clause)) ∨
    ∃ name, IsName name ∧ declared = .index ⟨name, clause⟩ := by
  unfold Clause.ofKey at h
  simp only at h
  -- One case for each sort of key, in the order in which a clause is asked for them.
  split at h
  · split at h
    · next list hlist =>
      obtain ⟨place, _, hplace, hrun⟩ := run_of_first hlist
      obtain ⟨hparen, hpart⟩ := run_keyColumnList_inv hrun
      have hlistLine : '\n' ∉ clause → '\n' ∉ list := fun hline hmem =>
        hline (hplace.subset (hpart.subset hmem))
      exact .inl ⟨_, fun hline => isKeyColumns_keyColumns hparen (hlistLine hline),
        (Except.ok.inj h).symm⟩
    · simp at h
  · split at h
    · split at h
      · next name hname =>
        exact .inr (.inl ⟨name, .uniqueKey, (gives_nameAfter _).first hname, by simp,
          (Except.ok.inj h).symm⟩)
      · simp at h
    · split at h
      · split at h
        · next name hname =>
          exact .inr (.inl ⟨name, .foreignKey, gives_foreignKeyName.first hname, by simp,
            (Except.ok.inj h).symm⟩)
        · simp at h
      · split at h
        · split at h
          · next name hname =>
            exact .inr (.inr ⟨name, (gives_nameAfter _).firstAtWord hname,
              (Except.ok.inj h).symm⟩)
          · simp at h
        · simp at h

end Dump

open Dump

/-- Read as a clause, the definition of the index gives the index. -/
structure Index.Declared (index : Index) : Prop where
  isName : IsName index.name
  tidy : Tidy index.definition
  ofText_definition : Clause.ofText index.definition = .ok (.index index)

/-- Read as a clause, the definition of the constraint gives the constraint. A primary key has
its fixed name and lists its columns. -/
structure Constraint.Declared (constraint : Constraint) : Prop where
  isName : IsName constraint.name
  tidy : Tidy constraint.definition
  ofText_definition : Clause.ofText constraint.definition = .ok (.constraint constraint)
  primary : constraint.kind = .primaryKey →
    constraint.name = Constraint.primaryName ∧ IsKeyColumns constraint.columns

/-- A declared constraint lists columns only if it is a primary key. -/
theorem Constraint.Declared.columns_eq_nil {constraint : Constraint} (h : constraint.Declared)
    (hkind : constraint.kind ≠ .primaryKey) : constraint.columns = [] := by
  have hread := h.ofText_definition
  rw [Clause.ofText] at hread
  split at hread
  · simp at hread
  · rcases ofKey_inv hread with
      ⟨columns, -, heq⟩ | ⟨name, kind, -, -, heq⟩ | ⟨name, -, heq⟩
    · exact absurd (congrArg Constraint.kind (Clause.constraint.inj heq)) hkind
    · exact congrArg Constraint.columns (Clause.constraint.inj heq)
    · simp at heq

/-- Constraints with the same definition are the same. -/
theorem Constraint.Declared.eq_of_definition_eq {a b : Constraint} (ha : a.Declared)
    (hb : b.Declared) (h : a.definition = b.definition) : a = b := by
  have heq := ha.ofText_definition
  rw [h, hb.ofText_definition] at heq
  exact (Clause.constraint.inj (Except.ok.inj heq)).symm

end SchemaDelta
