import SchemaDelta.Dump.Clause
import SchemaDelta.Proofs.Dump.Key
import SchemaDelta.Proofs.Sql.Silent
import SchemaDelta.Proofs.Sql.StopsAt

/-!
# Clauses with a quotation mark in them

Most of what a clause is asked for is not read across the quotation mark of a literal: the front of
a column (`columnHead?_append_cons`), the words of a key (`mentions_append_cons`) and its name. Two
readings go across it, the list of a primary key that is open there and the words `FOREIGN KEY`
that decide about a name in front of them. `SameKeys` compares two texts by all that a clause is
asked for, and `SameKeys.append_cons` says when a text in front of the mark keeps them the same.
-/

namespace SchemaDelta.Dump

open Sql Text Reader

variable {a b b' : Text}

/-! ## The front of a column -/

/-- The front of a column with more text behind it. -/
def ColumnHead.extend (more : Text) (head : ColumnHead) : ColumnHead :=
  { head with rest := head.rest ++ more }

/-- The front of a column is read in front of the mark. -/
theorem run_columnHead_append_cons (a b : Text) : columnHead.run (a ++ '\'' :: b) =
    (columnHead.run a).map fun result =>
      (result.1.extend ('\'' :: b), result.2 ++ '\'' :: b) := by
  have hmark : StopsAt '\'' (mark nameMarks) := stopsAt_mark (by decide)
  refine hmark.run_bind fun marked left => ?_
  refine (stopsAt_word (by decide)).run_bind fun name left => ?_
  refine hmark.run_bind fun _ left => ?_
  -- What stands behind the name is kept, and it is asked for a gap and a word.
  have htype : StopsAt '\'' (do gap; satisfy isWord : Reader Char) :=
    (stopsAt_gap (by decide)).bind fun _ => stopsAt_satisfy (by decide)
  have hkept : ∀ t : Text, (do
      let rest ← get
      gap
      let _ ← satisfy isWord
      pure ⟨marked, name, rest⟩ : Reader ColumnHead).run t =
        ((do gap; satisfy isWord : Reader Char).run t).map fun result =>
          (⟨marked, name, t⟩, result.2) := by
    intro t
    show (gap >>= fun _ => satisfy isWord >>= fun _ => pure _).run t = _
    rw [StateT.run_bind, StateT.run_bind]
    cases gap.run t with
    | none => rfl
    | some result =>
        show (satisfy isWord >>= fun _ => pure _).run result.2 =
          ((satisfy isWord).run result.2).map _
        rw [StateT.run_bind]
        cases (satisfy isWord).run result.2 <;> rfl
  rw [hkept, hkept, htype left b, Option.map_map, Option.map_map]
  rfl

theorem columnHead?_append_cons (a b : Text) :
    columnHead? (a ++ '\'' :: b) = (columnHead? a).map (ColumnHead.extend ('\'' :: b)) := by
  rw [columnHead?, columnHead?, run_columnHead_append_cons]
  cases columnHead.run a with
  | none => rfl
  | some result =>
      show (if _ then none else some _) = Option.map _ (if _ then none else some _)
      rw [apply_ite (Option.map _)]
      rfl

/-! ## The words of keys -/

theorem stopsAt_primaryKeyWords : StopsAt '\'' primaryKeyWords :=
  stopsAt_keywords (by decide) (by decide) (by decide)

theorem stopsAt_foreignKeyWords : StopsAt '\'' foreignKeyWords :=
  stopsAt_keywords (by decide) (by decide) (by decide)

theorem stopsAt_keyWord : StopsAt '\'' keyWord :=
  (stopsAt_keyword (by decide)).orElse (stopsAt_keyword (by decide))

theorem stopsAt_uniqueKeyWords : StopsAt '\'' uniqueKeyWords :=
  stopsAt_keyword_gap (by decide) (by decide) stopsAt_keyWord

theorem stopsAt_nameAfter {words : Reader Unit} (h : StopsAt '\'' words) :
    StopsAt '\'' (nameAfter words) :=
  h.bind fun _ => (stopsAt_gap (by decide)).bind fun _ =>
    (stopsAt_mark (by decide)).bind fun _ => stopsAt_word (by decide)

/-- Words are mentioned in front of the mark or behind it. -/
theorem mentions_append_cons {words : Reader Unit} (h : StopsAt '\'' words)
    (hnil : words.run [] = none) (a b : Text) :
    mentions (a ++ '\'' :: b) words = (mentions a words || mentions b words) := by
  refine StopsAt.hasAtWord_append_cons (h.bind fun _ => stopsAt_wordEnd (by decide)) ?_ (by decide)
    a b
  rw [StateT.run_bind, hnil]
  rfl

/-! ## The list of a primary key -/

/-- The words `PRIMARY KEY` and the parenthesis that opens the list. -/
def keyListOpening : Reader Unit := do
  primaryKeyWords; blanks; char '('

/-- The list up to the parenthesis that closes it. -/
def keyListInside : Reader Text := do
  let list ← many1 (· ≠ ')')
  char ')'
  pure list

theorem keyColumnList_eq : keyColumnList = (do keyListOpening; keyListInside) := by
  simp [keyColumnList, keyListOpening, keyListInside]

theorem stopsAt_keyListOpening {c : Char} (hc : (keywordFold c).isUpper = false)
    (hblank : ¬isBlank c) (hparen : c ≠ '(') : StopsAt c keyListOpening := by
  have hmem : ∀ k, IsKeyword k → keywordFold c ∉ k := fun k hk => hk.not_mem hc
  have hwords : StopsAt c primaryKeyWords :=
    stopsAt_keywords (hmem _ (by decide)) hblank (hmem _ (by decide))
  exact hwords.bind fun _ => (stopsAt_blanks hblank).bind fun _ => stopsAt_char hparen

/-- A list is read up to the parenthesis that closes it. -/
theorem run_keyListInside {list : Text} (hne : list ≠ []) (hparen : ')' ∉ list) (rest : Text) :
    keyListInside.run (list ++ ')' :: rest) = some (list, rest) := by
  refine run_bind_eq_some_iff.2 ⟨list, ')' :: rest, run_many1_append hne ?_ (by simp), ?_⟩
  · intro c hc
    simpa using ne_of_mem_of_not_mem hc hparen
  · exact run_bind_eq_some_iff.2 ⟨(), rest, run_char_self ')' rest, rfl⟩

/-- A list that is closed in a text is read there, whatever follows. -/
theorem run_keyListInside_append (h : ')' ∈ a) (b : Text) : keyListInside.run (a ++ b) =
    (keyListInside.run a).map fun result => (result.1, result.2 ++ b) := by
  obtain ⟨list, rest, rfl, hparen⟩ := List.eq_append_cons_of_mem h
  rw [List.append_assoc, List.cons_append]
  by_cases hnil : list = []
  · subst hnil
    have hnone : ∀ t : Text, keyListInside.run ([] ++ ')' :: t) = none := fun _ => rfl
    rw [hnone, hnone]
    rfl
  · rw [run_keyListInside hnil hparen, run_keyListInside hnil hparen]
    rfl

/-- What is read as a list is closed. -/
theorem paren_mem_of_run {list rest : Text} (h : keyListInside.run a = some (list, rest)) :
    ')' ∈ a := by
  obtain ⟨_, behind, hlist, h⟩ := run_bind_eq_some_iff.1 h
  obtain ⟨_, _, hclose, -⟩ := run_bind_eq_some_iff.1 h
  obtain ⟨rfl, -⟩ := eq_append_of_run_many1 hlist
  refine List.mem_append_right _ ?_
  cases behind with
  | nil => simp [char, StateT.run] at hclose
  | cons c others =>
      by_cases hc : c = ')'
      · exact hc ▸ List.mem_cons_self
      · simp [char, StateT.run, hc] at hclose

/-- The list of a primary key is read in front of the mark, unless it is open there. -/
theorem run_keyColumnList_append_cons
    (h : ∀ left, keyListOpening.run a = some ((), left) → ')' ∈ left) (b : Text) :
    keyColumnList.run (a ++ '\'' :: b) =
      (keyColumnList.run a).map fun result => (result.1, result.2 ++ '\'' :: b) := by
  have hopening : StopsAt '\'' keyListOpening :=
    stopsAt_keyListOpening (by decide) (by decide) (by decide)
  rw [keyColumnList_eq, StateT.run_bind, StateT.run_bind, hopening a b]
  cases hrun : keyListOpening.run a with
  | none => rfl
  | some result => exact run_keyListInside_append (h result.2 hrun) _

/-- A list of a primary key is open at the end of the text. -/
def OpensKeyList (t : Text) : Prop :=
  ∃ place left, place <:+ t ∧ keyListOpening.run place = some ((), left) ∧ ')' ∉ left

/-- Where no list is opened none is open. -/
theorem not_opensKeyList (h : first keyListOpening a = none) : ¬OpensKeyList a := by
  rintro ⟨place, left, hplace, hrun, -⟩
  rw [first_eq_none_iff.1 h place hplace] at hrun
  simp at hrun

/-- Where no list is open, one is found in front of the mark or behind it. -/
theorem first_keyColumnList_append_cons (h : ¬OpensKeyList a) (b : Text) :
    first keyColumnList (a ++ '\'' :: b) =
      (first keyColumnList a).or (first keyColumnList b) := by
  induction a with
  | nil => rfl
  | cons c rest ih =>
      have hplace : ∀ left, keyListOpening.run (c :: rest) = some ((), left) → ')' ∈ left :=
        fun left hrun => by_contra fun hparen => h ⟨c :: rest, left, List.suffix_rfl, hrun, hparen⟩
      have hrest : ¬OpensKeyList rest := fun ⟨place, left, hsuffix, hopens⟩ =>
        h ⟨place, left, hsuffix.trans (List.suffix_cons c rest), hopens⟩
      rw [List.cons_append, first, first.eq_def keyColumnList (c :: rest), ← List.cons_append,
        run_keyColumnList_append_cons hplace]
      cases keyColumnList.run (c :: rest) with
      | none => exact ih hrest
      | some result => rfl

/-- A list that is found in front of the mark stays the first. -/
theorem first_keyColumnList_of_front {list : Text} (h : first keyColumnList a = some list)
    (b : Text) : first keyColumnList (a ++ '\'' :: b) = some list := by
  induction a with
  | nil =>
      have hnone : first keyColumnList [] = none := rfl
      simp [hnone] at h
  | cons c rest ih =>
      -- The parenthesis that closes the list closes every list that is open at its place.
      have hparen : ')' ∈ c :: rest := by
        obtain ⟨place, behind, hplace, hrun⟩ := run_of_first h
        rw [keyColumnList_eq] at hrun
        obtain ⟨_, left, hopening, hinside⟩ := run_bind_eq_some_iff.1 hrun
        have hshortens : Shortens keyListOpening :=
          (shortens_keyword_gap (shortens_keyword _)).bind fun _ =>
            shortens_blanks.bind fun _ => shortens_char _
        exact ((hshortens hopening).trans hplace).subset (paren_mem_of_run hinside)
      have hplace : ∀ left, keyListOpening.run (c :: rest) = some ((), left) → ')' ∈ left := by
        intro left hopening
        obtain ⟨before, behind, heq⟩ := List.append_of_mem hparen
        rw [heq, stopsAt_keyListOpening (by decide) (by decide) (by decide)] at hopening
        obtain ⟨result, -, hresult⟩ := Option.map_eq_some_iff.1 hopening
        obtain ⟨-, rfl⟩ := Prod.mk.inj hresult
        exact List.mem_append_right _ List.mem_cons_self
      rw [List.cons_append, first, ← List.cons_append, run_keyColumnList_append_cons hplace]
      rw [first] at h
      cases hrun : keyColumnList.run (c :: rest) with
      | none => exact ih (by simpa [hrun] using h)
      | some result => simpa [hrun] using h

/-- Where no list is found in front of the mark, one that is written behind it decides, or the end
of it where another list is open at the mark. -/
theorem exists_first_keyColumnList (h : first keyColumnList a = none) : ∃ front : Text,
    ∀ list rest : Text, list ≠ [] → ')' ∉ list →
      first keyColumnList (a ++ '\'' :: ("PRIMARY KEY (" ++ (list ++ ')' :: rest))) =
        some (front ++ list) := by
  have hopening : ∀ rest : Text,
      keyListOpening.run ("PRIMARY KEY (" ++ rest) = some ((), rest) := by
    intro rest
    have htext : "PRIMARY KEY (" ++ rest = "PRIMARY KEY".toList ++ ([' '] ++ '(' :: rest) := rfl
    rw [htext]
    refine run_bind_eq_some_iff.2 ⟨(), _, run_primaryKeyWords _, ?_⟩
    exact run_bind_eq_some_iff.2 ⟨(), _, rfl, run_char_self '(' rest⟩
  induction a with
  | nil =>
      refine ⟨[], fun list rest hne hparen => ?_⟩
      have hrun : keyColumnList.run ("PRIMARY KEY (" ++ (list ++ ')' :: rest)) =
          some (list, rest) := by
        rw [keyColumnList_eq]
        exact run_bind_eq_some_iff.2 ⟨(), _, hopening _, run_keyListInside hne hparen rest⟩
      exact (first_cons_of_none rfl).trans (first_of_run hrun)
  | cons c others ih =>
      rw [first] at h
      cases hrun : keyColumnList.run (c :: others) with
      | some result => simp [hrun] at h
      | none =>
          obtain ⟨front, hfront⟩ := ih (by simpa [hrun] using h)
          by_cases hplace : ∀ left, keyListOpening.run (c :: others) = some ((), left) → ')' ∈ left
          · refine ⟨front, fun list rest hne hparen => ?_⟩
            have hnone := run_keyColumnList_append_cons hplace
              ("PRIMARY KEY (" ++ (list ++ ')' :: rest))
            rw [hrun] at hnone
            exact (first_cons_of_none hnone).trans (hfront list rest hne hparen)
          · -- The list that is open takes in the words of the other one.
            push Not at hplace
            obtain ⟨left, hleft, hparen'⟩ := hplace
            refine ⟨left ++ '\'' :: "PRIMARY KEY (", fun list rest hne hparen => ?_⟩
            have htext : left ++ '\'' :: ("PRIMARY KEY (" ++ (list ++ ')' :: rest)) =
                (left ++ '\'' :: "PRIMARY KEY (" ++ list) ++ ')' :: rest := by
              simp
            have hinside : keyListInside.run
                (left ++ '\'' :: ("PRIMARY KEY (" ++ (list ++ ')' :: rest))) =
                  some (left ++ '\'' :: "PRIMARY KEY (" ++ list, rest) := by
              rw [htext]
              refine run_keyListInside (by simp) ?_ rest
              simp [hparen, hparen']
            have hopens : keyListOpening.run
                (c :: others ++ '\'' :: ("PRIMARY KEY (" ++ (list ++ ')' :: rest))) =
                  some ((), left ++ '\'' :: ("PRIMARY KEY (" ++ (list ++ ')' :: rest))) := by
              rw [stopsAt_keyListOpening (by decide) (by decide) (by decide), hleft]
              rfl
            have hlist : keyColumnList.run
                (c :: others ++ '\'' :: ("PRIMARY KEY (" ++ (list ++ ')' :: rest))) =
                  some (left ++ '\'' :: "PRIMARY KEY (" ++ list, rest) := by
              rw [keyColumnList_eq]
              exact run_bind_eq_some_iff.2 ⟨(), _, hopens, hinside⟩
            exact first_of_run hlist

/-! ## The name of a foreign key -/

/-- The words `FOREIGN KEY` are ahead in front of the mark, or behind it on the same line. -/
theorem foreignKeyAhead_append_cons (a b : Text) : foreignKeyAhead (a ++ '\'' :: b) =
    (foreignKeyAhead a || ('\n' ∉ a && foreignKeyAhead b)) := by
  induction a with
  | nil =>
      have hrun : (foreignKeyWords.run ('\'' :: b)).isSome = false := rfl
      have hstep : foreignKeyAhead ('\'' :: b) = foreignKeyAhead b := by
        rw [foreignKeyAhead, hrun]
        rfl
      simpa [foreignKeyAhead] using hstep
  | cons c rest ih =>
      have hrun : (foreignKeyWords.run (c :: rest ++ '\'' :: b)).isSome =
          (foreignKeyWords.run (c :: rest)).isSome := by
        rw [stopsAt_foreignKeyWords (c :: rest) b, Option.isSome_map]
      rw [List.cons_append] at hrun ⊢
      rw [foreignKeyAhead, foreignKeyAhead, hrun, ih]
      by_cases hc : c = '\n'
      · simp [hc]
      · simp [hc, Ne.symm hc, Bool.or_assoc]

/-- A name in front of the mark depends on what stands behind it only by what is ahead there. -/
theorem nameBeforeForeignKey_congr (h : foreignKeyAhead b = foreignKeyAhead b') (a : Text) :
    nameBeforeForeignKey (a ++ '\'' :: b) = nameBeforeForeignKey (a ++ '\'' :: b') := by
  induction a with
  | nil => rfl
  | cons c rest ih =>
      have hahead : foreignKeyAhead (rest ++ '\'' :: b) = foreignKeyAhead (rest ++ '\'' :: b') := by
        rw [foreignKeyAhead_append_cons, foreignKeyAhead_append_cons, h]
      rw [List.cons_append, List.cons_append, nameBeforeForeignKey, nameBeforeForeignKey, ih,
        hahead]

/-- So does the name of a foreign key. -/
theorem run_foreignKeyName_congr (h : foreignKeyAhead b = foreignKeyAhead b') (a : Text) :
    foreignKeyName.run (a ++ '\'' :: b) = foreignKeyName.run (a ++ '\'' :: b') := by
  refine (stopsAt_keyword (by decide)).run_bind_congr fun _ left => ?_
  refine (stopsAt_gap (by decide)).run_bind_congr fun _ left => ?_
  refine (stopsAt_mark (by decide)).run_bind_congr fun _ left => ?_
  show (nameBeforeForeignKey _).map _ = (nameBeforeForeignKey _).map _
  rw [nameBeforeForeignKey_congr h]

theorem first_foreignKeyName_congr (hahead : foreignKeyAhead b = foreignKeyAhead b')
    (h : first foreignKeyName b = first foreignKeyName b') (a : Text) :
    first foreignKeyName (a ++ '\'' :: b) = first foreignKeyName (a ++ '\'' :: b') := by
  induction a with
  | nil => exact h
  | cons c rest ih =>
      have hrun := run_foreignKeyName_congr hahead (c :: rest)
      rw [List.cons_append, List.cons_append] at hrun ⊢
      rw [first, first.eq_def foreignKeyName (c :: (rest ++ '\'' :: b')), hrun]
      cases foreignKeyName.run (c :: (rest ++ '\'' :: b')) with
      | none => exact ih
      | some result => rfl

/-! ## All that a clause is asked for -/

/-- All that a clause without the front of a column is asked for is the same in both texts. -/
structure SameKeys (a b : Text) : Prop where
  primaryKey : mentions a primaryKeyWords = mentions b primaryKeyWords
  uniqueKey : mentions a uniqueKeyWords = mentions b uniqueKeyWords
  foreignKey : mentions a foreignKeyWords = mentions b foreignKeyWords
  key : mentions a keyWord = mentions b keyWord
  columns : first keyColumnList a = first keyColumnList b
  uniqueName : first (nameAfter uniqueKeyWords) a = first (nameAfter uniqueKeyWords) b
  foreignName : first foreignKeyName a = first foreignKeyName b
  indexName : firstAtWord (nameAfter keyWord) false a = firstAtWord (nameAfter keyWord) false b
  ahead : foreignKeyAhead a = foreignKeyAhead b

theorem SameKeys.refl (a : Text) : SameKeys a a := ⟨rfl, rfl, rfl, rfl, rfl, rfl, rfl, rfl, rfl⟩

theorem SameKeys.symm (h : SameKeys a b) : SameKeys b a :=
  ⟨h.primaryKey.symm, h.uniqueKey.symm, h.foreignKey.symm, h.key.symm, h.columns.symm,
    h.uniqueName.symm, h.foreignName.symm, h.indexName.symm, h.ahead.symm⟩

theorem SameKeys.trans (h : SameKeys a b) (h' : SameKeys b b') : SameKeys a b' :=
  ⟨h.primaryKey.trans h'.primaryKey, h.uniqueKey.trans h'.uniqueKey,
    h.foreignKey.trans h'.foreignKey, h.key.trans h'.key, h.columns.trans h'.columns,
    h.uniqueName.trans h'.uniqueName, h.foreignName.trans h'.foreignName,
    h.indexName.trans h'.indexName, h.ahead.trans h'.ahead⟩

/-- A text in front of the mark keeps two texts the same, unless a list is open at the mark. -/
theorem SameKeys.append_cons (h : SameKeys b b') (ha : ¬OpensKeyList a) :
    SameKeys (a ++ '\'' :: b) (a ++ '\'' :: b') where
  primaryKey := by
    rw [mentions_append_cons stopsAt_primaryKeyWords rfl,
      mentions_append_cons stopsAt_primaryKeyWords rfl, h.primaryKey]
  uniqueKey := by
    rw [mentions_append_cons stopsAt_uniqueKeyWords rfl,
      mentions_append_cons stopsAt_uniqueKeyWords rfl, h.uniqueKey]
  foreignKey := by
    rw [mentions_append_cons stopsAt_foreignKeyWords rfl,
      mentions_append_cons stopsAt_foreignKeyWords rfl, h.foreignKey]
  key := by
    rw [mentions_append_cons stopsAt_keyWord rfl, mentions_append_cons stopsAt_keyWord rfl, h.key]
  columns := by
    rw [first_keyColumnList_append_cons ha, first_keyColumnList_append_cons ha, h.columns]
  uniqueName := by
    rw [(stopsAt_nameAfter stopsAt_uniqueKeyWords).first_append_cons rfl,
      (stopsAt_nameAfter stopsAt_uniqueKeyWords).first_append_cons rfl, h.uniqueName]
  foreignName := first_foreignKeyName_congr h.ahead h.foreignName a
  indexName := by
    rw [StopsAt.firstAtWord_append_cons (stopsAt_nameAfter stopsAt_keyWord) rfl (by decide),
      StopsAt.firstAtWord_append_cons (stopsAt_nameAfter stopsAt_keyWord) rfl (by decide),
      h.indexName]
  ahead := by
    rw [foreignKeyAhead_append_cons, foreignKeyAhead_append_cons, h.ahead]

end SchemaDelta.Dump
