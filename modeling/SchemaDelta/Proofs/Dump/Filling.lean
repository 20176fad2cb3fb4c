import Mathlib.Data.Bool.AllAny
import SchemaDelta.Proofs.Dump.Fence
import SchemaDelta.Proofs.Dump.Spelling
import SchemaDelta.Proofs.Text.Literals

/-!
# What a clause declares, whatever its literals say

A frame is a clause with gaps for the texts of its literals. What fills the gaps does not matter to
a frame with the front of a column in front of them, nor to one with the list of a primary key there
that mentions the key outside of them. No other frame with a gap is safe: a text that speaks of a
primary key turns what is declared into one. `headingOf_fill` says which frames are safe, and which
texts leave what a frame declares as it is.
-/

namespace SchemaDelta.Dump

open Sql Text Reader

/-! ## What a clause declares -/

/-- What a clause declares, without its text. -/
inductive Heading where
  | column (name : Text)
  | index (name : Text)
  | constraint (kind : ConstraintKind) (name : Text) (columns : List Text)
  deriving DecidableEq

def Clause.heading : Clause → Heading
  | .column c => .column c.name
  | .index i => .index i.name
  | .constraint c => .constraint c.kind c.name c.columns

/-- What a text declares as a clause, or why it is left out. -/
def headingOf (clause : Text) : Except SkipReason Heading :=
  (Clause.ofText clause).map Clause.heading

variable {clause : Text}

theorem headingOf_of_column {head : ColumnHead} (h : columnHead? clause = some head) :
    headingOf clause = .ok (.column head.name) := by
  rw [headingOf, Clause.ofText, h]
  rfl

theorem headingOf_of_key (h : columnHead? clause = none) :
    headingOf clause = (Clause.ofKey clause).map Clause.heading := by
  rw [headingOf, Clause.ofText, h]

/-- A clause declares a column exactly if it has the front of one. -/
theorem headingOf_eq_column_iff {name : Text} : headingOf clause = .ok (.column name) ↔
    (columnHead? clause).map ColumnHead.name = some name := by
  cases h : columnHead? clause with
  | some head => simp [headingOf_of_column h]
  | none =>
      rw [headingOf_of_key h]
      cases hkey : Clause.ofKey clause with
      | error reason => simp [Except.map]
      | ok declared =>
          cases declared with
          | column c => exact absurd hkey (ofKey_ne_column clause c)
          | index | constraint => simp [Except.map, Clause.heading]

/-- What a clause without the front of a column declares, by what it is asked for. -/
theorem heading_ofKey (clause : Text) : (Clause.ofKey clause).map Clause.heading =
    if mentions clause primaryKeyWords then
      (first keyColumnList clause).elim (.error .missingKeyColumns) fun list =>
        .ok (.constraint .primaryKey Constraint.primaryName (keyColumns list))
    else if mentions clause uniqueKeyWords then
      (first (nameAfter uniqueKeyWords) clause).elim (.error (.missingName .uniqueKey)) fun name =>
        .ok (.constraint .uniqueKey name [])
    else if mentions clause foreignKeyWords then
      (first foreignKeyName clause).elim (.error (.missingName .foreignKey)) fun name =>
        .ok (.constraint .foreignKey name [])
    else if mentions clause keyWord then
      (firstAtWord (nameAfter keyWord) false clause).elim (.error (.missingName .index)) fun name =>
        .ok (.index name)
    else .error .unrecognizedClause := by
  rw [Clause.ofKey]
  split
  · cases first keyColumnList clause <;> rfl
  split
  · cases first (nameAfter uniqueKeyWords) clause <;> rfl
  split
  · cases first foreignKeyName clause <;> rfl
  split
  · cases firstAtWord (nameAfter keyWord) false clause <;> rfl
  · rfl

/-- Two texts without the front of a column declare the same, if all that they are asked for is the
same. -/
theorem SameKeys.heading_eq {a b : Text} (h : SameKeys a b) :
    (Clause.ofKey a).map Clause.heading = (Clause.ofKey b).map Clause.heading := by
  rw [heading_ofKey, heading_ofKey, h.primaryKey, h.uniqueKey, h.foreignKey, h.key, h.columns,
    h.uniqueName, h.foreignName, h.indexName]

/-- A clause that mentions a primary key declares the one over its first list. -/
theorem headingOf_primaryKey (hhead : columnHead? clause = none)
    (hmentions : mentions clause primaryKeyWords) {list : Text}
    (hlist : first keyColumnList clause = some list) :
    headingOf clause = .ok (.constraint .primaryKey Constraint.primaryName (keyColumns list)) := by
  rw [headingOf_of_key hhead, heading_ofKey, if_pos hmentions, hlist]
  rfl

/-- A clause that mentions none declares none. -/
theorem headingOf_ne_primaryKey (hhead : columnHead? clause = none)
    (hmentions : ¬mentions clause primaryKeyWords) (name : Text) (columns : List Text) :
    headingOf clause ≠ .ok (.constraint .primaryKey name columns) := by
  rw [headingOf_of_key hhead, heading_ofKey, if_neg hmentions]
  split
  · cases first (nameAfter uniqueKeyWords) clause <;> simp
  split
  · cases first foreignKeyName clause <;> simp
  split
  · cases firstAtWord (nameAfter keyWord) false clause <;> simp
  · simp

/-! ## Frames -/

/-- A clause with gaps for the texts of its literals. -/
structure Frame where
  /-- What stands in front of the first literal. -/
  front : Text
  /-- What stands behind each literal, up to the next one or the end. -/
  behinds : List Text
  deriving DecidableEq

/-- A front with a literal in front of each of the texts behind it. -/
def fillBehind (front : Text) : List Text → List Text → Text
  | behind :: behinds, literal :: literals =>
    front ++ '\'' :: (literal ++ '\'' :: fillBehind behind behinds literals)
  | _, _ => front

namespace Frame

/-- The clause with these texts in its literals. -/
def fill (frame : Frame) (literals : List Text) : Text :=
  fillBehind frame.front frame.behinds literals

/-- The frame has a gap for each of these texts, and in none of them is a quotation mark. -/
structure Fits (frame : Frame) (literals : List Text) : Prop where
  length_eq : literals.length = frame.behinds.length
  not_isQuote : ∀ literal ∈ literals, ∀ c ∈ literal, ¬isQuote c

/-- Whatever its literals say, the clause declares the same. -/
def Safe (frame : Frame) : Prop :=
  ∀ literals others, frame.Fits literals → frame.Fits others →
    headingOf (frame.fill literals) = headingOf (frame.fill others)

/-- No list of a primary key is open where a literal stands. -/
def Shut (frame : Frame) : Prop :=
  ∀ part ∈ (frame.front :: frame.behinds).dropLast, ¬OpensKeyList part

/-- The texts that leave all literals empty. -/
def blank (frame : Frame) : List Text := frame.behinds.map fun _ => []

end Frame

variable {frame : Frame} {front literal : Text} {behinds literals : List Text}

/-- The front of a column is read in front of the first literal. -/
theorem columnName_fill (frame : Frame) (literals : List Text) :
    (columnHead? (frame.fill literals)).map ColumnHead.name =
      (columnHead? frame.front).map ColumnHead.name := by
  obtain ⟨front, behinds⟩ := frame
  rw [Frame.fill]
  cases behinds with
  | nil => rfl
  | cons behind behinds =>
      cases literals with
      | nil => rfl
      | cons literal literals =>
          rw [fillBehind, columnHead?_append_cons, Option.map_map]
          rfl

/-- So a frame with the front of a column declares this column, -/
theorem headingOf_fill_column {head : ColumnHead} (h : columnHead? frame.front = some head)
    (literals : List Text) : headingOf (frame.fill literals) = .ok (.column head.name) := by
  rw [headingOf_eq_column_iff, columnName_fill, h]
  rfl

/-- and one without it declares none. -/
theorem columnHead?_fill_eq_none (h : columnHead? frame.front = none) (literals : List Text) :
    columnHead? (frame.fill literals) = none := by
  have hname := columnName_fill frame literals
  rw [h] at hname
  exact Option.map_eq_none_iff.1 hname

/-- Words are mentioned in some part of the clause or in some literal. -/
theorem mentions_fillBehind {words : Reader Unit} (h : StopsAt '\'' words)
    (hnil : words.run [] = none) (front : Text) (hlength : literals.length = behinds.length) :
    mentions (fillBehind front behinds literals) words ↔
      (∃ part ∈ front :: behinds, mentions part words) ∨
        ∃ literal ∈ literals, mentions literal words := by
  induction behinds generalizing front literals with
  | nil =>
      obtain rfl := List.eq_nil_of_length_eq_zero hlength
      simp [fillBehind]
  | cons behind behinds ih =>
      cases literals with
      | nil => simp at hlength
      | cons literal literals =>
          rw [fillBehind, mentions_append_cons h hnil, mentions_append_cons h hnil,
            Bool.or_eq_true, Bool.or_eq_true, ih behind (by simpa using hlength)]
          simp only [List.exists_mem_cons_iff, or_assoc, or_left_comm]

theorem mentions_fill {words : Reader Unit} (h : StopsAt '\'' words) (hnil : words.run [] = none)
    (hlength : literals.length = frame.behinds.length) : mentions (frame.fill literals) words ↔
      (∃ part ∈ frame.front :: frame.behinds, mentions part words) ∨
        ∃ literal ∈ literals, mentions literal words :=
  mentions_fillBehind h hnil frame.front hlength

/-! ## Literals that speak of no key -/

/-- The text of a literal is on one line and speaks of no key. -/
structure Keyless (literal : Text) : Prop where
  key : ¬mentions literal keyWord
  foreignKey : first foreignKeyWords literal = none
  silent : Silent "CONSTRAINT" literal
  line : '\n' ∉ literal

instance (literal : Text) : Decidable (Keyless literal) :=
  decidable_of_iff (¬mentions literal keyWord ∧ first foreignKeyWords literal = none ∧
      Silent "CONSTRAINT" literal ∧ '\n' ∉ literal)
    ⟨fun ⟨hkey, hforeign, hsilent, hline⟩ => ⟨hkey, hforeign, hsilent, hline⟩,
      fun h => ⟨h.key, h.foreignKey, h.silent, h.line⟩⟩

/-- Where the word of a key is read behind another word, it is mentioned. -/
theorem mentions_keyWord_of_run {k place left : Text} {words : Reader Unit}
    (hwords : ∀ {t left : Text}, words.run t = some ((), left) → keyWord.run t = some ((), left))
    (hplace : place <:+ literal) (hrun : (do keyword k; gap; words).run place = some ((), left))
    (hend : ¬startsWord left) : mentions literal keyWord := by
  obtain ⟨_, _, hkeyword, hrun⟩ := run_bind_eq_some_iff.1 hrun
  obtain ⟨_, behind, hgap, hkey⟩ := run_bind_eq_some_iff.1 hrun
  obtain ⟨spelling, rfl, -⟩ := run_keyword_inv hkeyword
  obtain ⟨between, rfl, hne, hblank⟩ := run_gap_inv hgap
  obtain ⟨before, rfl⟩ := hplace
  refine hasAtWord_iff.2 ⟨before ++ (spelling ++ between), behind, by simp, fun c hc => ?_, ?_⟩
  · rw [← List.append_assoc, List.getLast?_append_of_ne_nil _ hne] at hc
    simp [isWord_eq_false_of_isBlank (hblank c (List.mem_of_getLast? hc))]
  · rw [StateT.run_bind, hwords hkey]
    simp [wordEnd, StateT.run, hend]

theorem run_keyWord_of_key {t left : Text} (h : (keyword "KEY").run t = some ((), left)) :
    keyWord.run t = some ((), left) := by
  rw [keyWord, run_orElse, h]
  rfl

/-- Where the name of a key is read, no word goes on behind the words in front of it. -/
theorem not_startsWord_of_run_gap {t left : Text} (h : gap.run t = some ((), left)) :
    ¬startsWord t := by
  obtain ⟨between, rfl, hne, hblank⟩ := run_gap_inv h
  obtain ⟨c, others, rfl⟩ := List.exists_cons_of_ne_nil hne
  simp [startsWord, isWord_eq_false_of_isBlank (hblank c List.mem_cons_self)]

namespace Keyless

/-- Words that end with the word of a key are not mentioned. -/
theorem mentions_eq_false (h : Keyless literal) {k : Text} {words : Reader Unit}
    (hwords : ∀ {t left : Text}, words.run t = some ((), left) → keyWord.run t = some ((), left)) :
    mentions literal (do keyword k; gap; words) = false := by
  rw [← Bool.not_eq_true]
  intro hmentions
  obtain ⟨front, place, rfl, -, hrun⟩ := hasAtWord_iff.1 hmentions
  obtain ⟨⟨_, _⟩, hrun⟩ := Option.isSome_iff_exists.1 hrun
  obtain ⟨_, left, hrun, hend⟩ := run_bind_eq_some_iff.1 hrun
  refine h.key (mentions_keyWord_of_run hwords (List.suffix_append front place) hrun ?_)
  intro hstarts
  simp [wordEnd, StateT.run, hstarts] at hend

/-- Nor is a list opened. -/
theorem run_keyListOpening_eq_none (h : Keyless literal) {place : Text}
    (hplace : place <:+ literal) : keyListOpening.run place = none := by
  rw [Option.eq_none_iff_forall_ne_some]
  rintro ⟨_, left⟩ hrun
  obtain ⟨_, behind, hwords, hrun⟩ := run_bind_eq_some_iff.1 hrun
  obtain ⟨_, _, hblanks, hparen⟩ := run_bind_eq_some_iff.1 hrun
  refine h.key (mentions_keyWord_of_run (k := "PRIMARY") run_keyWord_of_key hplace hwords ?_)
  cases behind with
  | nil => simp [startsWord]
  | cons c others =>
      by_cases hc : isBlank c
      · simp [startsWord, isWord_eq_false_of_isBlank hc]
      · obtain rfl : (c :: others).dropWhile isBlank = _ :=
          (Prod.mk.inj (Option.some.inj hblanks)).2
        rw [List.dropWhile_cons_of_neg hc] at hparen
        by_cases hopens : c = '('
        · subst hopens
          exact of_decide_eq_true rfl
        · simp [char, StateT.run, hopens] at hparen

/-- Nor is a name read behind such words. -/
theorem first_nameAfter_eq_none (h : Keyless literal) :
    first (nameAfter uniqueKeyWords) literal = none := by
  refine first_eq_none_iff.2 fun place hplace => ?_
  rw [Option.eq_none_iff_forall_ne_some]
  rintro ⟨_, left⟩ hrun
  obtain ⟨_, behind, hwords, hrun⟩ := run_bind_eq_some_iff.1 hrun
  obtain ⟨_, _, hgap, -⟩ := run_bind_eq_some_iff.1 hrun
  exact h.key (mentions_keyWord_of_run (k := "UNIQUE") id hplace hwords
    (not_startsWord_of_run_gap hgap))

/-- Nor behind that word alone. -/
theorem firstAtWord_eq_none (h : Keyless literal) :
    firstAtWord (nameAfter keyWord) false literal = none := by
  rw [Option.eq_none_iff_forall_ne_some]
  intro name hfirst
  obtain ⟨front, place, _, rfl, hlast, -, hrun⟩ := run_of_firstAtWord hfirst
  obtain ⟨_, behind, hkey, hrun⟩ := run_bind_eq_some_iff.1 hrun
  obtain ⟨_, _, hgap, -⟩ := run_bind_eq_some_iff.1 hrun
  refine h.key (hasAtWord_iff.2 ⟨front, place, rfl, hlast, ?_⟩)
  rw [StateT.run_bind, hkey]
  simp [wordEnd, StateT.run, not_startsWord_of_run_gap hgap]

/-- The words `FOREIGN KEY` are not ahead in it. -/
theorem foreignKeyAhead_eq_false (h : first foreignKeyWords literal = none) :
    foreignKeyAhead literal = false := by
  induction literal with
  | nil => rfl
  | cons c rest ih =>
      rw [first] at h
      cases hrun : foreignKeyWords.run (c :: rest) with
      | some result => simp [hrun] at h
      | none => simp [foreignKeyAhead, hrun, ih (by simpa [hrun] using h)]

/-- The name of a foreign key is looked for behind it. -/
theorem first_foreignKeyName (h : Silent "CONSTRAINT" literal) (t : Text) :
    first foreignKeyName (literal ++ '\'' :: t) = first foreignKeyName t := by
  induction literal with
  | nil => rfl
  | cons c rest ih =>
      have hstops : StopsAt '\'' (do keyword "CONSTRAINT"; gap : Reader Unit) :=
        (stopsAt_keyword (by decide)).bind fun _ => stopsAt_gap (by decide)
      have hnone : (do keyword "CONSTRAINT"; gap : Reader Unit).run (c :: rest ++ '\'' :: t) =
          none := by
        rw [hstops, first_eq_none_iff.1 h _ List.suffix_rfl]
        rfl
      have hrun : foreignKeyName.run (c :: rest ++ '\'' :: t) = none := by
        rw [Option.eq_none_iff_forall_ne_some]
        rintro ⟨_, left⟩ hrun
        obtain ⟨_, _, hkeyword, hrun⟩ := run_bind_eq_some_iff.1 hrun
        obtain ⟨_, _, hgap, -⟩ := run_bind_eq_some_iff.1 hrun
        rw [run_bind_eq_some_iff.2 ⟨(), _, hkeyword, hgap⟩] at hnone
        simp at hnone
      refine (first_cons_of_none hrun).trans (ih ?_)
      exact first_eq_none_iff.2 fun place hplace =>
        first_eq_none_iff.1 h place (hplace.trans (List.suffix_cons c rest))

/-- What a clause is asked for is looked for behind it. -/
theorem sameKeys (h : Keyless literal) (t : Text) : SameKeys (literal ++ '\'' :: t) t where
  primaryKey := by
    have hnone : mentions literal primaryKeyWords = false := h.mentions_eq_false run_keyWord_of_key
    rw [mentions_append_cons stopsAt_primaryKeyWords rfl, hnone, Bool.false_or]
  uniqueKey := by
    have hnone : mentions literal uniqueKeyWords = false := h.mentions_eq_false id
    rw [mentions_append_cons stopsAt_uniqueKeyWords rfl, hnone, Bool.false_or]
  foreignKey := by
    have hnone : mentions literal foreignKeyWords = false := h.mentions_eq_false run_keyWord_of_key
    rw [mentions_append_cons stopsAt_foreignKeyWords rfl, hnone, Bool.false_or]
  key := by
    rw [mentions_append_cons stopsAt_keyWord rfl, Bool.eq_false_iff.2 h.key, Bool.false_or]
  columns := by
    have hshut : ¬OpensKeyList literal :=
      not_opensKeyList (first_eq_none_iff.2 fun _ => h.run_keyListOpening_eq_none)
    have hnone : first keyColumnList literal = none := first_eq_none_iff.2 fun place hplace => by
      rw [keyColumnList_eq, StateT.run_bind, h.run_keyListOpening_eq_none hplace]
      rfl
    rw [first_keyColumnList_append_cons hshut, hnone, Option.none_or]
  uniqueName := by
    rw [(stopsAt_nameAfter stopsAt_uniqueKeyWords).first_append_cons rfl,
      h.first_nameAfter_eq_none, Option.none_or]
  foreignName := first_foreignKeyName h.silent t
  indexName := by
    rw [StopsAt.firstAtWord_append_cons (stopsAt_nameAfter stopsAt_keyWord) rfl (by decide),
      h.firstAtWord_eq_none, Option.none_or]
  ahead := by
    rw [foreignKeyAhead_append_cons, foreignKeyAhead_eq_false h.foreignKey]
    simp [h.line]

end Keyless

/-- With such literals a clause is asked for the same as with empty ones. -/
theorem sameKeys_fillBehind (hshut : ∀ part ∈ (front :: behinds).dropLast, ¬OpensKeyList part)
    (hlength : literals.length = behinds.length)
    (hkeyless : ∀ literal ∈ literals, Keyless literal) :
    SameKeys (fillBehind front behinds literals)
      (fillBehind front behinds (behinds.map fun _ => [])) := by
  induction behinds generalizing front literals with
  | nil =>
      obtain rfl := List.eq_nil_of_length_eq_zero hlength
      exact .refl front
  | cons behind behinds ih =>
      cases literals with
      | nil => simp at hlength
      | cons literal literals =>
          obtain ⟨hliteral, hliterals⟩ := List.forall_mem_cons.1 hkeyless
          rw [List.dropLast_cons_of_ne_nil (List.cons_ne_nil _ _)] at hshut
          obtain ⟨hfront, hbehind⟩ := List.forall_mem_cons.1 hshut
          have hrest := ih hbehind (by simpa using hlength) hliterals
          have hempty : Keyless [] := by decide
          refine SameKeys.append_cons ?_ hfront
          exact (hliteral.sameKeys _).trans (hrest.trans (hempty.sameKeys _).symm)

/-! ## Safe frames -/

/-- A literal that speaks of a primary key with this list. -/
def keyLiteral (list : Text) : Text := "PRIMARY KEY (" ++ (list ++ [')'])

theorem length_keyColumns (list : Text) : (keyColumns list).length = list.count ',' + 1 := by
  rw [keyColumns, List.length_map, length_pieces]

theorem keyLiteral_append (list t : Text) :
    keyLiteral list ++ t = "PRIMARY KEY (" ++ (list ++ ')' :: t) := by
  unfold keyLiteral
  rw [List.append_assoc, List.append_assoc, List.singleton_append]

/-- It mentions a primary key. -/
theorem mentions_keyLiteral (list : Text) : mentions (keyLiteral list) primaryKeyWords := by
  have htext : keyLiteral list = "PRIMARY KEY".toList ++ (' ' :: '(' :: (list ++ [')'])) := rfl
  have hrun : (do primaryKeyWords; wordEnd : Reader Unit).run (keyLiteral list) =
      some ((), ' ' :: '(' :: (list ++ [')'])) := by
    rw [htext]
    exact run_bind_eq_some_iff.2 ⟨(), _, run_primaryKeyWords _, rfl⟩
  rw [mentions, hasAtWord, firstAtWord_of_run hrun]
  rfl

namespace Frame

variable {behind list columns : Text}

/-- A frame with a gap, the first literal of which speaks of a primary key. -/
def speaking (front behind : Text) (behinds : List Text) (list : Text) : Text :=
  (⟨front, behind :: behinds⟩ : Frame).fill (keyLiteral list :: behinds.map fun _ => [])

theorem speaking_eq (front behind : Text) (behinds : List Text) : ∃ rest : Text, ∀ list,
    speaking front behind behinds list =
      front ++ '\'' :: ("PRIMARY KEY (" ++ (list ++ ')' :: rest)) := by
  refine ⟨'\'' :: fillBehind behind behinds (behinds.map fun _ => []), fun list => ?_⟩
  rw [speaking, fill, fillBehind, keyLiteral_append]

/-- Without the front of a column such a clause declares a primary key. -/
theorem headingOf_speaking (hhead : columnHead? front = none)
    (hlist : first keyColumnList (speaking front behind behinds list) = some columns) :
    headingOf (speaking front behind behinds list) =
      .ok (.constraint .primaryKey Constraint.primaryName (keyColumns columns)) := by
  have hnone : columnHead? (speaking front behind behinds list) = none :=
    columnHead?_fill_eq_none hhead _
  have hmentions : mentions (speaking front behind behinds list) primaryKeyWords :=
    (mentions_fill stopsAt_primaryKeyWords rfl (by simp)).2
      (.inr ⟨keyLiteral list, List.mem_cons_self, mentions_keyLiteral list⟩)
  exact headingOf_primaryKey hnone hmentions hlist

theorem fits_blank (frame : Frame) : frame.Fits frame.blank :=
  ⟨by simp [blank], by simp [blank]⟩

theorem fits_speaking (front behind : Text) (behinds : List Text)
    (hlist : ∀ c ∈ list, ¬isQuote c) : (⟨front, behind :: behinds⟩ : Frame).Fits
      (keyLiteral list :: behinds.map fun _ => []) := by
  refine ⟨by simp, List.forall_mem_cons.2 ⟨?_, by simp⟩⟩
  have hwords : ∀ c ∈ "PRIMARY KEY (".toList, ¬isQuote c :=
    List.all_iff_forall_prop.1 (by decide)
  have hclose : ∀ c ∈ [')'], ¬isQuote c := List.forall_mem_singleton.2 (by decide)
  exact List.forall_mem_append.2 ⟨hwords, List.forall_mem_append.2 ⟨hlist, hclose⟩⟩

/-- In front of a gap stands the list of a primary key, if the clause declares no column and the
frame is safe. -/
theorem Safe.isSome_first (h : (⟨front, behind :: behinds⟩ : Frame).Safe)
    (hhead : columnHead? front = none) : (first keyColumnList front).isSome := by
  rw [Option.isSome_iff_ne_none]
  intro hnone
  -- One more comma in the literal would make one more column.
  obtain ⟨before, hbefore⟩ := exists_first_keyColumnList hnone
  obtain ⟨rest, hrest⟩ := speaking_eq front behind behinds
  have hheading : ∀ list : Text, list ≠ [] → ')' ∉ list →
      headingOf (speaking front behind behinds list) =
        .ok (.constraint .primaryKey Constraint.primaryName (keyColumns (before ++ list))) :=
    fun list hne hparen => headingOf_speaking hhead (hrest list ▸ hbefore list rest hne hparen)
  have heq : headingOf (speaking front behind behinds "x") =
      headingOf (speaking front behind behinds "x,x") :=
    h _ _ (fits_speaking front behind behinds (List.all_iff_forall_prop.1 (by decide)))
      (fits_speaking front behind behinds (List.all_iff_forall_prop.1 (by decide)))
  rw [hheading "x" (by decide) (by decide), hheading "x,x" (by decide) (by decide)] at heq
  have hcolumns : keyColumns (before ++ "x") = keyColumns (before ++ "x,x") := by
    simpa using heq
  have hlength := congrArg List.length hcolumns
  rw [length_keyColumns, length_keyColumns, List.count_append, List.count_append] at hlength
  have hcount : ("x".toList).count ',' = 0 ∧ ("x,x".toList).count ',' = 1 := by decide
  omega

/-- And the frame mentions a primary key. -/
theorem Safe.exists_mentions (h : (⟨front, behind :: behinds⟩ : Frame).Safe)
    (hhead : columnHead? front = none) :
    ∃ part ∈ front :: behind :: behinds, mentions part primaryKeyWords := by
  by_contra hmentions
  obtain ⟨columns, hlist⟩ := Option.isSome_iff_exists.1 (h.isSome_first hhead)
  obtain ⟨rest, hrest⟩ := speaking_eq front behind behinds
  have hspeaking : headingOf (speaking front behind behinds "x") =
      .ok (.constraint .primaryKey Constraint.primaryName (keyColumns columns)) :=
    headingOf_speaking hhead (hrest "x" ▸ first_keyColumnList_of_front hlist _)
  have hnone : ¬mentions (fill ⟨front, behind :: behinds⟩ (blank ⟨front, behind :: behinds⟩))
      primaryKeyWords := by
    intro hblank
    rcases (mentions_fill stopsAt_primaryKeyWords rfl (by simp [blank])).1 hblank with
      hpart | ⟨literal, hliteral, hspeaks⟩
    · exact hmentions hpart
    · obtain ⟨_, -, rfl⟩ := List.mem_map.1 hliteral
      exact absurd hspeaks (by decide)
  have heq : headingOf (fill ⟨front, behind :: behinds⟩ (blank ⟨front, behind :: behinds⟩)) =
      headingOf (speaking front behind behinds "x") :=
    h _ _ (fits_blank _)
      (fits_speaking front behind behinds (List.all_iff_forall_prop.1 (by decide)))
  have hblank : columnHead? (fill ⟨front, behind :: behinds⟩ (blank ⟨front, behind :: behinds⟩)) =
      none := columnHead?_fill_eq_none hhead _
  exact headingOf_ne_primaryKey hblank hnone _ _ (heq.trans hspeaking)

/-- The list of a primary key in front of every gap is the first of the clause. -/
theorem first_keyColumnList_fill (frame : Frame) (literals : List Text)
    (hlist : first keyColumnList frame.front = some columns) :
    first keyColumnList (frame.fill literals) = some columns := by
  obtain ⟨front, behinds⟩ := frame
  cases behinds with
  | nil => exact hlist
  | cons behind behinds =>
      cases literals with
      | nil => exact hlist
      | cons literal literals => exact first_keyColumnList_of_front hlist _

/-- The safe frames are those without a gap, those with the front of a column, and those with the
list of a primary key in front of every gap that mention a primary key somewhere. -/
theorem safe_iff (frame : Frame) : frame.Safe ↔ frame.behinds = [] ∨
    (columnHead? frame.front).isSome ∨ ((first keyColumnList frame.front).isSome ∧
      ∃ part ∈ frame.front :: frame.behinds, mentions part primaryKeyWords) := by
  obtain ⟨front, behinds⟩ := frame
  constructor
  · intro h
    cases behinds with
    | nil => exact .inl rfl
    | cons behind behinds =>
        cases hhead : columnHead? front with
        | some head => exact .inr (.inl rfl)
        | none => exact .inr (.inr ⟨h.isSome_first hhead, h.exists_mentions hhead⟩)
  · intro h literals others hliterals hothers
    cases hhead : columnHead? front with
    | some head => rw [headingOf_fill_column hhead, headingOf_fill_column hhead]
    | none =>
        rcases h with rfl | hsome | ⟨hlist, hmentions⟩
        · rfl
        · simp [hhead] at hsome
        · obtain ⟨columns, hlist⟩ := Option.isSome_iff_exists.1 hlist
          have hkey : ∀ texts, Fits ⟨front, behinds⟩ texts →
              headingOf (fill ⟨front, behinds⟩ texts) =
                .ok (.constraint .primaryKey Constraint.primaryName (keyColumns columns)) :=
            fun texts htexts => headingOf_primaryKey (columnHead?_fill_eq_none hhead texts)
              ((mentions_fill stopsAt_primaryKeyWords rfl htexts.length_eq).2 (.inl hmentions))
              (first_keyColumnList_fill _ texts hlist)
          rw [hkey literals hliterals, hkey others hothers]

end Frame

/-! ## What literals decide -/

/-- Whether a clause declares a column, and which, no literal decides. What else it declares, no
literal decides just in the safe frames. A literal that speaks of no key decides nothing, unless the
list of a primary key is open there. -/
theorem headingOf_fill (frame : Frame) :
    (∀ literals name, headingOf (frame.fill literals) = .ok (.column name) ↔
      (columnHead? frame.front).map ColumnHead.name = some name) ∧
    (frame.Safe ↔ frame.behinds = [] ∨ (columnHead? frame.front).isSome ∨
      ((first keyColumnList frame.front).isSome ∧
        ∃ part ∈ frame.front :: frame.behinds, mentions part primaryKeyWords)) ∧
    (frame.Shut → ∀ literals, literals.length = frame.behinds.length →
      (∀ literal ∈ literals, Keyless literal) →
        headingOf (frame.fill literals) = headingOf (frame.fill frame.blank)) := by
  refine ⟨fun literals name => ?_, frame.safe_iff, fun hshut literals hlength hkeyless => ?_⟩
  · rw [headingOf_eq_column_iff, columnName_fill]
  · cases hhead : columnHead? frame.front with
    | some head => rw [headingOf_fill_column hhead, headingOf_fill_column hhead]
    | none =>
        rw [headingOf_of_key (columnHead?_fill_eq_none hhead literals),
          headingOf_of_key (columnHead?_fill_eq_none hhead frame.blank)]
        exact (sameKeys_fillBehind hshut hlength hkeyless).heading_eq

/-- A comment on an index that only looks as if it spoke of a key, and one on a primary key. -/
theorem headingOf_fill_comment :
    headingOf "KEY `k` (`a`) COMMENT 'monkey index2'" = .ok (.index "k") ∧
      Frame.Safe ⟨"PRIMARY KEY (`a`) COMMENT ", [[]]⟩ := by
  have hshut : Frame.Shut ⟨"KEY `k` (`a`) COMMENT ", [[]]⟩ := by
    refine List.forall_mem_singleton.2 (not_opensKeyList ?_)
    decide +kernel
  have hkeyless : ∀ literal ∈ ["monkey index2".toList], Keyless literal := by decide +kernel
  have hheading := (headingOf_fill ⟨"KEY `k` (`a`) COMMENT ", [[]]⟩).2.2 hshut
    ["monkey index2"] rfl hkeyless
  have hblank : headingOf (Frame.fill ⟨"KEY `k` (`a`) COMMENT ", [[]]⟩
      (Frame.blank ⟨"KEY `k` (`a`) COMMENT ", [[]]⟩)) = .ok (.index "k") := by
    decide +kernel
  exact ⟨hheading.trans hblank, (headingOf_fill ⟨"PRIMARY KEY (`a`) COMMENT ", [[]]⟩).2.1.2
    (.inr (.inr (by decide +kernel)))⟩

/-- A comment that speaks of a primary key makes one out of an index. -/
theorem not_safe_of_comment :
    headingOf "KEY `k` (`a`) COMMENT 'x'" = .ok (.index "k") ∧
      headingOf "KEY `k` (`a`) COMMENT 'PRIMARY KEY (b)'" =
        .ok (.constraint .primaryKey "PRIMARY" ["b"]) ∧
      ¬Frame.Safe ⟨"KEY `k` (`a`) COMMENT ", [[]]⟩ := by
  have hindex : headingOf "KEY `k` (`a`) COMMENT 'x'" = .ok (.index "k") := by decide +kernel
  have hprimary : headingOf "KEY `k` (`a`) COMMENT 'PRIMARY KEY (b)'" =
      .ok (.constraint .primaryKey "PRIMARY" ["b"]) := by
    decide +kernel
  refine ⟨hindex, hprimary, fun hsafe => ?_⟩
  have heq : headingOf "KEY `k` (`a`) COMMENT 'x'" =
      headingOf "KEY `k` (`a`) COMMENT 'PRIMARY KEY (b)'" :=
    hsafe ["x"] ["PRIMARY KEY (b)"]
      ⟨rfl, List.forall_mem_singleton.2 (List.all_iff_forall_prop.1 (by decide))⟩
      ⟨rfl, List.forall_mem_singleton.2 (List.all_iff_forall_prop.1 (by decide))⟩
  rw [hindex, hprimary] at heq
  simp at heq

end SchemaDelta.Dump
