import Mathlib.Data.List.Basic
import SchemaDelta.Dump.Clause
import SchemaDelta.Proofs.Sql.Name
import SchemaDelta.Proofs.Text.Tidy

/-!
# Columns that clauses declare

A column that comes from a tidy clause is written in one way only: its name in name marks, a
space, and a type that starts with a word (`Column.Declared`). Read as a clause again, such a
definition gives the same name and the same definition (`Column.Declared.ofText_definition`).
Clauses write the name in other ways too, and `columnHead?_write` says what front of a column is
read from each.
-/

namespace SchemaDelta

open Sql Text

/-- The definition of the column is its name in name marks, a space, and a tidy type that starts
with a word. -/
structure Column.Declared (column : Column) : Prop where
  isName : IsName column.name
  definition_eq : column.definition = quoteName column.name ++ ' ' :: column.typeDefinition
  startsWord : startsWord column.typeDefinition
  tidy : Tidy column.typeDefinition

/-- Behind the name and one space stands the type. -/
theorem typeDefinition_of_tidy {name type : Text} (htype : Tidy type) (isPrimaryKey : Bool) :
    (⟨name, quoteName name ++ ' ' :: type, isPrimaryKey⟩ : Column).typeDefinition = type := by
  have hrest : (quoteName name).isPrefixOf? (quoteName name ++ ' ' :: type) =
      some (' ' :: type) :=
    List.isPrefixOf?_eq_some_iff_append_eq.2 rfl
  have htrim : trim (' ' :: type) = trim type := by
    rw [trim, trim, trimStart, trimStart, List.dropWhile_cons_of_pos (by decide)]
  rw [Column.typeDefinition, hrest, Option.getD_some, htrim, htype.trim_eq]

namespace Dump

open Reader

/-- Where a word character is taken the text starts with a word. -/
theorem startsWord_of_run_satisfy {t rest : Text} {c : Char}
    (h : (satisfy isWord).run t = some (c, rest)) : startsWord t := by
  cases t with
  | nil => simp [satisfy, StateT.run] at h
  | cons d r =>
      by_cases hd : isWord d
      · exact hd
      · simp [satisfy, StateT.run, hd] at h

/-- The front of a column is a name, then blanks, then what starts with a word; behind the name
it is the end of the clause. -/
theorem run_columnHead_inv {clause tail : Text} {head : ColumnHead}
    (h : columnHead.run clause = some (head, tail)) :
    IsName head.name ∧ head.rest <:+ clause ∧ ∃ between type, head.rest = between ++ type ∧
      (between ≠ [] ∧ ∀ c ∈ between, isBlank c) ∧ (∀ c ∈ type.head?, ¬isBlank c) ∧
      startsWord type := by
  unfold columnHead at h
  obtain ⟨marked, behindMark, hmark, h⟩ := run_bind_eq_some_iff.1 h
  obtain ⟨name, behindName, hname, h⟩ := run_bind_eq_some_iff.1 h
  obtain ⟨_, rest, hclose, h⟩ := run_bind_eq_some_iff.1 h
  obtain ⟨got, _, hget, h⟩ := run_bind_eq_some_iff.1 h
  obtain ⟨rfl, rfl⟩ : rest = got ∧ rest = _ := by simpa using hget
  obtain ⟨_, type, hgap, h⟩ := run_bind_eq_some_iff.1 h
  obtain ⟨c, _, hword, h⟩ := run_bind_eq_some_iff.1 h
  obtain ⟨rfl, -⟩ : ⟨marked, name, rest⟩ = head ∧ _ = tail := by simpa using h
  obtain ⟨between, left, hblanks, hpure⟩ := run_bind_eq_some_iff.1 hgap
  obtain rfl : type = left := by simpa using hpure.symm
  obtain ⟨heq, hhead⟩ := eq_append_of_run_many1 hblanks
  refine ⟨gives_word hname, ?_, between, type, heq, gives_many1 _ hblanks, hhead, ?_⟩
  · have hbehind : rest <:+ behindName := shortens_mark _ hclose
    exact hbehind.trans ((shortens_many1 _ hname).trans (shortens_mark _ hmark))
  · exact startsWord_of_run_satisfy hword

/-- In a tidy clause one space stands between the name of a column and its type. -/
theorem declared_of_run_columnHead {clause tail : Text} {head : ColumnHead}
    (hclause : Tidy clause) (h : columnHead.run clause = some (head, tail)) :
    (head.column clause).Declared := by
  obtain ⟨hname, hsuffix, between, type, hrest, ⟨hne, hblanks⟩, hhead, hword⟩ :=
    run_columnHead_inv h
  have hsingle : SingleSpaced (between ++ type) := hrest ▸ hclause.of_part hsuffix.isInfix
  obtain rfl : between = [' '] := hsingle.eq_space_of_blanks hne hblanks
  have hne : type ≠ [] := by
    rintro rfl
    simp [startsWord] at hword
  have htype : Tidy type := by
    refine ⟨hsingle.of_part (List.suffix_append _ _).isInfix, hhead, fun c hc => ?_⟩
    -- The clause ends as its type does.
    obtain ⟨front, rfl⟩ := hsuffix
    refine hclause.last c ?_
    rw [hrest, ← List.append_assoc, List.getLast?_append_of_ne_nil _ hne]
    exact hc
  have hcolumn : head.column clause =
      ⟨head.name, quoteName head.name ++ ' ' :: type, mentions clause primaryKeyWords⟩ := by
    rw [ColumnHead.column, hrest]
    rfl
  rw [hcolumn]
  refine ⟨hname, ?_, ?_, ?_⟩ <;> rw [typeDefinition_of_tidy htype]
  · exact hword
  · exact htype

/-- The ways to write the name of a column. -/
inductive NameStyle where
  | bare
  | inNameMarks
  | inDoubleMarks
  deriving DecidableEq

namespace NameStyle

/-- The quotation mark on either side of the name. -/
def mark : NameStyle → Text
  | .bare => []
  | .inNameMarks => [nameMark]
  | .inDoubleMarks => ['\x22']

/-- A name as it is written. -/
def write (style : NameStyle) (name : Text) : Text := style.mark ++ (name ++ style.mark)

@[simp] theorem write_bare (name : Text) : bare.write name = name := List.append_nil name

theorem write_append (style : NameStyle) (name rest : Text) :
    style.write name ++ rest = style.mark ++ (name ++ (style.mark ++ rest)) := by
  simp [write]

/-- In front of what is no quotation mark the mark is taken, if there is one. -/
theorem run_mark (style : NameStyle) {t : Text} (h : ∀ c ∈ t.head?, c ∉ nameMarks) :
    (Sql.mark nameMarks).run (style.mark ++ t) = some (style != .bare, t) := by
  cases style with
  | bare =>
      cases t with
      | nil => rfl
      | cons c r =>
          have hc : c ∉ nameMarks := h c rfl
          simp [NameStyle.mark, Sql.mark, StateT.run, hc]
  | inNameMarks => exact run_mark_cons (by decide) t
  | inDoubleMarks => exact run_mark_cons (by decide) t

end NameStyle

/-- No word goes on behind the closing mark, if none goes on behind the name. -/
theorem NameStyle.head?_mark_append (style : NameStyle) {t : Text} (h : ∀ c ∈ t.head?, ¬isWord c) :
    ∀ c ∈ (style.mark ++ t).head?, ¬isWord c := by
  cases style with
  | bare => exact h
  | inNameMarks => simp [NameStyle.mark]; decide
  | inDoubleMarks => simp [NameStyle.mark]; decide

/-- A name is read without its marks, and the mark that closes it is left. -/
theorem run_markedName (style : NameStyle) {name rest : Text} (hname : IsName name)
    (hrest : ∀ c ∈ (style.mark ++ rest).head?, ¬isWord c) :
    markedName.run (style.write name ++ rest) = some (name, style.mark ++ rest) := by
  have hopen : ∀ c ∈ (name ++ (style.mark ++ rest)).head?, c ∉ nameMarks :=
    hname.head?_not_mem _ (by decide)
  rw [style.write_append]
  refine run_bind_eq_some_iff.2 ⟨_, _, style.run_mark hopen, ?_⟩
  exact run_many1_append hname.ne_nil hname.isWord hrest

/-- The text begins with a blank, and behind the blanks in front a word follows. -/
structure OpensGap (t : Text) : Prop where
  blank : t.head?.any isBlank
  startsWord : startsWord (trimStart t)

instance (t : Text) : Decidable (OpensGap t) :=
  decidable_of_iff (t.head?.any isBlank ∧ Text.startsWord (trimStart t))
    ⟨fun h => ⟨h.1, h.2⟩, fun h => ⟨h.blank, h.startsWord⟩⟩

theorem OpensGap.exists_cons {t : Text} (h : OpensGap t) : ∃ c r, t = c :: r ∧ isBlank c := by
  cases t with
  | nil => simpa using h.blank
  | cons c r => exact ⟨c, r, rfl, by simpa using h.blank⟩

/-- The blanks in front are taken as a gap. -/
theorem OpensGap.run_gap {t : Text} (h : OpensGap t) : gap.run t = some ((), trimStart t) := by
  obtain ⟨c, r, rfl, hc⟩ := h.exists_cons
  have htrim : trimStart (c :: r) = r.dropWhile isBlank := List.dropWhile_cons_of_pos hc
  rw [htrim]
  exact run_bind_eq_some_iff.2 ⟨_, _, run_many1_of_pos hc r, rfl⟩

/-- A blank is no quotation mark. -/
theorem not_mem_nameMarks_of_isBlank {c : Char} (hc : isBlank c) : c ∉ nameMarks := by
  intro hmem
  have hmark : c = nameMark ∨ c = '\x22' := by simpa [nameMarks] using hmem
  rcases hmark with rfl | rfl
  · exact absurd hc (by decide)
  · exact absurd hc (by decide)

/-- Where a gap is taken blanks stand, and they are all taken. -/
theorem eq_trimStart_of_run_gap {t rest : Text} (h : gap.run t = some ((), rest)) :
    t.head?.any isBlank ∧ rest = trimStart t := by
  obtain ⟨between, left, hblanks, hpure⟩ := run_bind_eq_some_iff.1 h
  obtain rfl : rest = left := by simpa using hpure.symm
  obtain ⟨rfl, hhead⟩ := eq_append_of_run_many1 hblanks
  obtain ⟨hne, hall⟩ := gives_many1 _ hblanks
  obtain ⟨c, others, rfl⟩ := List.exists_cons_of_ne_nil hne
  refine ⟨by simpa using hall c List.mem_cons_self, ?_⟩
  rw [trimStart, List.dropWhile_append_of_pos hall, ← trimStart, trimStart_eq_self hhead]

/-- A text opens a gap exactly if a gap is taken off it and what is left starts with a word. -/
theorem opensGap_iff {t : Text} :
    OpensGap t ↔ ∃ rest, gap.run t = some ((), rest) ∧ Text.startsWord rest := by
  constructor
  · intro h
    exact ⟨trimStart t, h.run_gap, h.startsWord⟩
  · rintro ⟨rest, hgap, hword⟩
    obtain ⟨hblank, rfl⟩ := eq_trimStart_of_run_gap hgap
    exact ⟨hblank, hword⟩

/-- A space in front of a text that starts with a word is a gap. -/
theorem opensGap_space {type : Text} (htype : Text.startsWord type) : OpensGap (' ' :: type) := by
  refine ⟨rfl, ?_⟩
  obtain ⟨c, others, rfl⟩ : ∃ c others, type = c :: others := by
    cases type with
    | nil => simp [Text.startsWord] at htype
    | cons c others => exact ⟨c, others, rfl⟩
  have hblank : ¬isBlank c := fun hblank => by
    simp [Text.startsWord, isWord_eq_false_of_isBlank hblank] at htype
  rwa [trimStart, List.dropWhile_cons_of_pos (by decide), List.dropWhile_cons_of_neg hblank]

/-- The text without the quotation mark in front, if one stands there. -/
def unmarked : Text → Text
  | [] => []
  | c :: rest => if nameMarks.contains c then rest else c :: rest

theorem unmarked_of_not_mem {t : Text} (h : ∀ c ∈ t.head?, c ∉ nameMarks) : unmarked t = t := by
  cases t with
  | nil => rfl
  | cons c rest =>
      have hc : c ∉ nameMarks := h c rfl
      simp [unmarked, hc]

theorem NameStyle.unmarked_mark (style : NameStyle) {t : Text}
    (h : ∀ c ∈ t.head?, c ∉ nameMarks) : unmarked (style.mark ++ t) = t := by
  cases style with
  | bare => exact unmarked_of_not_mem h
  | inNameMarks => rfl
  | inDoubleMarks => rfl

/-- A quotation mark in front is taken, if one stands there. -/
theorem run_mark_unmarked (t : Text) :
    ∃ found, (Sql.mark nameMarks).run t = some (found, unmarked t) := by
  cases t with
  | nil => exact ⟨false, rfl⟩
  | cons c rest =>
      by_cases hc : nameMarks.contains c
      · exact ⟨true, by simp only [Sql.mark, StateT.run, unmarked, hc, if_true]⟩
      · exact ⟨false, by
          simp only [Sql.mark, StateT.run, unmarked, hc, Bool.false_eq_true, if_false]⟩

/-- A name that no word goes on behind is the front of a column exactly if a gap and a word follow,
behind a quotation mark or without one. -/
theorem run_columnHead (opening : NameStyle) {name behind : Text} (hname : IsName name)
    (hbehind : ∀ c ∈ behind.head?, ¬isWord c) :
    columnHead.run (opening.mark ++ (name ++ behind)) =
      if OpensGap (unmarked behind) then
        some (⟨opening != .bare, name, unmarked behind⟩, (trimStart (unmarked behind)).tail)
      else none := by
  have hopen : ∀ c ∈ (name ++ behind).head?, c ∉ nameMarks :=
    hname.head?_not_mem behind (by decide)
  have hword : word.run (name ++ behind) = some (name, behind) :=
    run_many1_append hname.ne_nil hname.isWord hbehind
  obtain ⟨found, hclose⟩ := run_mark_unmarked behind
  unfold columnHead
  split
  · next hgap =>
    refine run_bind_eq_some_iff.2 ⟨_, _, opening.run_mark hopen, ?_⟩
    refine run_bind_eq_some_iff.2 ⟨name, behind, hword, ?_⟩
    refine run_bind_eq_some_iff.2 ⟨found, unmarked behind, hclose, ?_⟩
    refine run_bind_eq_some_iff.2 ⟨unmarked behind, unmarked behind, rfl, ?_⟩
    refine run_bind_eq_some_iff.2 ⟨(), trimStart (unmarked behind), hgap.run_gap, ?_⟩
    have hstarts := hgap.startsWord
    cases htype : trimStart (unmarked behind) with
    | nil => simp [htype, startsWord] at hstarts
    | cons c rest =>
        rw [htype] at hstarts
        exact run_bind_eq_some_iff.2 ⟨c, rest, run_satisfy hstarts rest, rfl⟩
  · next hgap =>
    rw [Option.eq_none_iff_forall_ne_some]
    rintro ⟨head, tail⟩ hrun
    refine hgap (opensGap_iff.2 ?_)
    obtain ⟨_, _, hmark, hrun⟩ := run_bind_eq_some_iff.1 hrun
    rw [opening.run_mark hopen] at hmark
    obtain ⟨rfl, rfl⟩ := Prod.mk.inj (Option.some.inj hmark)
    obtain ⟨_, _, hread, hrun⟩ := run_bind_eq_some_iff.1 hrun
    rw [hword] at hread
    obtain ⟨rfl, rfl⟩ := Prod.mk.inj (Option.some.inj hread)
    obtain ⟨_, _, hmark, hrun⟩ := run_bind_eq_some_iff.1 hrun
    rw [hclose] at hmark
    obtain ⟨rfl, rfl⟩ := Prod.mk.inj (Option.some.inj hmark)
    obtain ⟨_, _, hget, hrun⟩ := run_bind_eq_some_iff.1 hrun
    obtain ⟨rfl, rfl⟩ : unmarked behind = _ ∧ unmarked behind = _ := by simpa using hget
    obtain ⟨_, rest, hgap, hrun⟩ := run_bind_eq_some_iff.1 hrun
    obtain ⟨c, _, hstarts, -⟩ := run_bind_eq_some_iff.1 hrun
    exact ⟨rest, hgap, startsWord_of_run_satisfy hstarts⟩

/-- A name in front of a gap and a word is read as the front of a column, however it is written,
unless it is one of the words that open other clauses and stands there bare. -/
theorem columnHead?_write {name rest : Text} (hname : IsName name) (hrest : OpensGap rest)
    (style : NameStyle) : columnHead? (style.write name ++ rest) =
      if style = .bare ∧ openingWords.any (sameCaseless · name) then none
      else some ⟨style != .bare, name, rest⟩ := by
  obtain ⟨blank, others, hcons, hblank⟩ := hrest.exists_cons
  have hnotMark : ∀ c ∈ rest.head?, c ∉ nameMarks := by
    simpa [hcons] using not_mem_nameMarks_of_isBlank hblank
  have hclose : ∀ c ∈ (style.mark ++ rest).head?, ¬isWord c :=
    style.head?_mark_append (by simp [hcons, isWord_eq_false_of_isBlank hblank])
  rw [columnHead?, style.write_append, run_columnHead style hname hclose,
    style.unmarked_mark hnotMark, if_pos hrest]
  cases style <;> simp

/-- A name in name marks, a space and a type that starts with a word are the front of a
column. -/
theorem columnHead?_quoted {name type : Text} (hname : IsName name) (hword : startsWord type) :
    columnHead? (quoteName name ++ ' ' :: type) = some ⟨true, name, ' ' :: type⟩ :=
  columnHead?_write hname (opensGap_space hword) .inNameMarks

/-- A clause that opens with one of the words for other clauses and a space is no column. -/
theorem columnHead?_of_opening {word : Text} (hword : IsName word)
    (hopening : openingWords.any (sameCaseless · word)) (rest : Text) :
    columnHead? (word ++ ' ' :: rest) = none := by
  have hspace : ∀ c ∈ (' ' :: rest).head?, ¬isWord c := by simp; decide
  have hrun := run_columnHead .bare hword hspace
  rw [NameStyle.mark, List.nil_append] at hrun
  rw [columnHead?, hrun]
  split
  · rfl
  · next head tail hsome =>
    obtain ⟨-, heq⟩ := Option.ite_none_right_eq_some.1 hsome
    obtain ⟨rfl, -⟩ := Prod.mk.inj (Option.some.inj heq)
    exact if_pos (by simpa using hopening)

end Dump

open Dump

/-- Read as a clause, the definition of a declared column gives its name and definition back. -/
theorem Column.Declared.ofText_definition {column : Column} (h : column.Declared) :
    ∃ isPrimaryKey, Clause.ofText column.definition =
      .ok (.column ⟨column.name, column.definition, isPrimaryKey⟩) := by
  refine ⟨mentions column.definition primaryKeyWords, ?_⟩
  have hhead := columnHead?_quoted h.isName h.startsWord
  rw [← h.definition_eq] at hhead
  rw [Clause.ofText, hhead]
  simp only [ColumnHead.column]
  rw [← h.definition_eq]

end SchemaDelta
