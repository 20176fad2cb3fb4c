import SchemaDelta.Proofs.Dump.Column
import SchemaDelta.Proofs.Dump.Key
import SchemaDelta.Proofs.Sql.Phrase

/-!
# Spellings of the name of a column

The name of a column is written bare or in one of two kinds of quotation marks. The words that a
clause mentions are read across no name, whichever way it is written (`mentions_write`), so that
the clause declares the same column in all spellings (`ofText_write`). Only the words that open
other clauses have to be quoted to name a column.
-/

namespace SchemaDelta

open Sql Text Reader

/-- No blank folds onto a capital letter. -/
theorem Sql.isUpper_keywordFold_of_isBlank {c : Char} (h : isBlank c) :
    (keywordFold c).isUpper = false :=
  forall_isBlank (P := fun c => (keywordFold c).isUpper = false) (by decide +kernel) h

/-- A text determines what stands in front of its first blank. -/
theorem Text.eq_of_append_blank {a b s t : Text} {c d : Char} (ha : ∀ e ∈ a, ¬isBlank e)
    (hb : ∀ e ∈ b, ¬isBlank e) (hc : isBlank c) (hd : isBlank d)
    (h : a ++ c :: s = b ++ d :: t) : a = b := by
  have hfront : ∀ (front back : Text) (blank : Char), (∀ e ∈ front, ¬isBlank e) →
      isBlank blank → (front ++ blank :: back).takeWhile (!isBlank ·) = front := by
    intro front back blank hfront hblank
    rw [List.takeWhile_append_of_pos (by simpa using hfront)]
    simp [hblank]
  rw [← hfront a s c ha hc, h, hfront b t d hb hd]

/-- Where a keyword is read from a text without blanks and a gap from what follows, the text is a
spelling of the keyword. -/
theorem Sql.IsKeyword.map_keywordFold_eq {k place t : Text} {c : Char} (hk : IsKeyword k)
    (hplace : ∀ d ∈ place, ¬isBlank d) (hc : isBlank c) {α : Type} {r : Reader α}
    (h : ((do keyword k; gap; r).run (place ++ c :: t)).isSome) :
    place.map keywordFold = k := by
  obtain ⟨⟨_, _⟩, hrun⟩ := Option.isSome_iff_exists.1 h
  obtain ⟨_, behind, hword, hrun⟩ := run_bind_eq_some_iff.1 hrun
  obtain ⟨_, left, hgap, -⟩ := run_bind_eq_some_iff.1 hrun
  obtain ⟨spelling, heq, rfl⟩ := run_keyword_inv hword
  obtain ⟨between, rfl, hbetween, hblanks⟩ := run_gap_inv hgap
  obtain ⟨blank, others, rfl⟩ := List.exists_cons_of_ne_nil hbetween
  have hspelling : ∀ d ∈ spelling, ¬isBlank d := by
    intro d hd hblank
    exact hk.not_mem (isUpper_keywordFold_of_isBlank hblank) (List.mem_map_of_mem hd)
  have hblank : isBlank blank := hblanks blank List.mem_cons_self
  rw [eq_of_append_blank hplace hspelling hc hblank heq]

namespace Dump

variable {name rest : Text}

/-- What a name in quotation marks ends with belongs to no keyword. -/
theorem NameStyle.exists_mem_mark {style : NameStyle} (h : style ≠ .bare) :
    ∃ c, style.mark = [c] ∧ (keywordFold c).isUpper = false := by
  cases style with
  | bare => exact absurd rfl h
  | inNameMarks => exact ⟨nameMark, rfl, by decide⟩
  | inDoubleMarks => exact ⟨'\x22', rfl, by decide⟩

/-- A name as it is written holds no blank. -/
theorem NameStyle.not_isBlank_write (style : NameStyle) (hname : IsName name) :
    ∀ c ∈ style.write name, ¬isBlank c := by
  have hmarks : style.mark ⊆ nameMarks := by cases style <;> simp [NameStyle.mark, nameMarks]
  have hmark : ∀ c ∈ style.mark, ¬isBlank c := fun c hc hblank =>
    not_mem_nameMarks_of_isBlank hblank (hmarks hc)
  intro c hc
  rcases List.mem_append.1 hc with hc | hc
  · exact hmark c hc
  · rcases List.mem_append.1 hc with hc | hc
    · exact hname.not_isBlank hc
    · exact hmark c hc

/-- Words that open with a keyword are not read from a blank. -/
theorem run_words_cons {k : Text} (hk : IsKeyword k) {c : Char} (hc : isBlank c) (t : Text)
    (r : Reader Unit) :
    (do (do keyword k; gap; r); wordEnd : Reader Unit).run (c :: t) = none := by
  rw [StateT.run_bind, hk.run_cons (isUpper_keywordFold_of_isBlank hc)]
  rfl

/-- So a blank in front of a text changes nothing about the words that the text mentions. -/
theorem mentions_cons {k : Text} (hk : IsKeyword k) {c : Char} (hc : isBlank c) (t : Text)
    (r : Reader Unit) : mentions (c :: t) (do keyword k; gap; r) =
      mentions t (do keyword k; gap; r) := by
  rw [mentions, hasAtWord, firstAtWord, if_neg (by simp), run_words_cons hk hc,
    isWord_eq_false_of_isBlank hc]
  rfl

/-- A clause mentions the words that stand behind its name, unless the name is the first of these
words and stands there bare. -/
theorem mentions_write {k : Text} (hk : IsKeyword k) (hname : IsName name) {style : NameStyle}
    (hbare : style = .bare → name.map keywordFold ≠ k) {c : Char} (hc : isBlank c) (t : Text)
    (r : Reader Unit) : mentions (style.write name ++ c :: t) (do keyword k; gap; r) =
      mentions (c :: t) (do keyword k; gap; r) := by
  refine hasAtWord_append (fun front place heq hne hlast => ?_) (run_words_cons hk hc t r)
  rw [StateT.run_bind, ← Option.not_isSome_iff_eq_none]
  intro hrun
  have hplace : ∀ d ∈ place, ¬isBlank d := fun d hd =>
    style.not_isBlank_write hname d (heq ▸ List.mem_append_right front hd)
  have hspelled := hk.map_keywordFold_eq hplace hc (Option.isSome_of_isSome_bind hrun)
  by_cases hstyle : style = .bare
  · -- No word goes on in front of the place, so it is the whole name.
    subst hstyle
    have hname' : name = front ++ place := (NameStyle.write_bare name).symm.trans heq
    rcases List.eq_nil_or_concat front with rfl | ⟨others, d, rfl⟩
    · exact hbare rfl (hname' ▸ hspelled)
    · have hd : d ∈ name := by simp [hname']
      exact hlast d (by simp) (hname.isWord d hd)
  · -- The closing mark stands in the place.
    obtain ⟨d, hmark, hd⟩ := NameStyle.exists_mem_mark hstyle
    have hend : (front ++ place).getLast? = some d := by
      rw [← heq, NameStyle.write, hmark]
      exact List.getLast?_concat (l := d :: name)
    have hmem : d ∈ place := by
      rw [List.getLast?_append_of_ne_nil front hne] at hend
      exact List.mem_of_getLast? hend
    exact hk.not_mem hd (hspelled ▸ List.mem_map_of_mem hmem)

/-- A clause without a column front declares no column. -/
theorem ofKey_ne_column (clause : Text) (column : Column) :
    Clause.ofKey clause ≠ .ok (.column column) := by
  intro h
  rcases ofKey_inv h with ⟨_, -, heq⟩ | ⟨_, _, -, -, heq⟩ | ⟨_, -, heq⟩
  all_goals simp at heq

/-- A clause that opens with a name, blanks and a word declares the same column in all spellings
of the name, unless the name stands there bare and is one of the words that open other clauses. Then
it declares no column at all. -/
theorem ofText_write (hname : IsName name) (hrest : OpensGap rest) :
    (∀ style : NameStyle, (style = .bare → ¬openingWords.any (sameCaseless · name)) →
      Clause.ofText (style.write name ++ rest) =
        .ok (.column ⟨name, quoteName name ++ rest, mentions rest primaryKeyWords⟩)) ∧
    (openingWords.any (sameCaseless · name) →
      ∀ column, Clause.ofText (name ++ rest) ≠ .ok (.column column)) := by
  constructor
  · intro style hbare
    have hhead : columnHead? (style.write name ++ rest) = some ⟨style != .bare, name, rest⟩ := by
      rw [columnHead?_write hname hrest, if_neg fun h => hbare h.1 h.2]
    have hfold : style = .bare → name.map keywordFold ≠ "PRIMARY" := by
      intro hstyle heq
      have hupper : upper name = "PRIMARY" := upper_of_spelling (by decide) heq
      refine hbare hstyle (List.any_eq_true.2 ⟨"PRIMARY", by simp [openingWords], ?_⟩)
      rw [sameCaseless, hupper]
      decide
    have hmentions : mentions (style.write name ++ rest) primaryKeyWords =
        mentions rest primaryKeyWords := by
      obtain ⟨c, t, rfl, hc⟩ := hrest.exists_cons
      exact mentions_write (by decide) hname hfold hc t _
    rw [Clause.ofText, hhead]
    simp only [ColumnHead.column, hmentions]
  · intro hopening column
    have hhead : columnHead? (name ++ rest) = none := by
      rw [← NameStyle.write_bare name, columnHead?_write hname hrest, if_pos ⟨rfl, hopening⟩]
    rw [Clause.ofText, hhead]
    exact ofKey_ne_column _ column

/-- A name that opens no other clause in all spellings, and one that opens another. -/
theorem ofText_write_key :
    (∀ style : NameStyle, Clause.ofText (style.write "größe" ++ " int PRIMARY KEY") =
      .ok (.column ⟨"größe", "`größe` int PRIMARY KEY", true⟩)) ∧
    (∀ style : NameStyle, style ≠ .bare → Clause.ofText (style.write "Key" ++ " int") =
      .ok (.column ⟨"Key", "`Key` int", false⟩)) ∧
    ∀ column, Clause.ofText (("Key" : Text) ++ " int") ≠ .ok (.column column) := by
  have hplain : IsName "größe" ∧ ¬openingWords.any (sameCaseless · "größe") := by decide +kernel
  have hkey : IsName "Key" ∧ openingWords.any (sameCaseless · "Key") := by decide +kernel
  have hprimary : OpensGap " int PRIMARY KEY" ∧
      mentions " int PRIMARY KEY" primaryKeyWords = true := by decide +kernel
  have hint : OpensGap " int" ∧ mentions " int" primaryKeyWords = false := by decide +kernel
  have hdefinitions : quoteName "größe" ++ " int PRIMARY KEY" = "`größe` int PRIMARY KEY" ∧
      quoteName "Key" ++ " int" = "`Key` int" := by decide +kernel
  refine ⟨fun style => ?_, fun style hstyle => ?_, ?_⟩
  · have hread := (ofText_write hplain.1 hprimary.1).1 style fun _ => hplain.2
    rwa [hdefinitions.1, hprimary.2] at hread
  · have hread := (ofText_write hkey.1 hint.1).1 style fun hbare => absurd hbare hstyle
    rwa [hdefinitions.2, hint.2] at hread
  · exact (ofText_write hkey.1 hint.1).2 hkey.2

end Dump

end SchemaDelta
