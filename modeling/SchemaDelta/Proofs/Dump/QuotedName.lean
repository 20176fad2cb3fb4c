import Mathlib.Data.Bool.AllAny
import SchemaDelta.Proofs.Dump.Spelling

/-!
# Columns with any name in name marks

Between name marks a name may hold blanks, hyphens and much else, but the name of a column is read
as a word. So a name that is no word gives either no column, or, if it begins with a word and goes
on with blanks and another word, a column that is called by its first word. `ofText_quotedName`
says which names are taken whole or not at all, and `not_takenWhole_of_blank` is one that is not.
-/

namespace SchemaDelta.Dump

open Sql Text Reader

/-- The name begins with this word, and behind blanks another word follows in it. -/
structure BreaksAt (name word rest : Text) : Prop where
  eq_append : name = word ++ rest
  isName : IsName word
  opensGap : OpensGap rest

/-- If the clause declares a column, it is one of this name with the clause as its definition. -/
def TakenWhole (name clause : Text) : Prop :=
  ∀ column, Clause.ofText clause = .ok (.column column) →
    column.name = name ∧ column.definition = clause

variable {name word rest type : Text}

/-- What follows a character that is no blank and no word character does not count for a gap in
front of it. -/
theorem opensGap_append_cons {t : Text} (ht : t ≠ []) {c : Char} (hblank : ¬isBlank c)
    (hword : ¬isWord c) (back : Text) : OpensGap (t ++ c :: back) ↔ OpensGap t := by
  have hhead : (t ++ c :: back).head? = t.head? := by
    obtain ⟨d, others, rfl⟩ := List.exists_cons_of_ne_nil ht
    rfl
  have hstarts : startsWord (trimStart (t ++ c :: back)) = startsWord (trimStart t) := by
    rw [trimStart, trimStart, List.dropWhile_append]
    split
    · next hnil =>
      rw [List.isEmpty_iff.1 hnil, List.dropWhile_cons_of_neg hblank]
      simpa [startsWord] using hword
    · next hsome =>
      obtain ⟨d, others, hcons⟩ := List.exists_cons_of_ne_nil (mt List.isEmpty_iff.2 hsome)
      rw [hcons]
      rfl
  constructor
  · intro h
    exact ⟨hhead ▸ h.blank, hstarts ▸ h.startsWord⟩
  · intro h
    exact ⟨hhead ▸ h.blank, hstarts ▸ h.startsWord⟩

/-- A word in front of a name is read as the name of a column, if it is the whole name or the name
breaks behind it. -/
theorem columnHead?_quoteName_append (hword : IsName word) (hrest : ∀ c ∈ rest.head?, ¬isWord c)
    (hquote : ∀ c ∈ rest, ¬isQuote c) (htype : startsWord type) :
    columnHead? (quoteName (word ++ rest) ++ ' ' :: type) =
      if rest = [] then some ⟨true, word, ' ' :: type⟩
      else if OpensGap rest then some ⟨true, word, rest ++ nameMark :: ' ' :: type⟩
      else none := by
  have htext : quoteName (word ++ rest) ++ ' ' :: type =
      NameStyle.inNameMarks.mark ++ (word ++ (rest ++ nameMark :: ' ' :: type)) := by
    simp [quoteName, NameStyle.mark]
  have hbehind : ∀ c ∈ (rest ++ nameMark :: ' ' :: type).head?, ¬isWord c := by
    cases rest with
    | nil => simp; decide
    | cons c others => simpa using hrest
  rw [columnHead?, htext, run_columnHead .inNameMarks hword hbehind]
  by_cases hnil : rest = []
  · subst hnil
    have hmark : unmarked ([] ++ nameMark :: ' ' :: type) = ' ' :: type := rfl
    rw [hmark, if_pos (opensGap_space htype), if_pos rfl]
    rfl
  · have hmark : unmarked (rest ++ nameMark :: ' ' :: type) = rest ++ nameMark :: ' ' :: type := by
      obtain ⟨d, others, rfl⟩ := List.exists_cons_of_ne_nil hnil
      refine unmarked_of_not_mem fun c hc hmem => hquote d List.mem_cons_self ?_
      obtain rfl : d = c := by simpa using hc
      have hmark : d = nameMark ∨ d = '\x22' := by simpa [nameMarks] using hmem
      rcases hmark with rfl | rfl <;> decide
    have hgap : OpensGap (rest ++ nameMark :: ' ' :: type) ↔ OpensGap rest :=
      opensGap_append_cons hnil (by decide) (by decide) _
    rw [hmark, if_neg hnil]
    by_cases hopens : OpensGap rest
    · rw [if_pos hopens, if_pos (hgap.2 hopens)]
      rfl
    · rw [if_neg hopens, if_neg (mt hgap.1 hopens)]

/-- Without a word in front no name is read. -/
theorem columnHead?_quoteName_of_not_isWord (hhead : ∀ c ∈ name.head?, ¬isWord c) (type : Text) :
    columnHead? (quoteName name ++ ' ' :: type) = none := by
  have htext : quoteName name ++ ' ' :: type = nameMark :: (name ++ nameMark :: ' ' :: type) := by
    simp [quoteName]
  have hword : word.run (name ++ nameMark :: ' ' :: type) = none := by
    cases name with
    | nil => exact run_many1_of_neg (by decide) _
    | cons c others => exact run_many1_of_neg (hhead c rfl) _
  have hrun : columnHead.run (nameMark :: (name ++ nameMark :: ' ' :: type)) = none := by
    rw [Option.eq_none_iff_forall_ne_some]
    rintro ⟨head, tail⟩ hrun
    obtain ⟨_, _, hmark, hrun⟩ := run_bind_eq_some_iff.1 hrun
    rw [run_mark_cons (by decide)] at hmark
    obtain ⟨rfl, rfl⟩ := Prod.mk.inj (Option.some.inj hmark)
    obtain ⟨_, _, hread, -⟩ := run_bind_eq_some_iff.1 hrun
    rw [hword] at hread
    simp at hread
  rw [columnHead?, htext, hrun]

/-- A name that is a word gives a column of this name. -/
theorem ofText_quoteName (hname : IsName name) (htype : startsWord type) :
    Clause.ofText (quoteName name ++ ' ' :: type) =
      .ok (.column ⟨name, quoteName name ++ ' ' :: type, mentions type primaryKeyWords⟩) := by
  have hbare : NameStyle.inNameMarks = .bare → ¬openingWords.any (sameCaseless · name) := by simp
  have hspace : mentions (' ' :: type) primaryKeyWords = mentions type primaryKeyWords :=
    mentions_cons (k := "PRIMARY") (by decide) (by decide) type _
  exact hspace ▸ (ofText_write hname (opensGap_space htype)).1 .inNameMarks hbare

/-- Where a name breaks at a word, it does so at its first word. -/
theorem BreaksAt.takeWhile_eq (h : BreaksAt name word rest) :
    name.takeWhile isWord = word ∧ name.dropWhile isWord = rest := by
  obtain ⟨rfl, hword, hrest⟩ := h
  obtain ⟨c, others, rfl, hblank⟩ := hrest.exists_cons
  have hc : isWord c = false := isWord_eq_false_of_isBlank hblank
  constructor
  · rw [List.takeWhile_append_of_pos hword.isWord, List.takeWhile_cons_of_neg (by simp [hc]),
      List.append_nil]
  · rw [List.dropWhile_append_of_pos hword.isWord, List.dropWhile_cons_of_neg (by simp [hc])]

/-- It is not the word that it breaks at. -/
theorem BreaksAt.ne (h : BreaksAt name word rest) : word ≠ name := by
  intro heq
  obtain ⟨c, others, hcons, -⟩ := h.opensGap.exists_cons
  have hlength := congrArg List.length h.eq_append
  rw [heq, hcons] at hlength
  simp at hlength

/-- A name that breaks at a word gives a column that is called by the word. -/
theorem BreaksAt.ofText (h : BreaksAt name word rest) (hquote : ∀ c ∈ name, ¬isQuote c)
    (htype : startsWord type) : Clause.ofText (quoteName name ++ ' ' :: type) =
      .ok (.column ⟨word, quoteName word ++ (rest ++ nameMark :: ' ' :: type),
        mentions (quoteName name ++ ' ' :: type) primaryKeyWords⟩) := by
  obtain ⟨rfl, hword, hrest⟩ := h
  obtain ⟨c, others, rfl, hblank⟩ := hrest.exists_cons
  have hhead : ∀ d ∈ (c :: others).head?, ¬isWord d := by
    simpa using isWord_eq_false_of_isBlank hblank
  have hread := columnHead?_quoteName_append hword hhead
    (fun d hd => hquote d (List.mem_append_right word hd)) htype
  rw [if_neg (List.cons_ne_nil c others), if_pos hrest] at hread
  rw [Clause.ofText, hread]
  rfl

/-- A name that is no word and does not break at one gives no column. -/
theorem columnHead?_quoteName_eq_none (hname : ¬IsName name)
    (hbreaks : ∀ word rest, ¬BreaksAt name word rest) (hquote : ∀ c ∈ name, ¬isQuote c)
    (htype : startsWord type) : columnHead? (quoteName name ++ ' ' :: type) = none := by
  have hsplit : name.takeWhile isWord ++ name.dropWhile isWord = name :=
    List.takeWhile_append_dropWhile
  have hhead : ∀ c ∈ (name.dropWhile isWord).head?, ¬isWord c := by
    intro c hc
    have hnot := List.head?_dropWhile_not isWord name
    simpa [Option.mem_def.1 hc] using hnot
  by_cases hnil : name.takeWhile isWord = []
  · rw [hnil, List.nil_append] at hsplit
    exact columnHead?_quoteName_of_not_isWord (hsplit ▸ hhead) type
  · have hword : IsName (name.takeWhile isWord) :=
      ⟨hnil, fun c hc => List.mem_takeWhile_imp hc⟩
    have hrest : name.dropWhile isWord ≠ [] := by
      intro hnil'
      rw [hnil', List.append_nil] at hsplit
      exact hname (hsplit ▸ hword)
    have hgap : ¬OpensGap (name.dropWhile isWord) := fun hgap =>
      hbreaks _ _ ⟨hsplit.symm, hword, hgap⟩
    have hread := columnHead?_quoteName_append hword hhead
      (fun c hc => hquote c (hsplit ▸ List.mem_append_right _ hc)) htype
    rwa [hsplit, if_neg hrest, if_neg hgap] at hread

/-- Between name marks a name that is a word names a column, and a name that breaks at a word names
one by that word, with the rest of the name in front of its type. No other name gives a column, so
just the names that break are neither taken whole nor left out. -/
theorem ofText_quotedName (hquote : ∀ c ∈ name, ¬isQuote c) (htype : startsWord type) :
    (IsName name → Clause.ofText (quoteName name ++ ' ' :: type) =
      .ok (.column ⟨name, quoteName name ++ ' ' :: type, mentions type primaryKeyWords⟩)) ∧
    (∀ word rest, BreaksAt name word rest → Clause.ofText (quoteName name ++ ' ' :: type) =
      .ok (.column ⟨word, quoteName word ++ (rest ++ nameMark :: ' ' :: type),
        mentions (quoteName name ++ ' ' :: type) primaryKeyWords⟩)) ∧
    (¬IsName name → (∀ word rest, ¬BreaksAt name word rest) →
      ∀ column, Clause.ofText (quoteName name ++ ' ' :: type) ≠ .ok (.column column)) ∧
    (TakenWhole name (quoteName name ++ ' ' :: type) ↔ ∀ word rest, ¬BreaksAt name word rest) := by
  have hother : ¬IsName name → (∀ word rest, ¬BreaksAt name word rest) →
      ∀ column, Clause.ofText (quoteName name ++ ' ' :: type) ≠ .ok (.column column) := by
    intro hname hbreaks column
    rw [Clause.ofText, columnHead?_quoteName_eq_none hname hbreaks hquote htype]
    exact ofKey_ne_column _ column
  refine ⟨fun hname => ofText_quoteName hname htype,
    fun word rest hbreaks => hbreaks.ofText hquote htype, hother, ?_⟩
  constructor
  · intro htaken word rest hbreaks
    exact hbreaks.ne (htaken _ (hbreaks.ofText hquote htype)).1
  · intro hbreaks column hread
    by_cases hname : IsName name
    · rw [ofText_quoteName hname htype] at hread
      obtain rfl := Clause.column.inj (Except.ok.inj hread)
      exact ⟨rfl, rfl⟩
    · exact absurd hread (hother hname hbreaks column)

/-- A name with a hyphen gives no column, so it is not taken apart. -/
theorem takenWhole_of_hyphen :
    TakenWhole "net-price" "`net-price` int" ∧
      ∀ column, Clause.ofText "`net-price` int" ≠ .ok (.column column) := by
  have hquote : ∀ c ∈ "net-price".toList, ¬isQuote c :=
    List.all_iff_forall_prop.1 (by decide)
  have hclause : quoteName "net-price" ++ ' ' :: "int".toList = "`net-price` int".toList := by
    decide
  have hname : ¬IsName "net-price" := by decide
  have hbreaks : ∀ word rest, ¬BreaksAt "net-price" word rest := by
    intro word rest h
    have hrest := h.opensGap
    rw [← h.takeWhile_eq.2] at hrest
    revert hrest
    decide
  have htype : startsWord "int" := by decide
  obtain ⟨-, -, hnone, htaken⟩ := ofText_quotedName hquote htype
  rw [hclause] at hnone htaken
  exact ⟨htaken.2 hbreaks, hnone hname hbreaks⟩

/-- A name with a blank in it is cut at the blank, and of the marks around it one is left in the
definition of the column. -/
theorem not_takenWhole_of_blank :
    Clause.ofText "`order date` int" = .ok (.column ⟨"order", "`order` date` int", false⟩) ∧
      ¬TakenWhole "order date" "`order date` int" := by
  have hread : Clause.ofText "`order date` int" =
      .ok (.column ⟨"order", "`order` date` int", false⟩) := by
    decide +kernel
  refine ⟨hread, fun htaken => ?_⟩
  have hname := (htaken _ hread).1
  revert hname
  decide

end SchemaDelta.Dump
