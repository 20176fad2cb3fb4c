import SchemaDelta.Proofs.Dump.Literals
import SchemaDelta.Proofs.Dump.Stitch
import SchemaDelta.Proofs.Text.Order
import SchemaDelta.Proofs.Text.Stretches

/-!
# Comments in clean texts

A clean text is cleaned again without a change exactly if nothing in it reads as a comment
(`clean_eq_self_iff`). Line comments leave the line feed behind them and blanks leave a space, so
neither brings characters together. A block comment leaves nothing: `clean_clean_iff` says that a
clean text has a comment exactly if two hyphens, or the two characters of an opening mark that is
closed further on, had block comments between them and nothing else.
-/

namespace SchemaDelta.Dump

open Text

/-- Nothing in the text reads as a comment: no two hyphens are side by side, and no block comment
opens that is closed further on. -/
structure Uncommented (t : Text) : Prop where
  undashed : Undashed t
  unblocked : Unblocked t

theorem undashed_iff {t : Text} : Undashed t ↔ ¬InOrder ["--".toList] t := by
  constructor
  · rintro h ⟨front, behind, rfl, -⟩
    exact absurd (Apart.of_part h ⟨front, behind, rfl⟩) (by decide)
  · intro h
    refine apart_of_not_occursIn fun hoccurs => h ?_
    obtain ⟨front, behind, rfl⟩ := occursIn_iff.1 hoccurs
    exact ⟨front, behind, rfl, trivial⟩

theorem unblocked_iff {t : Text} : Unblocked t ↔ ¬InOrder ["/*".toList, "*/".toList] t := by
  constructor
  · rintro h ⟨front, behind, rfl, between, rest, rfl, -⟩
    exact h front _ (by simp) ⟨between, rest, rfl⟩
  · rintro h front behind rfl ⟨between, rest, rfl⟩
    exact h ⟨front, between ++ ['*', '/'] ++ rest, by simp, between, rest, rfl, trivial⟩

/-- The marks of the two kinds of comments. -/
def commentMarks : List (List Text) := [["--"], ["/*", "*/"]]

/-- No mark of a comment is empty, and none has a blank or a semicolon in it. -/
theorem commentMarks_spec {marks : List Text} (h : marks ∈ commentMarks) :
    (∀ mark ∈ marks, mark ≠ []) ∧ (∀ mark ∈ marks, ∀ c ∈ mark, ¬isBlank c) ∧
      ∀ mark ∈ marks, ';' ∉ mark := by
  simp only [commentMarks, List.mem_cons, List.not_mem_nil, or_false] at h
  rcases h with rfl | rfl <;> simp [isBlank]

/-- A text is uncommented just if the marks of no comment stand in it in order. -/
theorem uncommented_iff {t : Text} : Uncommented t ↔ ∀ marks ∈ commentMarks, ¬InOrder marks t := by
  constructor
  · rintro ⟨hdash, hblock⟩
    simpa [commentMarks] using ⟨undashed_iff.1 hdash, unblocked_iff.1 hblock⟩
  · intro h
    exact ⟨undashed_iff.2 (h _ (by simp [commentMarks])),
      unblocked_iff.2 (h _ (by simp [commentMarks]))⟩

/-- A part of an uncommented text is uncommented. -/
theorem Uncommented.of_part {t part : Text} (h : Uncommented t) (hpart : part <:+: t) :
    Uncommented part := by
  rw [uncommented_iff] at h ⊢
  exact fun marks hmarks hpartMarks => h marks hmarks (hpartMarks.of_isInfix hpart)

/-! ## Cleaning again -/

theorem tidy_clean (t : Text) : Tidy (clean t) :=
  (singleSpaced_squeeze _ false).1.tidy_trim

/-- A text is clean exactly if it is tidy and nothing in it reads as a comment. -/
theorem clean_eq_self_iff {t : Text} : clean t = t ↔ Tidy t ∧ Uncommented t := by
  constructor
  · intro hself
    have hline : (dropLineComments false t).Sublist t := (removed_lineComment none t).sublist
    have hblock := (removed_blockComment none (dropLineComments false t)).sublist
    -- No step makes a text longer, so each of them leaves it as it is.
    have hspaces : t.length ≤ (dropBlockComments .outside (dropLineComments false t)).length := by
      conv_lhs => rw [← hself, clean_eq_normalizeBlanks, ← trim_squeeze]
      exact (trim_isInfix _).length_le.trans (length_squeeze_le false _)
    have hleft : dropLineComments false t = t :=
      hline.eq_of_length_le (hspaces.trans hblock.length_le)
    rw [hleft] at hblock hspaces
    exact ⟨hself ▸ tidy_clean t, dropLineComments_eq_self_iff.1 hleft,
      dropBlockComments_eq_self_iff.1 (hblock.eq_of_length_le hspaces)⟩
  · rintro ⟨htidy, hdash, hblock⟩
    rw [clean_eq_normalizeBlanks, dropLineComments_eq_self_iff.2 hdash,
      dropBlockComments_eq_self_iff.2 hblock, htidy.normalizeBlanks_eq]

/-- Making blanks single spaces neither makes a comment nor undoes one. -/
theorem uncommented_clean_iff {t : Text} : Uncommented (clean t) ↔
    Uncommented (dropBlockComments .outside (dropLineComments false t)) := by
  rw [uncommented_iff, uncommented_iff, clean_eq_normalizeBlanks]
  refine forall₂_congr fun marks hmarks => not_congr ?_
  obtain ⟨hne, hblank, -⟩ := commentMarks_spec hmarks
  exact inOrder_normalizeBlanks_iff hne hblank _

/-! ## Characters that meet -/

/-- Line comments leave the line feed behind them, so no two hyphens meet. -/
theorem undashed_dropLineComments (inside : Bool) (t : Text) :
    Undashed (dropLineComments inside t) := by
  induction t generalizing inside with
  | nil => exact .nil
  | cons c rest ih =>
      rw [dropLineComments]
      split
      · split
        · next hfeed => exact (ih false).cons fun _ _ hboth => by simp [hfeed] at hboth
        · exact ih true
      · split
        · exact ih true
        · next hdash =>
          refine (ih false).cons fun d hd hboth => hdash ⟨hboth.1, ?_⟩
          -- What the rest of the text starts with is left, or it is the hyphen of a comment.
          cases rest with
          | nil => simp [dropLineComments] at hd
          | cons e rest =>
              by_cases he : e = '-'
              · rw [he, List.head?_cons]
              · obtain rfl : e = d := by simpa [dropLineComments, he] using hd
                exact absurd hboth.2 he

/-- A closing mark that is left stood in the text before. -/
theorem closed_of_leftOf {before : Option Char} {t : Text} {stretches : List Stretch}
    (h : Stretches BlockComment before t stretches) (hclose : ['*', '/'] <:+: leftOf stretches) :
    ['*', '/'] <:+: t := by
  by_cases htaken : ∃ matched, .taken matched ∈ stretches
  · obtain ⟨matched, hmem⟩ := htaken
    obtain ⟨_, _, body, rfl, -⟩ := h.exists_match hmem
    have hcomment : ['*', '/'] <:+: '/' :: '*' :: body ++ ['*', '/'] :=
      (List.suffix_append _ _).isInfix
    rw [← h.textOf_eq]
    exact hcomment.trans (isInfix_textOf hmem)
  · rw [← h.textOf_eq, textOf_eq_leftOf fun matched hmem => htaken ⟨matched, hmem⟩]
    exact hclose

/-- An opening mark that stood in the text before is not closed in what is left behind it: it would
have been the start of a comment. -/
theorem not_closed_of_adjacent {before : Option Char} {t : Text} {back : List Stretch}
    (h : Stretches BlockComment before t (.kept '/' :: .kept '*' :: back)) :
    ¬['*', '/'] <:+: leftOf back := by
  intro hclose
  cases h with
  | kept hno hrest =>
      cases hrest with
      | kept _ hback =>
          obtain ⟨body, behind, rfl, hbody⟩ := exists_first_pair (closed_of_leftOf hback hclose)
          exact hno ('/' :: '*' :: body ++ ['*', '/']) behind (by simp) (by simp) ⟨body, rfl, hbody⟩

/-- What is left of a text without two hyphens side by side is uncommented if no characters meet to
be the mark of a comment. -/
theorem uncommented_leftOf_iff {before : Option Char} {t : Text} {stretches : List Stretch}
    (h : Stretches BlockComment before t stretches) (hdash : Undashed t) :
    Uncommented (leftOf stretches) ↔ (∀ behind, ¬Meet '-' '-' behind stretches) ∧
      ∀ behind, Meet '/' '*' behind stretches → ¬['*', '/'] <:+: behind := by
  constructor
  · rintro ⟨hundashed, hunblocked⟩
    refine ⟨fun behind hmeet => ?_, fun behind hmeet => ?_⟩
    · obtain ⟨front, hfront⟩ := exists_leftOf_eq_iff.2 (.inl hmeet)
      exact undashed_iff.1 hundashed ⟨front, behind, by rw [hfront]; simp, trivial⟩
    · obtain ⟨front, hfront⟩ := exists_leftOf_eq_iff.2 (.inl hmeet)
      exact hunblocked front behind hfront
  · rintro ⟨hdashes, hmarks⟩
    refine ⟨undashed_iff.2 ?_, fun front behind hleft hclose => ?_⟩
    · rintro ⟨front, behind, hleft, -⟩
      have hpair : leftOf stretches = front ++ '-' :: '-' :: behind := by simpa using hleft
      rcases exists_leftOf_eq_iff.1 ⟨front, hpair⟩ with hmeet | ⟨start, back, rfl, -⟩
      · exact hdashes behind hmeet
      · refine undashed_iff.1 hdash ⟨textOf start, textOf back, ?_, trivial⟩
        rw [← h.textOf_eq]
        simp [textOf, Stretch.text]
    · rcases exists_leftOf_eq_iff.1 ⟨front, hleft⟩ with hmeet | ⟨start, back, rfl, rfl⟩
      · exact hmarks behind hmeet hclose
      · obtain ⟨_, _, hback⟩ := h.of_append
        exact not_closed_of_adjacent hback hclose

/-! ## Statements -/

/-- The statements of a dump are uncommented if its clean text is. -/
theorem Uncommented.of_mem_statements {t sql : Text} (h : Uncommented (clean t))
    (hsql : sql ∈ statements t) : Uncommented sql := by
  obtain ⟨blocks, hgrouping, hstatements⟩ := (grouped_walk (fragments t)).1
  have hmem : sql ∈ blocks.filterMap Block.statement? := hstatements ▸ hsql
  obtain ⟨block, hblock, hstatement⟩ := List.mem_filterMap.1 hmem
  have hfirst : block.first ∈ fragments t := by
    rw [← hgrouping.flatMap_fragments]
    exact List.mem_flatMap.2 ⟨block, hblock, List.mem_cons_self⟩
  have hsingle : SingleSpaced block.first :=
    (singleSpaced_clean t).of_part (isInfix_of_mem_pieces hfirst)
  have hsemicolon : ';' ∉ block.first := fun hmem => not_of_mem_pieces hfirst hmem (by simp)
  have hcut : Uncommented block.cut := h.of_part (hgrouping.cut_isInfix hblock)
  obtain ⟨hseamless, hseam⟩ :=
    (hgrouping.lawful block hblock).statement_cut hsingle hsemicolon hstatement
  by_cases hblank : block.Seamless
  · rwa [hseamless.2 hblank]
  · -- No mark has a semicolon in it, so it does not matter what stands in front of the first one.
    obtain ⟨front, back, -, rfl, heq⟩ := hseam hblank
    rw [heq, uncommented_iff] at hcut
    refine uncommented_iff.2 fun marks hmarks hinOrder => hcut marks hmarks ?_
    obtain ⟨-, -, hplain⟩ := commentMarks_spec hmarks
    obtain ⟨before, behind, rfl, hbefore, hbehind⟩ := (inOrder_append_cons hplain).1 hinOrder
    exact hbefore.append (hbehind.append_left [' ', ';'])

/-- A clean text stays as it is when it is cleaned again exactly if nothing in it reads as a
comment. It has none exactly if, in the text without line comments, neither two hyphens nor the two
characters of an opening mark that is closed further on have block comments between them and
nothing else. Then every statement stays as it is too. -/
theorem clean_clean_iff (t : Text) :
    (clean (clean t) = clean t ↔ Uncommented (clean t)) ∧
    (∃ u stretches, (∀ left, Removed LineComment none t left ↔ left = u) ∧
      (∀ cut, Stretches BlockComment none u cut ↔ cut = stretches) ∧
      (Uncommented (clean t) ↔ (∀ behind, ¬Meet '-' '-' behind stretches) ∧
        ∀ behind, Meet '/' '*' behind stretches → ¬['*', '/'] <:+: behind)) ∧
    (Uncommented (clean t) → ∀ sql ∈ statements t, Uncommented sql ∧ clean sql = sql) := by
  have hblock := removed_blockComment none (dropLineComments false t)
  obtain ⟨stretches, hstretches, hleft⟩ := hblock.exists_stretches
  refine ⟨?_, ⟨dropLineComments false t, stretches,
    fun _ => (removed_lineComment none t).iff_eq definite_lineComment, fun cut => ?_, ?_⟩, ?_⟩
  · rw [clean_eq_self_iff, and_iff_right (tidy_clean t)]
  · refine ⟨fun hcut => hcut.unique definite_blockComment hstretches, fun heq => ?_⟩
    rw [heq]
    exact hstretches
  · rw [uncommented_clean_iff, ← hleft]
    exact uncommented_leftOf_iff hstretches (undashed_dropLineComments false t)
  · intro h sql hsql
    have huncommented := h.of_mem_statements hsql
    exact ⟨huncommented, clean_eq_self_iff.2 ⟨tidy_of_mem_statements hsql, huncommented⟩⟩

/-- A difference of a number and a negative number, with a comment between the two signs. -/
def partedSigns : Text := "CREATE TABLE t (a int DEFAULT (5 -/* minus */- 3), b int);"

/-- The two signs meet, and what is behind them is a comment from then on: cleaning again takes it
out, and the script that creates the table has no statement in it when it is read. -/
theorem not_uncommented_clean_partedSigns :
    clean partedSigns = "CREATE TABLE t (a int DEFAULT (5 -- 3), b int);".toList ∧
      ¬Undashed (clean partedSigns) ∧
      clean (clean partedSigns) = "CREATE TABLE t (a int DEFAULT (5".toList ∧
      clean partedSigns ∈ plainLines (Script.ofTexts [] partedSigns) ∧
      statements (Script.ofTexts [] partedSigns) = [] := by
  decide +kernel

/-- The two characters of an opening mark meet in the same way. -/
example : clean "//* x */* y */" = "/* y */".toList ∧ clean (clean "//* x */* y */") = [] := by
  decide +kernel

end SchemaDelta.Dump
