import SchemaDelta.Proofs.Dump.Statements
import SchemaDelta.Proofs.Text.Words

/-!
# Cleaning line by line

What is left of a text when its comments are out is cleaned by taking its words and putting
single spaces between them (`clean_eq_normalizeBlanks`). A line comment ends with its line, so a
text of several lines is cleaned line by line as long as no block comment opens in it
(`clean_join`). What has no comments does not reach into the text behind it
(`clean_append_cons`).
-/

namespace SchemaDelta.Dump

open Text

/-- A line comment does not go on behind a line feed. -/
theorem dropLineComments_append {line : Text} (h : '\n' ∉ line) (inside : Bool) (rest : Text) :
    dropLineComments inside (line ++ '\n' :: rest) =
      dropLineComments inside line ++ '\n' :: dropLineComments false rest := by
  induction line generalizing inside with
  | nil => cases inside <;> simp [dropLineComments]
  | cons c r ih =>
      rw [List.mem_cons, not_or] at h
      obtain ⟨hc, hr⟩ := h
      cases inside with
      | true => simp [dropLineComments, Ne.symm hc, ih hr]
      | false =>
          -- The character behind is the line feed only where the line ends.
          have hhead : (r ++ '\n' :: rest).head? = some '-' ↔ r.head? = some '-' := by
            cases r <;> simp
          simp only [List.cons_append, dropLineComments, Bool.false_eq_true, if_false, hhead]
          split
          · exact ih hr true
          · rw [ih hr false, List.cons_append]

/-- Line comments are dropped line by line. -/
theorem dropLineComments_join {lines : List Text} (h : ∀ line ∈ lines, '\n' ∉ line) :
    dropLineComments false (join "\n" lines) =
      join "\n" (lines.map (dropLineComments false)) := by
  induction lines with
  | nil => rfl
  | cons first rest ih =>
      obtain ⟨hfirst, hrest⟩ := List.forall_mem_cons.1 h
      cases rest with
      | nil => simp
      | cons second others =>
          rw [join_cons "\n" first (List.cons_ne_nil second others), List.append_assoc]
          show dropLineComments false (first ++ '\n' :: join "\n" (second :: others)) =
            join "\n" (dropLineComments false first :: (second :: others).map _)
          rw [dropLineComments_append hfirst, ih hrest, join_cons "\n" _ (by simp),
            List.append_assoc]
          rfl

/-- Nothing is left of a line that a comment goes through. -/
theorem dropLineComments_inside {line : Text} (h : '\n' ∉ line) :
    dropLineComments true line = [] := by
  induction line with
  | nil => rfl
  | cons c r ih =>
      rw [List.mem_cons, not_or] at h
      simp [dropLineComments, Ne.symm h.1, ih h.2]

/-- Nothing is left of a line that is a comment. -/
theorem dropLineComments_dashed {note : Text} (h : '\n' ∉ note) :
    dropLineComments false ("--" ++ note) = [] := by
  have hnote : '\n' ∉ '-' :: note := by simp [h]
  show dropLineComments true ('-' :: note) = []
  exact dropLineComments_inside hnote

/-- A text without two hyphens side by side has no line comment. -/
theorem dropLineComments_of_undashed {t : Text} (h : Undashed t) :
    dropLineComments false t = t := by
  induction t with
  | nil => rfl
  | cons c r ih =>
      have hdash : ¬(c = '-' ∧ r.head? = some '-') := fun hboth =>
        List.IsChain.rel_head? h hboth.2 ⟨hboth.1, rfl⟩
      rw [dropLineComments, if_neg (by simp), if_neg hdash, ih (List.IsChain.tail h)]

/-- A text without two hyphens side by side stays in front of the text behind it. -/
theorem dropLineComments_append_of_undashed {a : Text} (h : Undashed a) {c : Char} (hc : c ≠ '-')
    (b : Text) : dropLineComments false (a ++ c :: b) = a ++ c :: dropLineComments false b := by
  induction a with
  | nil => simp [dropLineComments, hc]
  | cons d r ih =>
      have hdash : ¬(d = '-' ∧ (r ++ c :: b).head? = some '-') := by
        intro hboth
        cases r with
        | nil => exact hc (Option.some.inj hboth.2)
        | cons e r =>
            exact (List.isChain_cons_cons.1 h).1 ⟨hboth.1, Option.some.inj hboth.2⟩
      rw [List.cons_append, dropLineComments, if_neg (by simp), if_neg hdash,
        ih (List.IsChain.tail h), List.cons_append]

/-- A block comment opens with an asterisk. -/
theorem head?_of_opensBlock {t : Text} (h : opensBlock t) : t.head? = some '*' := by
  unfold opensBlock at h
  split at h
  · rfl
  · simp at h

/-- A text in which no asterisk follows a slash has no block comment. -/
theorem dropBlockComments_of_apart {t : Text} (h : Apart '/' '*' t) :
    dropBlockComments .outside t = t := by
  induction t with
  | nil => rfl
  | cons c r ih =>
      have hopens : ¬(c = '/' ∧ opensBlock r) := fun hboth =>
        List.IsChain.rel_head? h (head?_of_opensBlock hboth.2) ⟨hboth.1, rfl⟩
      rw [dropBlockComments, if_neg hopens, ih (List.IsChain.tail h)]

/-- Such a text stays in front of the text behind it. -/
theorem dropBlockComments_append_of_apart {a : Text} (h : Apart '/' '*' a) {c : Char}
    (hslash : c ≠ '/') (hstar : c ≠ '*') (b : Text) :
    dropBlockComments .outside (a ++ c :: b) = a ++ c :: dropBlockComments .outside b := by
  induction a with
  | nil => simp [dropBlockComments, hslash]
  | cons d r ih =>
      have hopens : ¬(d = '/' ∧ opensBlock (r ++ c :: b)) := by
        intro hboth
        have hhead := head?_of_opensBlock hboth.2
        cases r with
        | nil => exact hstar (Option.some.inj hhead)
        | cons e r =>
            exact (List.isChain_cons_cons.1 h).1 ⟨hboth.1, Option.some.inj hhead⟩
      rw [List.cons_append, dropBlockComments, if_neg hopens, ih (List.IsChain.tail h),
        List.cons_append]

/-- Lines that hold only blanks have no words. -/
theorem words_dropBlankLines (t : Text) : words (dropBlankLines t) = words t := by
  conv_rhs => rw [← flatten_lines t, words_flatten (pairwise_lines t)]
  rw [dropBlankLines, words_flatten ((pairwise_lines t).filter _), flatMap_filter]
  refine List.flatMap_congr fun line _ => ?_
  split
  · rfl
  · next hblank =>
    refine (words_eq_nil ?_).symm
    simpa using hblank

/-- A clean text is what is left without comments, with single spaces between the words. -/
theorem clean_eq_normalizeBlanks (t : Text) :
    clean t = normalizeBlanks (dropBlockComments .outside (dropLineComments false t)) := by
  rw [clean, trim_squeeze, normalizeBlanks, words_dropBlankLines, normalizeBlanks]

/-- A tidy text without comments is clean. -/
theorem clean_eq_self {t : Text} (htidy : Tidy t) (hdash : Undashed t) (hslash : Apart '/' '*' t) :
    clean t = t := by
  rw [clean_eq_normalizeBlanks, dropLineComments_of_undashed hdash,
    dropBlockComments_of_apart hslash, htidy.normalizeBlanks_eq]

/-- A text is cleaned line by line if no block comment opens in what the line comments leave. -/
theorem clean_join {lines : List Text} (hlines : ∀ line ∈ lines, '\n' ∉ line)
    (happart : ∀ line ∈ lines, Apart '/' '*' (dropLineComments false line)) :
    clean (join "\n" lines) =
      join " " (lines.flatMap fun line => words (dropLineComments false line)) := by
  have hjoin : Apart '/' '*' (join "\n" (lines.map (dropLineComments false))) :=
    Apart.join (by simpa using happart) (by decide) (by decide)
  rw [clean_eq_normalizeBlanks, dropLineComments_join hlines, dropBlockComments_of_apart hjoin,
    normalizeBlanks]
  show join " " (words (join ['\n'] _)) = _
  rw [words_join (by decide), List.flatMap_map]

/-- Behind a text without comments and a semicolon another text is cleaned on its own, up to the
blanks around the semicolon. -/
theorem clean_append_cons {a : Text} (hdash : Undashed a) (hslash : Apart '/' '*' a) (b : Text) :
    ∃ front back, trimEnd front = clean a ∧ trimStart back = clean b ∧
      clean (a ++ ';' :: b) = front ++ ';' :: back := by
  have hsemicolon : ¬isBlank ';' := by decide
  have hplain : clean a = trim (squeeze false a) := by
    rw [clean_eq_normalizeBlanks, dropLineComments_of_undashed hdash,
      dropBlockComments_of_apart hslash, trim_squeeze]
  have hother : clean b =
      trim (squeeze false (dropBlockComments .outside (dropLineComments false b))) := by
    rw [clean_eq_normalizeBlanks, trim_squeeze]
  refine ⟨trimStart (squeeze false a),
    trimEnd (squeeze false (dropBlockComments .outside (dropLineComments false b))),
    hplain.symm, ?_, ?_⟩
  · rw [trimStart_trimEnd, hother]
  · rw [clean_eq_normalizeBlanks, dropLineComments_append_of_undashed hdash (by decide),
      dropBlockComments_append_of_apart hslash (by decide) (by decide), ← trim_squeeze,
      squeeze_append_cons false a hsemicolon, trim_append_cons_eq _ hsemicolon]

end SchemaDelta.Dump
