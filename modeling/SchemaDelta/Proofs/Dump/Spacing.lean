import SchemaDelta.Proofs.Dump.Comments
import SchemaDelta.Script

/-!
# Spacing

Lines of blanks as a pattern: the blanks from the start of a line to the last line feed that only
blanks lead up to, or to the end of the text. The pass over lines takes them out
(`removed_blankLines`). Their words stay apart, since the line feed in front of a match stays. So
the layout of a dump has no influence on what is read: `clean_layout` says what a clean text is in
terms of the three patterns, and that dumps without comments which differ in blanks only give the
same report and the same scripts.
-/

namespace SchemaDelta.Dump

open Text

/-- Blanks that end with a line or with the text. -/
structure FillsLines (blanks behind : Text) : Prop where
  isBlank : ∀ c ∈ blanks, isBlank c
  ends : blanks.getLast? = some '\n' ∨ behind = []

/-- As many blanks as there are from the start of a line to the end of one or of the text. -/
def BlankLines : Pattern := fun before matched behind =>
  (∀ c ∈ before, c = '\n') ∧ FillsLines matched behind ∧
    ∀ more rest, behind = more ++ rest → FillsLines (matched ++ more) rest → more = []

/-- There is only one longest match. -/
theorem definite_blankLines : BlankLines.Definite :=
  fun hmatch hlonger => hmatch.2.2 _ _ rfl hlonger.2.1

variable {before : Option Char}

/-- Lines of blanks are the start of a match. -/
theorem FillsLines.exists_match {line behind : Text} (hbefore : ∀ c ∈ before, c = '\n')
    (h : FillsLines line behind) :
    ∃ more rest, behind = more ++ rest ∧ BlankLines before (line ++ more) rest := by
  by_cases hlongest : ∀ more rest, behind = more ++ rest → FillsLines (line ++ more) rest →
      more = []
  · exact ⟨[], behind, rfl, hbefore, by rwa [List.append_nil], by rwa [List.append_nil]⟩
  · push Not at hlongest
    obtain ⟨more, rest, heq, hmore, hne⟩ := hlongest
    have hshorter : rest.length < behind.length := by
      have hpos := List.length_pos_of_ne_nil hne
      rw [heq, List.length_append]
      omega
    obtain ⟨again, last, rfl, hmatch⟩ := hmore.exists_match hbefore
    exact ⟨more ++ again, last, by rw [heq, List.append_assoc], by rwa [← List.append_assoc]⟩
termination_by behind.length

variable {line behind left : Text}

/-- Blanks in front of lines of blanks are lines of blanks with them. -/
theorem FillsLines.append (hline : ∀ c ∈ line, Text.isBlank c) {more rest : Text} (hne : more ≠ [])
    (h : FillsLines more rest) : FillsLines (line ++ more) rest := by
  refine ⟨fun c hc => ?_, ?_⟩
  · exact (List.mem_append.1 hc).elim (hline c) (h.isBlank c)
  · rw [List.getLast?_append_of_ne_nil line hne]
    exact h.ends

/-- In a match, what is behind a line is a match too. -/
theorem blankLines_behind {more rest : Text} (h : BlankLines before (line ++ more) rest)
    (hfeed : line.getLast? = some '\n') (hne : more ≠ []) :
    BlankLines line.getLast? more rest := by
  obtain ⟨-, hfills, hlongest⟩ := h
  have hline : ∀ c ∈ line, Text.isBlank c := fun c hc =>
    hfills.isBlank c (List.mem_append_left more hc)
  refine ⟨fun c hc => ?_, ⟨fun c hc => ?_, ?_⟩, fun again last heq hagain => ?_⟩
  · rw [hfeed] at hc
    exact (Option.some.inj hc).symm
  · exact hfills.isBlank c (List.mem_append_right line hc)
  · rw [← List.getLast?_append_of_ne_nil line hne]
    exact hfills.ends
  · refine hlongest again last heq ?_
    rw [List.append_assoc]
    exact hagain.append hline (List.append_ne_nil_of_left_ne_nil hne again)

/-- A line of blanks is taken out together with those behind it. -/
theorem removed_blank_line (hbefore : ∀ c ∈ before, c = '\n') (hne : line ≠ [])
    (hline : FillsLines line behind) (h : Removed BlankLines line.getLast? behind left) :
    Removed BlankLines before (line ++ behind) left := by
  obtain ⟨more, rest, rfl, hmatch⟩ := hline.exists_match hbefore
  rw [← List.append_assoc]
  refine .drop hmatch (List.append_ne_nil_of_left_ne_nil hne more) ?_
  by_cases hmore : more = []
  · subst hmore
    rwa [List.append_nil]
  · have hfeed : line.getLast? = some '\n' :=
      hline.ends.resolve_right (List.append_ne_nil_of_left_ne_nil hmore rest)
    rw [List.getLast?_append_of_ne_nil line hmore]
    exact h.of_match definite_blankLines (blankLines_behind hmatch hfeed hmore) hmore

/-- No match starts within a line. -/
theorem removed_in_line {c : Char} (hline : '\n' ∉ (c :: line).dropLast)
    (h : Removed BlankLines (c :: line).getLast? behind left) :
    Removed BlankLines (some c) (line ++ behind) (line ++ left) := by
  induction line generalizing c with
  | nil => exact h
  | cons d line ih =>
      rw [List.dropLast_cons_cons, List.mem_cons, not_or] at hline
      have hc : ¬∀ e ∈ some c, e = '\n' := fun hfeed => hline.1 (hfeed c rfl).symm
      exact .keep (fun _ _ _ _ hmatch => hc hmatch.1) (ih hline.2 (List.getLast?_cons_cons ▸ h))

/-- No match starts with a line that holds more than blanks. -/
theorem not_blankLines_of_line (hline : '\n' ∉ line.dropLast) (htext : ∃ c ∈ line, ¬isBlank c)
    {matched rest : Text} (heq : line ++ behind = matched ++ rest) :
    ¬BlankLines before matched rest := by
  rintro ⟨-, ⟨hblanks, hends⟩, -⟩
  obtain ⟨c, hc, hblank⟩ := htext
  have hcmatched : c ∉ matched := fun hmem => hblank (hblanks c hmem)
  obtain ⟨front, back, rfl⟩ := List.append_of_mem hc
  have hstart : matched <+: front ++ c :: (back ++ behind) := ⟨rest, by rw [← heq]; simp⟩
  have hprefix : matched <+: front := isPrefix_of_append_cons hstart hcmatched
  rcases hends with hlast | rfl
  · have hfeed : '\n' ∈ front := hprefix.subset (List.mem_of_getLast? hlast)
    rw [List.dropLast_append_of_ne_nil (List.cons_ne_nil c back)] at hline
    exact hline (List.mem_append_left _ hfeed)
  · rw [List.append_nil] at heq
    exact hcmatched (heq ▸ by simp)

/-- Of lines that hold more than blanks and lines of blanks, the lines of blanks are taken out. -/
theorem removed_flatten {lines : List Text}
    (hpairwise : lines.Pairwise fun line _ => line.getLast? = some '\n')
    (hlines : ∀ line ∈ lines, line ≠ [] ∧ '\n' ∉ line.dropLast)
    (hbefore : ∀ c ∈ before, c = '\n') :
    Removed BlankLines before lines.flatten
      (lines.filter fun line => !line.all isBlank).flatten := by
  induction lines generalizing before with
  | nil => exact .nil
  | cons line rest ih =>
      obtain ⟨hfeed, hpairwise⟩ := List.pairwise_cons.1 hpairwise
      obtain ⟨⟨hne, hline⟩, hlines⟩ := List.forall_mem_cons.1 hlines
      have hrest : Removed BlankLines line.getLast? rest.flatten
          (rest.filter fun line => !line.all isBlank).flatten := by
        cases rest with
        | nil => exact .nil
        | cons second others =>
            refine ih hpairwise hlines fun c hc => ?_
            rw [hfeed second List.mem_cons_self] at hc
            exact (Option.some.inj hc).symm
      rw [List.filter_cons, List.flatten_cons]
      split
      · next htext =>
        have hmore : ∃ c ∈ line, ¬isBlank c := by simpa using htext
        cases line with
        | nil => exact absurd rfl hne
        | cons c line =>
            exact .keep (fun _ _ heq _ => not_blankLines_of_line hline hmore heq)
              (removed_in_line hline hrest)
      · next hblank =>
        refine removed_blank_line hbefore hne ⟨by simpa using hblank, ?_⟩ hrest
        cases rest with
        | nil => exact .inr rfl
        | cons second others => exact .inl (hfeed second List.mem_cons_self)

/-- The pass over the lines of a text takes the lines of blanks out. -/
theorem removed_blankLines (t : Text) : Removed BlankLines none t (dropBlankLines t) := by
  have hbefore : ∀ c ∈ (none : Option Char), c = '\n' := by simp
  have h := removed_flatten (pairwise_lines t) (fun _ => newline_not_mem_dropLast) hbefore
  rwa [flatten_lines] at h

/-- Dumps that are the same when they are clean give the same report. -/
theorem report_congr {text other : Text} (h : clean text = clean other) :
    Report.ofText text = Report.ofText other := by
  have hfragments : fragments text = fragments other := congrArg (pieces (· == ';')) h
  have hstatements : statements text = statements other := by
    rw [statements, statements, outcomes, outcomes, hfragments]
  exact congrArg Report.ofStatements hstatements

/-- Dumps without comments that differ in blanks only are the same when they are clean. -/
theorem clean_congr {text other : Text} (htext : Undashed text ∧ Apart '/' '*' text)
    (hother : Undashed other ∧ Apart '/' '*' other)
    (h : normalizeBlanks text = normalizeBlanks other) : clean text = clean other := by
  have hplain {t : Text} (ht : Undashed t ∧ Apart '/' '*' t) : clean t = normalizeBlanks t := by
    rw [clean_eq_normalizeBlanks, dropLineComments_of_undashed ht.1,
      dropBlockComments_of_apart ht.2]
  rw [hplain htext, hplain hother, h]

/-- A clean text is what is left when line comments are taken out of a text, then block comments
and then lines of blanks, with single spaces for what blanks there are. Whether lines of blanks are
taken out makes no difference: no words are joined by it. So dumps without comments that differ in
blanks only give the same report, and each gives the scripts that the other one gives, whatever the
dump on the other side is. -/
theorem clean_layout (text : Text) :
    (∃ u v w, (∀ left, Removed LineComment none text left ↔ left = u) ∧
      (∀ left, Removed BlockComment none u left ↔ left = v) ∧
      (∀ left, Removed BlankLines none v left ↔ left = w) ∧
      words w = words v ∧ clean text = trim (squeeze false w) ∧ clean text = normalizeBlanks v) ∧
    ∀ other, Undashed text ∧ Apart '/' '*' text → Undashed other ∧ Apart '/' '*' other →
      normalizeBlanks text = normalizeBlanks other →
      Report.ofText text = Report.ofText other ∧
      ∀ third, Script.ofTexts text third = Script.ofTexts other third ∧
        Script.ofTexts third text = Script.ofTexts third other := by
  refine ⟨⟨dropLineComments false text,
    dropBlockComments .outside (dropLineComments false text),
    dropBlankLines (dropBlockComments .outside (dropLineComments false text)),
    fun _ => (removed_lineComment none text).iff_eq definite_lineComment,
    fun _ => (removed_blockComment none _).iff_eq definite_blockComment,
    fun _ => (removed_blankLines _).iff_eq definite_blankLines,
    words_dropBlankLines _, rfl, clean_eq_normalizeBlanks text⟩, ?_⟩
  intro other htext hother hblanks
  have hreport := report_congr (clean_congr htext hother hblanks)
  have hschema : schemaOfText text = schemaOfText other := congrArg Report.schema hreport
  exact ⟨hreport, fun third => by simp only [Script.ofTexts, hschema, and_self]⟩

end SchemaDelta.Dump
