import SchemaDelta.Proofs.Dump.Clean
import SchemaDelta.Proofs.Dump.Head
import SchemaDelta.Proofs.Dump.WellFormed
import SchemaDelta.Proofs.Script.Active
import SchemaDelta.Proofs.Sql.Header

/-!
# Reading a script as a dump

A script is a dump too. Cleaning it takes out every line but the statements that the delta calls
for (`clean_ofTexts`), and where each of these is whole the statements of the script are just
these (`statements_ofTexts`). What is needed is that nothing in them reads as the opening of a
comment.
-/

namespace SchemaDelta

open Sql Text

/-- The text is in normal form, and nothing in it reads as the opening of a comment. -/
structure Text.Plain (t : Text) : Prop extends Normal t where
  undashed : Dump.Undashed t
  unslashed : Apart '/' '*' t

/-- A plain text stays plain when a semicolon ends it. -/
theorem Text.Plain.append_semicolon {t : Text} (h : Plain t) : Plain (t ++ ";") := by
  have hspaced : SingleSpaced (t ++ ';' :: []) := h.toSingleSpaced.append_cons .nil (by decide)
  refine ⟨⟨⟨hspaced, head?_append_cons h.head (by decide) [], fun c hc => ?_⟩, by simp⟩,
    Apart.append_cons h.undashed .nil (by decide) (by decide),
    Apart.append_cons h.unslashed .nil (by decide) (by decide)⟩
  obtain rfl : ';' = c := by simpa using hc
  decide

/-- A statement with a header is plain if nothing in the clean text of the dump reads as the
opening of a comment. -/
theorem plain_of_mem_statements {text sql : Text} {header : Header}
    (hdash : ¬occursIn "--" (Dump.clean text)) (hslash : ¬occursIn "/*" (Dump.clean text))
    (hmem : sql ∈ Dump.statements text) (h : Header.ofStatement? sql = some header) :
    Plain sql where
  toNormal := normal_of_mem_statements hmem h
  undashed := Dump.undashed_of_mem_statements hdash hmem
  unslashed := Dump.apart_of_mem_statements (by decide) (by decide) hslash hmem

/-! ## View drops -/

/-- A character that is no word character is in a view drop only if it is in its fixed part. -/
theorem not_mem_dropView {name : Text} (hname : IsName name) {c : Char} (hword : isWord c = false)
    (hfixed : c ∉ nameMark :: "DROP VIEW IF EXISTS ".toList) :
    c ∉ "DROP VIEW IF EXISTS " ++ quoteName name := by
  have hname' : c ∉ name := hname.not_mem hword
  rw [List.mem_cons, not_or] at hfixed
  rw [List.mem_append, not_or]
  exact ⟨hfixed.2, by simp [quoteName, hfixed.1, hname']⟩

/-- The text of a script's view drop, word by word. -/
theorem dropView_eq (name : Text) : "DROP VIEW IF EXISTS " ++ quoteName name = "DROP".toList ++
    (' ' :: ("VIEW".toList ++ (' ' :: ("IF".toList ++ (' ' :: ("EXISTS".toList ++
      (' ' :: quoteName name))))))) := by
  simp

/-- The statement that a script writes to drop a view is plain. -/
theorem plain_dropView {name : Text} (hname : IsName name) :
    Plain ("DROP VIEW IF EXISTS " ++ quoteName name) := by
  have hquoted : Tidy (quoteName name) :=
    tidy_of_not_isBlank fun _ hc => hname.not_isBlank_quoteName hc
  have htidy : Tidy ("DROP VIEW IF EXISTS " ++ quoteName name) := by
    have hword : ∀ word : Text, word.all (!isBlank ·) → ∀ c ∈ word, ¬isBlank c :=
      fun word hall => by simpa using hall
    rw [dropView_eq]
    refine Tidy.append_space (by simp) (hword _ (by decide)) (by simp) ?_
    refine Tidy.append_space (by simp) (hword _ (by decide)) (by simp) ?_
    refine Tidy.append_space (by simp) (hword _ (by decide)) (by simp) ?_
    exact Tidy.append_space (by simp) (hword _ (by decide)) (by simp [quoteName]) hquoted
  exact ⟨⟨htidy, by simp⟩, apart_of_not_mem (not_mem_dropView hname (by decide) (by decide)),
    apart_of_not_mem (not_mem_dropView hname (by decide) (by decide))⟩

/-- The statement that a script writes to drop a view is whole. -/
theorem whole_dropView {name : Text} (hname : IsName name) :
    Dump.Whole ("DROP VIEW IF EXISTS " ++ quoteName name) := by
  have hplain := plain_dropView hname
  have hbalance : parenBalance ("DROP VIEW IF EXISTS " ++ quoteName name) = 0 := by
    have hopen := not_mem_dropView hname (c := '(') (by decide) (by decide)
    have hclose := not_mem_dropView hname (c := ')') (by decide) (by decide)
    rw [parenBalance, List.count_eq_zero_of_not_mem hopen, List.count_eq_zero_of_not_mem hclose]
    rfl
  have hspeaks : containsCaseless ("DROP VIEW IF EXISTS " ++ quoteName name) "DROP VIEW" := by
    rw [containsCaseless, occursIn_iff]
    refine ⟨[], upper (" IF EXISTS ".toList ++ quoteName name), ?_⟩
    simp [upper]
  obtain ⟨head, hhead⟩ := Dump.exists_head_iff.2 (.inr (.inr (.inl (.inr hspeaks))))
  exact Dump.whole_of_complete (not_mem_dropView hname (by decide) (by decide)) hplain.trim_eq
    hhead fun _ => hbalance

namespace Script

/-- Of a line only a statement is left when the line comments are out. -/
theorem dropLineComments_line {line : Line} (hline : '\n' ∉ line.text)
    (h : line.isStatement → Dump.Undashed line.text) :
    Dump.dropLineComments false line.text = if line.isStatement then line.text else [] := by
  cases line with
  | blank => rfl
  | comment note =>
      have hnote : '\n' ∉ ' ' :: note := by simpa [Line.text] using hline
      exact Dump.dropLineComments_dashed hnote
  | statement sql => exact Dump.dropLineComments_of_undashed (h rfl)

variable {current target : Text}

/-- Cleaning a script leaves the statements that the delta calls for, with single spaces between
them, if nothing in them reads as the opening of a comment. -/
theorem clean_ofTexts
    (h : ∀ line ∈ intended (Delta.ofTexts current target), Plain line.text) :
    Dump.clean (ofTexts current target) =
      join " " ((intended (Delta.ofTexts current target)).map Line.text) := by
  have hfilter := filter_lines (Delta.recorded_target current target)
  have hplain : ∀ line ∈ lines (Delta.ofTexts current target), line.isStatement →
      Plain line.text := by
    intro line hline hstatement
    exact h line (hfilter ▸ List.mem_filter.2 ⟨hline, hstatement⟩)
  have hleft : ∀ line ∈ lines (Delta.ofTexts current target),
      Dump.dropLineComments false line.text = if line.isStatement then line.text else [] :=
    fun line hline => dropLineComments_line (newline_not_mem_lines current target line hline)
      fun hstatement => (hplain line hline hstatement).undashed
  have hwords : ∀ line ∈ lines (Delta.ofTexts current target),
      words (Dump.dropLineComments false line.text) =
        if line.isStatement then words line.text else [] := by
    intro line hline
    rw [hleft line hline]
    split <;> rfl
  show Dump.clean (join "\n" ((lines (Delta.ofTexts current target)).map Line.text)) = _
  rw [Dump.clean_join, List.flatMap_map, List.flatMap_congr hwords, ← flatMap_filter, hfilter]
  · rw [← List.flatMap_map, join_flatMap_words]
    intro text htext
    obtain ⟨line, hline, rfl⟩ := List.mem_map.1 htext
    exact ⟨(h line hline).ne_nil, (h line hline).toTidy⟩
  · intro text htext
    obtain ⟨line, hline, rfl⟩ := List.mem_map.1 htext
    exact newline_not_mem_lines current target line hline
  · intro text htext
    obtain ⟨line, hline, rfl⟩ := List.mem_map.1 htext
    rw [hleft line hline]
    split
    · next hstatement => exact (hplain line hline hstatement).unslashed
    · exact List.IsChain.nil

/-- The statements of a script are those that the delta calls for, if nothing in them reads as the
opening of a comment and each of them is whole. -/
theorem statements_ofTexts {parts : List Text}
    (hintended : intended (Delta.ofTexts current target) = parts.map .statement)
    (hplain : ∀ sql ∈ parts, Plain sql) (hwhole : ∀ sql ∈ parts, Dump.Whole sql) :
    Dump.statements (ofTexts current target) = parts := by
  refine Dump.statements_of_clean_eq hwhole ?_
  rw [clean_ofTexts, hintended, List.map_map]
  · rfl
  · rw [hintended]
    intro line hline
    obtain ⟨sql, hsql, rfl⟩ := List.mem_map.1 hline
    exact (hplain sql hsql).append_semicolon

end Script

end SchemaDelta
