import SchemaDelta.Proofs.Dump.Block

/-!
# Statements as parts of the clean text

The fragments of a block, with the semicolons between them that cut them apart, are a part of the
clean text, and what this part is without the blanks at its ends is what the block was cut from
(`Block.cut`). A statement is just that, with one exception. The first fragment of a table
definition is trimmed before the others are put behind it, so a space in front of the first
semicolon is lost: `statements_cut` says that it is the only thing that can be lost, and
`not_cut_of_spaced_semicolon` is a dump that loses it in a string.
-/

namespace SchemaDelta.Dump

open Sql Text

namespace Block

/-- The part of the clean text that a block covers, without the blanks at its ends. -/
def cut (block : Block) : Text := trim (join ";" block.fragments)

/-- The block has no semicolon in it, or no blank stands in front of the first one. -/
def Seamless (block : Block) : Prop :=
  block.others = [] ∨ ∀ c ∈ block.first.getLast?, ¬isBlank c

variable {first : Text} {others : List Text}

/-- What a table definition of several fragments was cut from. -/
theorem cut_table (hothers : others ≠ []) :
    (Block.table first others).cut = trimStart first ++ ';' :: trimEnd (join ";" others) := by
  have hjoin : join ";" (first :: others) = first ++ ';' :: join ";" others :=
    join_char_cons ';' first hothers
  show trim (join ";" (first :: others)) = _
  rw [hjoin, trim_append_cons_eq first (by decide)]

/-- What is made of it. -/
theorem statement?_table (hothers : others ≠ []) : (Block.table first others).statement? =
    some (trim first ++ ';' :: trimEnd (join ";" others)) := by
  have hjoin : join ";" (trim first :: others) = trim first ++ ';' :: join ";" others :=
    join_char_cons ';' (trim first) hothers
  show some (trim (join ";" (trim first :: others))) = _
  rw [hjoin, trim_append_cons (head?_trim first) (by decide)]

/-- Without a blank at its end a fragment is trimmed at its start only. -/
theorem trim_eq_trimStart (h : ∀ c ∈ first.getLast?, ¬isBlank c) : trim first = trimStart first := by
  rw [← trimStart_trimEnd, trimEnd_eq_self h]

/-- A blank at the end of a single-spaced fragment is one space. -/
theorem trimStart_eq_append_space (hsingle : SingleSpaced first) (hne : trim first ≠ [])
    (h : ∃ c ∈ first.getLast?, isBlank c) : trimStart first = trim first ++ [' '] := by
  obtain ⟨blanks, heq, hblanks⟩ := exists_trimEnd_append (trimStart first)
  have hstart : trim first ++ blanks = trimStart first := heq
  have hsuffix : trimStart first <:+ first := List.dropWhile_suffix isBlank
  have hne' : trimStart first ≠ [] := hstart ▸ List.append_ne_nil_of_left_ne_nil hne blanks
  have hlast : (trimStart first).getLast? = first.getLast? := by
    obtain ⟨front, hfront⟩ := hsuffix
    conv_rhs => rw [← hfront]
    exact (List.getLast?_append_of_ne_nil front hne').symm
  have hspace : blanks ≠ [] := by
    rintro rfl
    obtain ⟨c, hc, hblank⟩ := h
    rw [← hlast, ← hstart, List.append_nil] at hc
    exact getLast?_trimEnd (trimStart first) c hc hblank
  have hblank : SingleSpaced blanks := by
    refine hsingle.of_part (List.IsSuffix.isInfix ?_)
    exact (List.suffix_append (trim first) blanks).trans (hstart ▸ hsuffix)
  have hone : blanks = [' '] := by
    rw [← List.append_nil blanks] at hblank
    exact hblank.eq_space_of_blanks hspace hblanks
  rw [← hstart, hone]

/-- A statement is what its block was cut from if no blank stands in front of the first semicolon.
Otherwise one space is missing there and nothing else. -/
theorem Lawful.statement_cut {block : Block} (h : block.Lawful)
    (hsingle : SingleSpaced block.first) (hsemicolon : ';' ∉ block.first) {statement : Text}
    (hstatement : block.statement? = some statement) :
    (statement = block.cut ↔ block.Seamless) ∧
      (¬block.Seamless → ∃ front back, ';' ∉ front ∧ statement = front ++ ';' :: back ∧
        block.cut = front ++ ' ' :: ';' :: back) := by
  cases block with
  | blank | headless | unclosed => simp [Block.statement?] at hstatement
  | single fragment =>
      obtain rfl := Option.some.inj hstatement
      have hseamless : (Block.single fragment).Seamless := .inl rfl
      have hcut : (Block.single fragment).cut = trim fragment :=
        congrArg trim (join_singleton ";" fragment)
      exact ⟨iff_of_true hcut.symm hseamless, fun hnot => absurd hseamless hnot⟩
  | table first others =>
      by_cases hothers : others = []
      · subst hothers
        obtain rfl := Option.some.inj hstatement
        have hseamless : (Block.table first []).Seamless := .inl rfl
        have hcut : (Block.table first []).cut = trim (join ";" [trim first]) := by
          show trim (join ";" [first]) = _
          rw [join_singleton, join_singleton, trim_trim]
        exact ⟨iff_of_true hcut.symm hseamless, fun hnot => absurd hseamless hnot⟩
      rw [statement?_table hothers, Option.some.injEq] at hstatement
      subst hstatement
      rw [cut_table hothers]
      by_cases hlast : ∀ c ∈ first.getLast?, ¬isBlank c
      · have hseamless : (Block.table first others).Seamless := .inr hlast
        rw [trim_eq_trimStart hlast]
        exact ⟨iff_of_true rfl hseamless, fun hnot => absurd hseamless hnot⟩
      · have hnot : ¬(Block.table first others).Seamless := not_or.2 ⟨hothers, hlast⟩
        have hspace : trimStart first = trim first ++ [' '] := by
          refine trimStart_eq_append_space hsingle (trim_ne_nil_of_head h.1) ?_
          simpa using hlast
        rw [hspace, List.append_assoc, List.singleton_append]
        refine ⟨iff_of_false (fun heq => ?_) hnot, fun _ => ⟨_, _, ?_, rfl, rfl⟩⟩
        · simpa using congrArg List.length heq
        · exact fun hmem => hsemicolon ((trim_isInfix first).subset hmem)

end Block

/-- What a block was cut from is a part of the clean text. -/
theorem Grouping.cut_isInfix {text : Text} {blocks : List Block}
    (h : Grouping (Dump.fragments text) blocks) {block : Block} (hblock : block ∈ blocks) :
    block.cut <:+: clean text := by
  have hpart : block.fragments <:+: Dump.fragments text := by
    rw [← h.flatMap_fragments]
    exact List.infix_of_mem_flatten (List.mem_map_of_mem hblock)
  have hclean : join ";" (Dump.fragments text) = clean text := join_pieces ';' (clean text)
  have hjoin := isInfix_join_of_isInfix ";" hpart
  rw [hclean] at hjoin
  exact (trim_isInfix _).trans hjoin

/-- The statements of a dump are what the blocks of its fragments give, and each block was cut
from a part of the clean text. A statement is that part exactly if no blank stands in front of the
first semicolon in it. Otherwise it lacks the one space that stands there. -/
theorem statements_cut (text : Text) :
    ∃ blocks, Grouping (Dump.fragments text) blocks ∧
      statements text = blocks.filterMap Block.statement? ∧
      ∀ block ∈ blocks, ∀ statement, block.statement? = some statement →
        block.cut <:+: clean text ∧ (statement = block.cut ↔ block.Seamless) ∧
        (¬block.Seamless → ∃ front back, ';' ∉ front ∧ statement = front ++ ';' :: back ∧
          block.cut = front ++ ' ' :: ';' :: back) := by
  obtain ⟨blocks, hgrouping, hstatements⟩ := (grouped_walk (Dump.fragments text)).1
  refine ⟨blocks, hgrouping, hstatements, fun block hblock statement hstatement => ?_⟩
  have hfirst : block.first ∈ Dump.fragments text := by
    rw [← hgrouping.flatMap_fragments]
    exact List.mem_flatMap.2 ⟨block, hblock, List.mem_cons_self⟩
  have hsingle : SingleSpaced block.first :=
    (singleSpaced_clean text).of_part (isInfix_of_mem_pieces hfirst)
  have hsemicolon : ';' ∉ block.first := fun hmem => not_of_mem_pieces hfirst hmem (by simp)
  exact ⟨hgrouping.cut_isInfix hblock,
    (hgrouping.lawful block hblock).statement_cut hsingle hsemicolon hstatement⟩

/-- A table definition with a space in front of a semicolon in a string. -/
def spacedSemicolon : Text := "CREATE TABLE t (a varchar(9) DEFAULT 'x ;y')"

/-- The statement of this dump lacks the space and is no part of the clean text. -/
theorem not_cut_of_spaced_semicolon :
    clean spacedSemicolon = spacedSemicolon ∧
      statements spacedSemicolon = ["CREATE TABLE t (a varchar(9) DEFAULT 'x;y')".toList] ∧
      ¬"CREATE TABLE t (a varchar(9) DEFAULT 'x;y')".toList <:+: clean spacedSemicolon := by
  decide +kernel

end SchemaDelta.Dump
