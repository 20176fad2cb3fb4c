import SchemaDelta.Proofs.Dump.Walk
import SchemaDelta.Proofs.Text.Tidy

/-!
# What statements and clauses inherit

A statement of a dump is cut out of the clean text, or put together again from fragments of it
with semicolons between them; a clause is cut out of a statement. So a property that passes to
parts and survives such joins (`Inherited`) holds of every statement once it holds of the clean
text. The two uses are `tidy_of_mem_statements`, that statements are tidy, and
`apart_of_mem_statements`, that two characters side by side in a statement, such as the hyphens of
a comment, come from the clean text.
-/

namespace SchemaDelta.Dump

open SchemaDelta.Sql
open Text

/-- A property that passes from a text to its parts, and from two texts to the two with a
semicolon between them. -/
structure Inherited (P : Text → Prop) : Prop where
  of_part : ∀ {t part : Text}, P t → part <:+: t → P part
  of_join : ∀ {a b : Text}, P a → P b → P (a ++ ';' :: b)

/-- A step that takes a fragment with the property makes statements that are trimmed forms of
texts with the property, and it leaves no definition open that lacks the property. -/
theorem WalkStep.inherits {P : Text → Prop} (hP : Inherited P) {fragment : Text}
    {pending left : Option OpenTable} {made : List Outcome}
    (h : WalkStep pending fragment made left) (hfragment : P fragment)
    (hpending : ∀ table ∈ pending, P table.statement) :
    (∀ s, .statement s ∈ made → ∃ t, P t ∧ s = trim t) ∧ ∀ table ∈ left, P table.statement := by
  cases h with
  | blank | headless => simp
  | complete hhead hbalance => exact ⟨fun s hs => ⟨fragment, hfragment, by simpa using hs⟩, by simp⟩
  | opening hhead hbalance =>
      refine ⟨by simp, fun table htable => ?_⟩
      obtain rfl := Option.some.inj htable
      exact hP.of_part hfragment (trim_isInfix fragment)
  | @closing table _ hbalance =>
      have hlonger : P (table.extend fragment).statement :=
        hP.of_join (hpending table rfl) hfragment
      exact ⟨fun s hs => ⟨_, hlonger, by simpa using hs⟩, by simp⟩
  | @extending table _ hbalance =>
      refine ⟨by simp, fun longer hlonger => ?_⟩
      obtain rfl := Option.some.inj hlonger
      exact hP.of_join (hpending table rfl) hfragment

/-- Every statement of a dump is the trimmed form of a text with the property, if the clean text
of the dump has it. -/
theorem statements_inherit {P : Text → Prop} (hP : Inherited P) {text : Text}
    (hclean : P (clean text)) {s : Text} (hs : s ∈ statements text) :
    ∃ t, P t ∧ s = trim t := by
  have hall : ∀ s ∈ statements text, ∃ t, P t ∧ s = trim t := by
    refine forall_mem_statements (fun table => P table.statement) ?_
    intro fragment hfragment _ _ _ h hpending
    exact h.inherits hP (hP.of_part hclean (isInfix_of_mem_pieces hfragment)) hpending
  exact hall s hs

theorem inherited_singleSpaced : Inherited SingleSpaced where
  of_part := SingleSpaced.of_part
  of_join ha hb := ha.append_cons hb (by decide)

/-- Cleaning leaves single spaces only. -/
theorem singleSpaced_clean (text : Text) : SingleSpaced (clean text) :=
  (singleSpaced_squeeze _ false).1.of_part (trim_isInfix _)

/-- The statements of a dump are tidy. -/
theorem tidy_of_mem_statements {text s : Text} (hs : s ∈ statements text) : Tidy s := by
  obtain ⟨t, ht, rfl⟩ := statements_inherit inherited_singleSpaced (singleSpaced_clean text) hs
  exact ht.tidy_trim

/-- Nowhere in the text do two hyphens stand side by side. -/
def Undashed (t : Text) : Prop := t.IsChain fun a b => ¬(a = '-' ∧ b = '-')

instance (t : Text) : Decidable (Undashed t) := inferInstanceAs (Decidable (t.IsChain _))

/-- Two characters other than the semicolon stay apart in the parts of a text and in its joins. -/
theorem inherited_apart {c d : Char} (hc : ';' ≠ c) (hd : ';' ≠ d) : Inherited (Apart c d) where
  of_part h hpart := h.of_part hpart
  of_join ha hb := ha.append_cons hb hc hd

/-- Two characters that the clean text of a dump keeps apart are apart in its statements. -/
theorem apart_of_mem_statements {c d : Char} (hc : ';' ≠ c) (hd : ';' ≠ d) {text s : Text}
    (hclean : ¬occursIn [c, d] (clean text)) (hs : s ∈ statements text) : Apart c d s := by
  obtain ⟨t, ht, rfl⟩ :=
    statements_inherit (inherited_apart hc hd) (apart_of_not_occursIn hclean) hs
  exact ht.of_part (trim_isInfix t)

/-- If no two hyphens are side by side in the clean text of a dump, none are in its
statements. -/
theorem undashed_of_mem_statements {text s : Text} (hclean : ¬occursIn "--" (clean text))
    (hs : s ∈ statements text) : Undashed s :=
  apart_of_mem_statements (by decide) (by decide) hclean hs

end SchemaDelta.Dump
