import SchemaDelta.Proofs.Text.Stretches

/-!
# Taking matches out of a text

`Removed` is what going over a text once from left to right and taking every match of a pattern out
leaves: what is left of the stretches of the text (`Removed.exists_stretches`). If no match of a
pattern goes on where another one ends, this is one text (`Removed.unique`), so a pass over a text
that leaves it is the pass that the pattern stands for.
-/

namespace SchemaDelta.Text

/-- What is left of a text behind a character when the matches of a pattern are taken out of it
from left to right. A character stays if no match starts with it. -/
inductive Removed (pattern : Pattern) : Option Char → Text → Text → Prop where
  | nil {before} : Removed pattern before [] []
  | keep {before c rest left}
      (hno : ∀ matched behind, c :: rest = matched ++ behind → matched ≠ [] →
        ¬pattern before matched behind)
      (hrest : Removed pattern (some c) rest left) : Removed pattern before (c :: rest) (c :: left)
  | drop {before matched behind left} (hmatch : pattern before matched behind)
      (hne : matched ≠ []) (hbehind : Removed pattern matched.getLast? behind left) :
      Removed pattern before (matched ++ behind) left

/-- The character in front of a text with another one in front of it. -/
theorem getLast?_cons_or (c : Char) (front : Text) (before : Option Char) :
    (c :: front).getLast?.or before = front.getLast?.or (some c) := by
  rw [List.getLast?_cons]
  cases front.getLast? <;> rfl

namespace Removed

variable {pattern : Pattern} {before : Option Char} {t left : Text}

/-- A match at the start of a text is taken out, and what is left is left of the text behind it. -/
theorem of_match (hdefinite : pattern.Definite) {matched behind : Text}
    (hmatch : pattern before matched behind) (hne : matched ≠ [])
    (h : Removed pattern before (matched ++ behind) left) :
    Removed pattern matched.getLast? behind left := by
  generalize ht : matched ++ behind = t at h
  cases h with
  | nil => exact absurd (List.append_eq_nil_iff.1 ht).1 hne
  | keep hno _ => exact absurd hmatch (hno _ _ ht.symm hne)
  | drop hother _ hbehind =>
      obtain rfl := hdefinite.matched_eq ht hmatch hother
      obtain rfl := List.append_cancel_left ht
      exact hbehind

/-- A text that has matches taken out has stretches, of which the same is left. -/
theorem exists_stretches (h : Removed pattern before t left) :
    ∃ stretches, Stretches pattern before t stretches ∧ leftOf stretches = left := by
  induction h with
  | nil => exact ⟨[], .nil, rfl⟩
  | @keep before c rest left hno _ ih =>
      obtain ⟨stretches, hstretches, rfl⟩ := ih
      exact ⟨.kept c :: stretches, .kept hno hstretches, rfl⟩
  | @drop before matched behind left hmatch hne _ ih =>
      obtain ⟨stretches, hstretches, rfl⟩ := ih
      exact ⟨.taken matched :: stretches, .taken hmatch hne hstretches, rfl⟩

/-- What a definite pattern leaves of a text is one text. -/
theorem unique (hdefinite : pattern.Definite) (h : Removed pattern before t left) {other : Text}
    (hother : Removed pattern before t other) : left = other := by
  obtain ⟨stretches, hstretches, rfl⟩ := h.exists_stretches
  obtain ⟨cut, hcut, rfl⟩ := hother.exists_stretches
  rw [hstretches.unique hdefinite hcut]

/-- What a pass leaves is what a definite pattern leaves as soon as it is something it leaves. -/
theorem iff_eq (hdefinite : pattern.Definite) (h : Removed pattern before t left) {other : Text} :
    Removed pattern before t other ↔ other = left :=
  ⟨fun hother => (h.unique hdefinite hother).symm, fun heq => heq ▸ h⟩

/-- Nothing is added and nothing changes its place. -/
theorem sublist (h : Removed pattern before t left) : left.Sublist t := by
  induction h with
  | nil => exact .slnil
  | keep _ _ ih => exact ih.cons_cons _
  | drop _ _ _ ih => exact ih.trans (List.sublist_append_right _ _)

/-- Either the text is left as it is, or there is a first match, and what is in front of it is
left as it is. -/
theorem eq_or_first_match (h : Removed pattern before t left) :
    left = t ∨ ∃ front matched behind rest, t = front ++ matched ++ behind ∧ left = front ++ rest ∧
      rest.Sublist behind ∧ matched ≠ [] ∧
      pattern (front.getLast?.or before) matched behind := by
  induction h with
  | nil => exact .inl rfl
  | @keep before c rest left _ _ ih =>
      rcases ih with rfl | ⟨front, matched, behind, rest', rfl, rfl, hsublist, hne, hmatch⟩
      · exact .inl rfl
      · refine .inr ⟨c :: front, matched, behind, rest', rfl, rfl, hsublist, hne, ?_⟩
        rw [getLast?_cons_or]
        exact hmatch
  | @drop before matched behind left hmatch hne hbehind =>
      exact .inr ⟨[], matched, behind, left, rfl, rfl, hbehind.sublist, hne, hmatch⟩

/-- If nothing is taken out, nothing matches. -/
theorem not_match (h : Removed pattern before t left) (hself : left = t)
    {front matched behind : Text} (ht : t = front ++ matched ++ behind) (hne : matched ≠ []) :
    ¬pattern (front.getLast?.or before) matched behind := by
  induction h generalizing front with
  | nil =>
      rw [List.append_assoc] at ht
      exact absurd (List.append_eq_nil_iff.1 (List.append_eq_nil_iff.1 ht.symm).2).1 hne
  | @keep before c rest left hno _ ih =>
      cases front with
      | nil => exact hno _ _ ht hne
      | cons d front =>
          obtain ⟨rfl, hrest⟩ := List.cons.inj ht
          rw [getLast?_cons_or]
          exact ih (List.cons.inj hself).2 hrest
  | @drop before dropped rest left _ hdropped hrest =>
      have hle := hrest.sublist.length_le
      have hpos := List.length_pos_iff.2 hdropped
      rw [hself, List.length_append] at hle
      omega

end Removed

end SchemaDelta.Text
