import Mathlib.Data.List.Chain
import SchemaDelta.Text.Blank

/-!
# Pieces, lines and parts of a text

Cutting and joining undo each other, and what is cut out of a text is a part of it. Texts that
hold no separator come back unchanged when they are joined with it and cut again
(`pieces_join`), and `occursIn_iff` reads the search for a part as a statement about lists. Two
characters that a text keeps apart (`Apart`) are apart in its parts too.
-/

namespace SchemaDelta

/-- A list of which each element is read gives the list of what they are read as. -/
theorem mapM_map_eq_some {α β γ : Type} {read : β → Option γ} {shown : α → β} {meant : α → γ}
    {l : List α} (h : ∀ a ∈ l, read (shown a) = some (meant a)) :
    (l.map shown).mapM read = some (l.map meant) := by
  induction l with
  | nil => rfl
  | cons a rest ih =>
      rw [List.map_cons, List.mapM_cons, h a List.mem_cons_self,
        ih fun other hother => h other (List.mem_cons_of_mem a hother)]
      rfl

/-- A list of which each element is shown as something that is read as the element comes back. -/
theorem mapM_map_self {α β : Type} {read : β → Option α} {shown : α → β}
    {l : List α} (h : ∀ a, read (shown a) = some a) : (l.map shown).mapM read = some l := by
  rw [mapM_map_eq_some fun a _ => h a, List.map_id']

/-- Keeping some elements of a list and traversing them is traversing the list with nothing for
the others. -/
theorem flatMap_filter {α β : Type} (p : α → Bool) (f : α → List β) (l : List α) :
    (l.filter p).flatMap f = l.flatMap fun a => if p a then f a else [] := by
  induction l with
  | nil => rfl
  | cons a rest ih =>
      rw [List.filter_cons, List.flatMap_cons]
      split
      · rw [List.flatMap_cons, ih]
      · rw [ih, List.nil_append]

/-- Traversing what a list is mapped to, as far as it is, is traversing the list with nothing for
the elements that are mapped to nothing. -/
theorem flatMap_filterMap {α β γ : Type} (f : α → Option β) (g : β → List γ) (l : List α) :
    (l.filterMap f).flatMap g = l.flatMap fun a => (f a).elim [] g := by
  induction l with
  | nil => rfl
  | cons a rest ih =>
      rw [List.filterMap_cons, List.flatMap_cons, ← ih]
      cases f a <;> rfl

namespace Text

@[simp] theorem join_singleton (separator part : Text) : join separator [part] = part :=
  List.intercalate_singleton

/-- A first text stands in front of the join of the others. -/
theorem join_cons (separator first : Text) {rest : List Text} (h : rest ≠ []) :
    join separator (first :: rest) = first ++ separator ++ join separator rest :=
  List.intercalate_cons_of_ne_nil h

/-- Of several texts with one character between neighbours the first stands in front of the
character. -/
theorem join_char_cons (c : Char) (first : Text) {rest : List Text} (h : rest ≠ []) :
    join [c] (first :: rest) = first ++ c :: join [c] rest := by
  rw [join_cons [c] first h, List.append_assoc]
  rfl

/-- What holds of the parts, and of two texts with the character between them if it holds of both,
holds of the join. -/
theorem join_of_append_cons {P : Text → Prop} {c : Char} {parts : List Text} (hnil : P [])
    (happend : ∀ {a b}, P a → P b → P (a ++ c :: b)) (h : ∀ part ∈ parts, P part) :
    P (join [c] parts) := by
  induction parts with
  | nil => exact hnil
  | cons first rest ih =>
      obtain ⟨hfirst, hrest⟩ := List.forall_mem_cons.1 h
      by_cases hne : rest = []
      · subst hne
        simpa using hfirst
      · rw [join_char_cons c first hne]
        exact happend hfirst (ih hrest)

/-- Of a separator of several characters all but the first may be counted to the parts behind
it. -/
theorem join_cons_separator (c : Char) (separator first : Text) (others : List Text) :
    join (c :: separator) (first :: others) =
      join [c] (first :: others.map (separator ++ ·)) := by
  induction others generalizing first with
  | nil => simp [join]
  | cons second others ih =>
      have hrest := ih second
      simp only [join] at hrest ⊢
      rw [List.intercalate_cons_cons, hrest, List.map_cons, List.intercalate_cons_cons]
      cases others <;> simp [List.intercalate_cons_cons]

/-- The parts of a list with a space in front of all but the first. -/
def spaced : List Text → List Text
  | [] => []
  | first :: others => first :: others.map (' ' :: ·)

theorem spaced_ne_nil {parts : List Text} (h : parts ≠ []) : spaced parts ≠ [] := by
  obtain ⟨first, others, rfl⟩ := List.exists_cons_of_ne_nil h
  exact List.cons_ne_nil _ _

/-- The spaces behind the commas may be counted to the parts. -/
theorem join_spaced (parts : List Text) : join ", " parts = join "," (spaced parts) := by
  cases parts with
  | nil => rfl
  | cons first others => exact join_cons_separator ',' [' '] first others

/-- What holds of parts with and without a space in front holds of the parts of their list. -/
theorem forall_mem_spaced {P : Text → Prop} {parts : List Text} (h : ∀ part ∈ parts, P part)
    (hspace : ∀ part ∈ parts, P (' ' :: part)) : ∀ part ∈ spaced parts, P part := by
  cases parts with
  | nil => exact h
  | cons first others =>
      intro part hpart
      rcases List.mem_cons.1 hpart with rfl | hpart
      · exact h _ List.mem_cons_self
      · obtain ⟨other, hother, rfl⟩ := List.mem_map.1 hpart
        exact hspace other (List.mem_cons_of_mem first hother)

/-- The pieces of a text are those of the library's cut of a list. -/
theorem pieces_eq_splitOnP (p : Char → Bool) (t : Text) : pieces p t = t.splitOnP p := by
  induction t with
  | nil => rfl
  | cons c r ih =>
      rw [List.splitOnP_cons_eq_if_modifyHead, ← ih]
      by_cases hc : p c
      · simp [pieces, hc]
      · obtain ⟨first, others, hr, hcons⟩ := pieces_cons_of_neg hc r
        rw [hcons, hr]
        simp [hc]

/-- At the start of a text the separator ends an empty piece. -/
theorem pieces_cons_self (c : Char) (r : Text) :
    pieces (· == c) (c :: r) = [] :: pieces (· == c) r := by
  rw [pieces, if_pos (beq_self_eq_true c)]

/-- Any other character belongs to the first piece of what follows it. -/
theorem pieces_cons_of_ne {c d : Char} (h : d ≠ c) (r : Text) :
    ∃ first others, pieces (· == c) r = first :: others ∧
      pieces (· == c) (d :: r) = (d :: first) :: others :=
  pieces_cons_of_neg (p := (· == c)) (by simpa using h) r

/-- A separator ends the pieces before it. -/
theorem pieces_append_cons {p : Char → Bool} (a : Text) {c : Char} (hc : p c) (b : Text) :
    pieces p (a ++ c :: b) = pieces p a ++ pieces p b := by
  simp only [pieces_eq_splitOnP, List.splitOnP_append_cons a b hc]

/-- A text without separators behind another one only makes its last piece longer. -/
theorem pieces_append_plain {p : Char → Bool} {more : Text} (hmore : ∀ c ∈ more, ¬p c)
    (t : Text) : ∃ front last, pieces p t = front ++ [last] ∧
      pieces p (t ++ more) = front ++ [last ++ more] := by
  induction t with
  | nil => exact ⟨[], [], rfl, pieces_eq_singleton hmore⟩
  | cons c r ih =>
      obtain ⟨front, last, hr, hmore⟩ := ih
      by_cases hc : p c
      · refine ⟨[] :: front, last, ?_, ?_⟩
        · rw [pieces_cons_of_pos hc, hr, List.cons_append]
        · rw [List.cons_append, pieces_cons_of_pos hc, hmore, List.cons_append]
      · cases front with
        | nil => exact ⟨[], c :: last, by simp [pieces, hc, hr], by simp [pieces, hc, hmore]⟩
        | cons first others =>
            exact ⟨(c :: first) :: others, last, by simp [pieces, hc, hr],
              by simp [pieces, hc, hmore]⟩

/-- Only what the test says of the characters of a text matters for its pieces. -/
theorem pieces_congr {p q : Char → Bool} {t : Text} (h : ∀ c ∈ t, p c = q c) :
    pieces p t = pieces q t := by
  induction t with
  | nil => rfl
  | cons c r ih =>
      rw [pieces, pieces, h c List.mem_cons_self, ih fun d hd => h d (List.mem_cons_of_mem c hd)]

/-- Parts without the separator, joined with it and cut again, are the parts. -/
theorem pieces_join {c : Char} {parts : List Text} (hparts : ∀ part ∈ parts, c ∉ part)
    (hne : parts ≠ []) : pieces (· == c) (join [c] parts) = parts := by
  rw [pieces_eq_splitOnP, ← List.splitOn_eq_splitOnP, join]
  exact List.splitOn_intercalate c hparts hne

/-- The pieces between occurrences of one character, joined with it, are the text. -/
theorem join_pieces (c : Char) (t : Text) : join [c] (pieces (· == c) t) = t := by
  rw [pieces_eq_splitOnP, ← List.splitOn_eq_splitOnP, join]
  exact List.intercalate_splitOn c

/-- Each of several texts is a part of their join. -/
theorem isInfix_join {separator part : Text} {parts : List Text} (h : part ∈ parts) :
    part <:+: join separator parts := by
  induction parts with
  | nil => simp at h
  | cons first rest ih =>
      cases rest with
      | nil =>
          obtain rfl := List.mem_singleton.1 h
          simp
      | cons second others =>
          rw [join_cons separator first (List.cons_ne_nil second others)]
          rcases List.mem_cons.1 h with rfl | h
          · exact ((List.prefix_append _ _).trans (List.prefix_append _ _)).isInfix
          · exact (ih h).trans (List.suffix_append _ _).isInfix

/-- A join ends with the last of its parts. -/
theorem isSuffix_join_concat (separator : Text) (parts : List Text) (last : Text) :
    last <:+ join separator (parts ++ [last]) := by
  induction parts with
  | nil => simp
  | cons first rest ih =>
      rw [List.cons_append, join_cons separator first (List.concat_ne_nil last rest)]
      exact ih.trans (List.suffix_append _ _)

/-- A character of a join is one of the separator or of a part. -/
theorem mem_join {separator : Text} {parts : List Text} {c : Char}
    (h : c ∈ join separator parts) : c ∈ separator ∨ ∃ part ∈ parts, c ∈ part := by
  induction parts with
  | nil => simp [join] at h
  | cons first rest ih =>
      cases rest with
      | nil => exact .inr ⟨first, List.mem_cons_self, by simpa using h⟩
      | cons second others =>
          rw [join_cons separator first (List.cons_ne_nil second others), List.mem_append,
            List.mem_append] at h
          rcases h with (h | h) | h
          · exact .inr ⟨first, List.mem_cons_self, h⟩
          · exact .inl h
          · exact (ih h).imp_right fun ⟨part, hpart, hc⟩ =>
              ⟨part, List.mem_cons_of_mem first hpart, hc⟩

/-- A piece of a text is a part of it. -/
theorem isInfix_of_mem_pieces {c : Char} {t piece : Text} (h : piece ∈ pieces (· == c) t) :
    piece <:+: t :=
  join_pieces c t ▸ isInfix_join h

/-- What opens a text without a character ends in front of the character. -/
theorem isPrefix_of_append_cons {part a b : Text} {c : Char} (h : part <+: a ++ c :: b)
    (hc : c ∉ part) : part <+: a := by
  obtain ⟨rest, heq⟩ := h
  rcases List.append_eq_append_iff.1 heq with ⟨more, rfl, -⟩ | ⟨more, rfl, hmore⟩
  · exact List.prefix_append part more
  · cases more with
    | nil => simp
    | cons d more =>
        obtain ⟨rfl, -⟩ := List.cons.inj hmore
        exact absurd (by simp) hc

/-- A part without a character stands on one side of the character. -/
theorem isInfix_of_append_cons {part a b : Text} {c : Char} (h : part <:+: a ++ c :: b)
    (hc : c ∉ part) : part <:+: a ∨ part <:+: b := by
  obtain ⟨front, back, heq⟩ := h
  rw [List.append_assoc] at heq
  rcases List.append_eq_append_iff.1 heq with ⟨more, rfl, hmore⟩ | ⟨more, rfl, hmore⟩
  · have hstart : part <+: more := isPrefix_of_append_cons ⟨back, hmore⟩ hc
    exact .inl (hstart.isInfix.trans (List.suffix_append _ _).isInfix)
  · cases more with
    | nil =>
        have hstart : part <+: [] := isPrefix_of_append_cons ⟨back, hmore.symm⟩ hc
        exact .inl (hstart.isInfix.trans (List.nil_infix))
    | cons d more =>
        obtain ⟨-, hmore⟩ := List.cons.inj hmore
        exact .inr ⟨more, back, by rw [hmore, List.append_assoc]; rfl⟩

/-- The search for a part finds it exactly when it stands somewhere in the text. -/
theorem occursIn_iff {part t : Text} : occursIn part t ↔ part <:+: t := by
  induction t with
  | nil => simp [occursIn]
  | cons c r ih =>
      rw [occursIn, Bool.or_eq_true, ih, List.isPrefixOf_iff_prefix, List.infix_cons_iff]

/-- The lines of a text, without the line feeds between them. -/
def plainLines (t : Text) : List Text := pieces (· == '\n') t

/-- Lines without a line feed of their own, put together with line feeds, are the lines of what
results. -/
theorem plainLines_join {lines : List Text} (hlines : ∀ line ∈ lines, '\n' ∉ line)
    (hne : lines ≠ []) : plainLines (join "\n" lines) = lines :=
  pieces_join hlines hne

/-- Nowhere in the text does the second character stand right behind the first. -/
def Apart (c d : Char) (t : Text) : Prop := t.IsChain fun a b => ¬(a = c ∧ b = d)

instance (c d : Char) (t : Text) : Decidable (Apart c d t) :=
  inferInstanceAs (Decidable (t.IsChain _))

variable {c d : Char} {t : Text}

theorem apart_of_not_occursIn (h : ¬occursIn [c, d] t) : Apart c d t := by
  refine (List.isChain_isInfix t).imp fun a b hpair hboth => h (occursIn_iff.2 ?_)
  obtain ⟨rfl, rfl⟩ := hboth
  exact hpair

theorem apart_of_not_mem (h : c ∉ t) : Apart c d t := by
  refine (List.pairwise_of_forall_mem_list ?_).isChain
  rintro a ha - - ⟨rfl, -⟩
  exact h ha

/-- The two characters do not open the text. -/
theorem Apart.not_prefix (h : Apart c d t) : ¬[c, d] <+: t := by
  intro hprefix
  have hpair : [c, d].IsChain fun a b => ¬(a = c ∧ b = d) := List.IsChain.prefix h hprefix
  simp at hpair

/-- Characters that a text keeps apart are apart in its parts. -/
theorem Apart.of_part (h : Apart c d t) {part : Text} (hpart : part <:+: t) : Apart c d part :=
  List.IsChain.infix h hpart

/-- Characters that two texts keep apart are apart in the two with another character between
them. -/
theorem Apart.append_cons {a b : Text} (ha : Apart c d a) (hb : Apart c d b) {e : Char}
    (hc : e ≠ c) (hd : e ≠ d) : Apart c d (a ++ e :: b) := by
  refine List.IsChain.append ha (List.IsChain.cons hb fun _ _ hboth => hc hboth.1) ?_
  rintro _ - f hf ⟨-, rfl⟩
  exact hd (Option.some.inj hf)

/-- So they are in several texts with another character between neighbours. -/
theorem Apart.join {parts : List Text} (h : ∀ part ∈ parts, Apart c d part) {e : Char}
    (hc : e ≠ c) (hd : e ≠ d) : Apart c d (Text.join [e] parts) := by
  refine join_of_append_cons List.IsChain.nil (fun ha hb => ?_) h
  exact ha.append_cons hb hc hd

end Text

end SchemaDelta
