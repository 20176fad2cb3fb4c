import SchemaDelta.Proofs.Text.Tidy

/-!
# Words

The words of two texts with a blank between them are the words of the one and then of the other
(`words_append_cons`). From this one equation comes all else: squeezing, trimming and taking
lines out that hold only blanks leave the words as they are, and tidy texts with spaces between
them are what their words with spaces between them are (`join_flatMap_words`).
-/

namespace SchemaDelta.Text

@[simp] theorem words_nil : words [] = [] := rfl

/-- A blank separates the words before it from those behind it. -/
theorem words_append_cons (a : Text) {c : Char} (hc : isBlank c) (b : Text) :
    words (a ++ c :: b) = words a ++ words b := by
  rw [words, pieces_append_cons a hc, List.filter_append]
  rfl

/-- A blank at the start belongs to no word. -/
theorem words_cons {c : Char} (hc : isBlank c) (t : Text) : words (c :: t) = words t :=
  words_append_cons [] hc t

/-- Neither do several. -/
theorem words_blanks_append {blanks : Text} (h : ∀ c ∈ blanks, isBlank c) (t : Text) :
    words (blanks ++ t) = words t := by
  induction blanks with
  | nil => rfl
  | cons c r ih =>
      rw [List.cons_append, words_cons (h c List.mem_cons_self)]
      exact ih fun d hd => h d (List.mem_cons_of_mem c hd)

/-- Blanks have no words. -/
theorem words_eq_nil {t : Text} (h : ∀ c ∈ t, isBlank c) : words t = [] := by
  simpa using words_blanks_append h []

/-- Blanks at the end belong to no word. -/
theorem words_append_blanks (t : Text) {blanks : Text} (h : ∀ c ∈ blanks, isBlank c) :
    words (t ++ blanks) = words t := by
  cases blanks with
  | nil => rw [List.append_nil]
  | cons c r =>
      rw [words_append_cons t (h c List.mem_cons_self),
        words_eq_nil fun d hd => h d (List.mem_cons_of_mem c hd), List.append_nil]

/-- Squeezing keeps the words, also behind a text in front that does not end in the same run of
blanks. -/
theorem words_append_squeeze (front t : Text) {afterBlank : Bool} (h : afterBlank → front = []) :
    words (front ++ squeeze afterBlank t) = words (front ++ t) := by
  induction t generalizing front afterBlank with
  | nil => rfl
  | cons c r ih =>
      rw [squeeze]
      by_cases hc : isBlank c
      · have hrest : words (squeeze true r) = words r := ih [] fun _ => rfl
        rw [if_pos hc, words_append_cons front hc]
        cases afterBlank with
        | true => rw [if_pos rfl, h rfl, words_nil, List.nil_append, List.nil_append, hrest]
        | false => rw [if_neg (by simp), words_append_cons front (by decide), hrest]
      · have hrest : words (front ++ [c] ++ squeeze false r) = words (front ++ [c] ++ r) :=
          ih (front ++ [c]) (by simp)
        rwa [if_neg hc, List.append_cons, List.append_cons front c r]

theorem words_squeeze (t : Text) : words (squeeze false t) = words t :=
  words_append_squeeze [] t (by simp)

theorem words_trim (t : Text) : words (trim t) = words t := by
  obtain ⟨front, back, heq, hfront, hback⟩ := exists_append_trim_append t
  conv_rhs => rw [← heq]
  rw [words_append_blanks _ hback, words_blanks_append hfront]

/-- Squeezing and trimming leave the words with single spaces between them. -/
theorem trim_squeeze (t : Text) : trim (squeeze false t) = normalizeBlanks t := by
  have htidy : Tidy (trim (squeeze false t)) := (singleSpaced_squeeze t false).1.tidy_trim
  rw [← htidy.normalizeBlanks_eq, normalizeBlanks, words_trim, words_squeeze, normalizeBlanks]

/-- No line is empty, and none has a line feed in front of its last character. -/
theorem newline_not_mem_dropLast {t line : Text} (h : line ∈ lines t) :
    line ≠ [] ∧ '\n' ∉ line.dropLast := by
  induction t generalizing line with
  | nil => simp [lines] at h
  | cons c r ih =>
      rw [lines] at h
      split at h
      · rcases List.mem_cons.1 h with rfl | h
        · exact ⟨List.cons_ne_nil _ _, by simp⟩
        · exact ih h
      · next hc =>
        split at h
        · obtain rfl := List.mem_singleton.1 h
          exact ⟨List.cons_ne_nil _ _, by simp⟩
        · next first others hr =>
          rcases List.mem_cons.1 h with rfl | h
          · obtain ⟨hne, hfirst⟩ := ih (hr ▸ List.mem_cons_self)
            rw [List.dropLast_cons_of_ne_nil hne]
            exact ⟨List.cons_ne_nil _ _, List.not_mem_cons_of_ne_of_not_mem (Ne.symm hc) hfirst⟩
          · exact ih (hr ▸ List.mem_cons_of_mem _ h)

/-- Every line but the last ends with a line feed. -/
theorem pairwise_lines (t : Text) :
    (lines t).Pairwise fun line _ => line.getLast? = some '\n' := by
  induction t with
  | nil => exact .nil
  | cons c r ih =>
      rw [lines]
      split
      · next hc => exact .cons (fun _ _ => hc ▸ rfl) ih
      · split
        · exact List.pairwise_singleton _ _
        · next first others hr =>
          rw [hr, List.pairwise_cons] at ih
          refine .cons (fun other hother => ?_) ih.2
          obtain ⟨body, rfl⟩ := List.getLast?_eq_some_iff.1 (ih.1 other hother)
          exact List.getLast?_eq_some_iff.2 ⟨c :: body, rfl⟩

/-- Of several lines, all but the last ended by line feeds, the words are those of each. -/
theorem words_flatten {lines : List Text}
    (h : lines.Pairwise fun line _ => line.getLast? = some '\n') :
    words lines.flatten = lines.flatMap words := by
  induction lines with
  | nil => rfl
  | cons first rest ih =>
      rw [List.pairwise_cons] at h
      rw [List.flatten_cons, List.flatMap_cons, ← ih h.2]
      cases rest with
      | nil => simp
      | cons second others =>
          obtain ⟨body, rfl⟩ := List.getLast?_eq_some_iff.1 (h.1 second List.mem_cons_self)
          have hblank : isBlank '\n' := by decide
          rw [List.append_assoc, List.singleton_append, words_append_cons body hblank,
            words_append_cons body hblank, words_nil, List.append_nil]

/-- The words of texts with a blank between neighbours are the words of each. -/
theorem words_join {c : Char} (hc : isBlank c) (parts : List Text) :
    words (join [c] parts) = parts.flatMap words := by
  induction parts with
  | nil => rfl
  | cons first rest ih =>
      cases rest with
      | nil => simp
      | cons second others =>
          rw [join_cons _ first (List.cons_ne_nil second others), List.append_assoc,
            List.singleton_append, words_append_cons first hc, ih, ← List.flatMap_cons]

/-- Of two lists of texts with something in each, the join is made of the joins of the two. -/
theorem join_append (separator : Text) {a b : List Text} (ha : a ≠ []) (hb : b ≠ []) :
    join separator (a ++ b) = join separator a ++ separator ++ join separator b := by
  induction a with
  | nil => exact absurd rfl ha
  | cons first rest ih =>
      cases rest with
      | nil => rw [List.singleton_append, join_cons separator first hb, join_singleton]
      | cons second others =>
          have hrest := List.cons_ne_nil second others
          rw [List.cons_append,
            join_cons separator first (List.append_ne_nil_of_left_ne_nil hrest b), ih hrest,
            join_cons separator first hrest]
          simp only [List.append_assoc]

/-- The join of neighbours is a part of the join of all. -/
theorem isInfix_join_of_isInfix (separator : Text) {some all : List Text} (h : some <:+: all) :
    join separator some <:+: join separator all := by
  obtain ⟨front, back, rfl⟩ := h
  by_cases hsome : some = []
  · subst hsome
    exact List.nil_infix
  have hback : join separator some <+: join separator (some ++ back) := by
    by_cases hnil : back = []
    · simp [hnil]
    · rw [join_append separator hsome hnil, List.append_assoc]
      exact List.prefix_append _ _
  have hfront : join separator (some ++ back) <:+ join separator (front ++ (some ++ back)) := by
    by_cases hnil : front = []
    · simp [hnil]
    · rw [join_append separator hnil (List.append_ne_nil_of_left_ne_nil hsome back)]
      exact List.suffix_append _ _
  rw [List.append_assoc]
  exact hback.isInfix.trans hfront.isInfix

/-- A tidy text that is not empty has a word. -/
theorem Tidy.words_ne_nil {t : Text} (h : Tidy t) (hne : t ≠ []) : words t ≠ [] := by
  intro hnil
  have ht := h.normalizeBlanks_eq
  rw [normalizeBlanks, hnil] at ht
  exact hne ht.symm

/-- Tidy texts with spaces between them are what their words with spaces between them are. -/
theorem join_flatMap_words {parts : List Text} (h : ∀ part ∈ parts, part ≠ [] ∧ Tidy part) :
    join " " (parts.flatMap words) = join " " parts := by
  induction parts with
  | nil => rfl
  | cons first rest ih =>
      obtain ⟨hfirst, hrest⟩ := List.forall_mem_cons.1 h
      have hwords : join " " (words first) = first := hfirst.2.normalizeBlanks_eq
      cases rest with
      | nil => simpa using hwords
      | cons second others =>
          have hne : (second :: others).flatMap words ≠ [] := by
            obtain ⟨hsecond, htidy⟩ := hrest second List.mem_cons_self
            simp [htidy.words_ne_nil hsecond]
          rw [List.flatMap_cons, join_append " " (hfirst.2.words_ne_nil hfirst.1) hne, ih hrest,
            hwords, join_cons " " first (List.cons_ne_nil second others)]

end SchemaDelta.Text
