import SchemaDelta.Text.Basic

/-!
# Blank characters

The characters with the Unicode property White_Space, and the three ways the library takes them
away: `trim` at the ends of a text, `words` between words, and `squeeze` down to single spaces.
The main statement is `not_isBlank_of_mem_words`: a word holds no blank.
-/

namespace SchemaDelta.Text

/-- The characters with the Unicode property White_Space. -/
def isBlank (c : Char) : Bool :=
  let n := c.toNat
  (9 ≤ n && n ≤ 13) || n == 0x20 || n == 0x85 || n == 0xA0 || n == 0x1680 ||
    (0x2000 ≤ n && n ≤ 0x200A) || n == 0x2028 || n == 0x2029 || n == 0x202F || n == 0x205F ||
    n == 0x3000

/-- The text without the blanks at its start. -/
def trimStart (t : Text) : Text := t.dropWhile isBlank

/-- The text without the blanks at its end. -/
def trimEnd (t : Text) : Text := (t.reverse.dropWhile isBlank).reverse

/-- The text without the blanks at its two ends. -/
def trim (t : Text) : Text := trimEnd (trimStart t)

/-- The words of a text: its maximal runs of characters that are not blank. -/
def words (t : Text) : List Text := (pieces isBlank t).filter (· ≠ [])

/-- The words of a text with one space between neighbours. -/
def normalizeBlanks (t : Text) : Text := join " " (words t)

/-- Each run of blanks becomes one space; `afterBlank` says whether the text continues a run. -/
def squeeze (afterBlank : Bool) : Text → Text
  | [] => []
  | c :: r =>
    if isBlank c then
      if afterBlank then squeeze true r else ' ' :: squeeze true r
    else c :: squeeze false r

/-- Every character that core counts as white space is a blank. -/
theorem isBlank_of_isWhitespace {c : Char} (h : c.isWhitespace) : isBlank c := by
  simp only [Char.isWhitespace, Bool.or_eq_true, decide_eq_true_eq] at h
  rcases h with ((rfl | rfl) | rfl) | rfl <;> decide

/-- A piece of a text holds no separator. -/
theorem not_of_mem_pieces {p : Char → Bool} {t piece : Text} {c : Char}
    (hp : piece ∈ pieces p t) (hc : c ∈ piece) : ¬p c := by
  induction t generalizing piece with
  | nil => simp_all [pieces]
  | cons d r ih =>
    by_cases hd : p d
    · rw [pieces_cons_of_pos hd] at hp
      rcases List.mem_cons.1 hp with rfl | hp
      · simp at hc
      · exact ih hp hc
    · obtain ⟨first, others, hr, hcons⟩ := pieces_cons_of_neg hd r
      rw [hcons] at hp
      rcases List.mem_cons.1 hp with rfl | hp
      · rcases List.mem_cons.1 hc with rfl | hc
        · exact hd
        · exact ih (hr ▸ List.mem_cons_self) hc
      · exact ih (hr ▸ List.mem_cons_of_mem _ hp) hc

/-- A word holds no blank. -/
theorem not_isBlank_of_mem_words {t word : Text} {c : Char} (hw : word ∈ words t)
    (hc : c ∈ word) : ¬isBlank c :=
  not_of_mem_pieces (List.mem_filter.1 hw).1 hc

/-- A word is not empty. -/
theorem ne_nil_of_mem_words {t word : Text} (hw : word ∈ words t) : word ≠ [] := by
  simpa using (List.mem_filter.1 hw).2

end SchemaDelta.Text
