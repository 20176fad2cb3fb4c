/-!
# Texts

A text is the list of its characters, so lengths, cuts and comparisons count characters and a
statement about texts is a statement about lists. This module holds the operations that every
part of the library uses: decimal numerals, cutting at separators, cutting into lines, the
search for one text inside another, and previews. The main statements say that cutting loses
nothing: `flatten_lines` puts the lines of a text back together, and `pieces_eq_singleton`
says that a text without a separator is its only piece.
-/

namespace SchemaDelta

/-- A text: its characters in order. -/
abbrev Text := List Char

/-- A string literal stands for the text it spells. -/
instance : Coe String Text := ⟨String.toList⟩

namespace Text

/-- The decimal numeral of a natural number, without leading zeros. -/
def ofNat (n : Nat) : Text := Nat.toDigits 10 n

/-- The decimal numeral of an integer, with a minus sign in front of a negative one. -/
def ofInt : Int → Text
  | .ofNat n => ofNat n
  | .negSucc n => '-' :: ofNat (n + 1)

/-- The pieces of a text between the characters that satisfy `p`, in order. There is always one
piece more than there are such characters, so empty pieces are kept. -/
def pieces (p : Char → Bool) : Text → List Text
  | [] => [[]]
  | c :: r =>
    if p c then [] :: pieces p r
    else match pieces p r with
      | [] => [[c]]
      | first :: others => (c :: first) :: others

/-- The lines of a text, each with the line feed that ends it. -/
def lines : Text → List Text
  | [] => []
  | c :: r =>
    if c = '\n' then [c] :: lines r
    else match lines r with
      | [] => [[c]]
      | first :: others => (c :: first) :: others

/-- Whether `part` occurs somewhere in the text. -/
def occursIn (part : Text) : Text → Bool
  | [] => part.isEmpty
  | c :: r => part.isPrefixOf (c :: r) || occursIn part r

/-- The first hundred characters of a text, as reports and logs quote it. -/
def preview (t : Text) : Text := t.take 100

/-- The texts in order with `separator` between neighbours. -/
def join (separator : Text) (parts : List Text) : Text := separator.intercalate parts

/-- A text is cut into at least one piece. -/
theorem pieces_ne_nil (p : Char → Bool) (t : Text) : pieces p t ≠ [] := by
  cases t with
  | nil => simp [pieces]
  | cons c r =>
    simp only [pieces]
    split
    · simp
    · split <;> simp

/-- A separator ends the first piece. -/
theorem pieces_cons_of_pos {p : Char → Bool} {c : Char} (h : p c) (r : Text) :
    pieces p (c :: r) = [] :: pieces p r := by
  simp [pieces, h]

/-- Any other character belongs to the first piece of what follows it. -/
theorem pieces_cons_of_neg {p : Char → Bool} {c : Char} (h : ¬p c) (r : Text) :
    ∃ first others, pieces p r = first :: others ∧
      pieces p (c :: r) = (c :: first) :: others := by
  cases hr : pieces p r with
  | nil => exact absurd hr (pieces_ne_nil p r)
  | cons first others => exact ⟨first, others, rfl, by simp [pieces, h, hr]⟩

/-- A text without a separator is its only piece. -/
theorem pieces_eq_singleton {p : Char → Bool} {t : Text} (h : ∀ c ∈ t, ¬p c) :
    pieces p t = [t] := by
  induction t with
  | nil => rfl
  | cons c r ih =>
    simp [pieces, h c, ih fun d hd => h d (List.mem_cons_of_mem c hd)]

/-- The lines of a text, put together again, are the text. -/
theorem flatten_lines (t : Text) : (lines t).flatten = t := by
  induction t with
  | nil => rfl
  | cons c r ih =>
    simp only [lines]
    split
    · simp [ih]
    · cases hr : lines r with
      | nil => simp_all
      | cons first others => simp_all

/-- A preview has at most a hundred characters. -/
theorem length_preview_le (t : Text) : (preview t).length ≤ 100 := by
  rw [preview, List.length_take]
  exact Nat.min_le_left 100 t.length

end Text

end SchemaDelta
