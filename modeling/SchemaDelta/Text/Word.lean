import SchemaDelta.Text.Basic
import SchemaDelta.Text.WordRanges

/-!
# Word characters

The characters that names are made of: letters, digits, marks and the low line, over all of
Unicode. Below U+0080 they are the ASCII letters and digits and the low line; from there on a
table of ranges decides.
-/

namespace SchemaDelta.Text

/-- Whether a character belongs to a word: alphabetic, a mark, a decimal number, a connector
punctuation mark or a join control. -/
def isWord (c : Char) : Bool :=
  if c.toNat < 0x80 then c.isAlphanum || c == '_'
  else wordRanges.any fun range => range.1 ≤ c.toNat && c.toNat ≤ range.2

/-- Whether the text goes on with a word character. -/
def startsWord : Text → Bool
  | [] => false
  | c :: _ => isWord c

/-- The ASCII letters and digits are word characters. -/
theorem isWord_of_isAlphanum {c : Char} (h : c.isAlphanum) (ascii : c.toNat < 0x80) :
    isWord c := by
  simp [isWord, ascii, h]

/-- Each range of the table starts beyond the one before it. -/
theorem wordRanges_increasing :
    ∀ neighbours ∈ wordRanges.zip wordRanges.tail,
      neighbours.1.2 + 1 < neighbours.2.1 := by
  decide +kernel

end SchemaDelta.Text
