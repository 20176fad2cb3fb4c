import SchemaDelta.Text.Basic

/-!
# Comparison without case

Two rules of different reach. The ASCII rule lets the letters a to z stand for A to Z and is
used to look for fixed phrases in a text. The keyword rule adds the two characters outside
ASCII that fold onto a Latin letter, the Kelvin sign and the long s.
-/

namespace SchemaDelta.Text

/-- The text with the letters a to z made capital. -/
def upper (t : Text) : Text := t.map Char.toUpper

/-- Whether two texts differ at most in the case of ASCII letters. -/
def sameCaseless (a b : Text) : Bool := upper a == upper b

/-- Whether `part` occurs in `whole`, up to the case of ASCII letters. -/
def containsCaseless (whole part : Text) : Bool := occursIn (upper part) (upper whole)

/-- The capital letter that a character stands for in a keyword: a to z fold onto A to Z, the
Kelvin sign onto K and the long s onto S. -/
def keywordFold (c : Char) : Char :=
  if c = '\u212A' then 'K' else if c = '\u017F' then 'S' else c.toUpper

end SchemaDelta.Text
