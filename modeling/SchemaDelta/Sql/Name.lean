import SchemaDelta.Text.Blank

/-!
# Quoted names

How names are written into statements and how they are taken out of key lists.
-/

namespace SchemaDelta.Sql

/-- The quotation mark that statements put around names. -/
def nameMark : Char := '\x60'

/-- A name between two name marks. -/
def quoteName (name : Text) : Text := nameMark :: name ++ [nameMark]

/-- Whether a character is a quotation mark of any of the three kinds. -/
def isQuote (c : Char) : Bool := c == nameMark || c == '\'' || c == '\x22'

/-- A name without blanks around it and without quotation marks anywhere. -/
def bareName (name : Text) : Text := (Text.trim name).filter (!isQuote ·)

/-- Of a quoted name that holds no quotation mark and no blank at its ends, the name is left. -/
theorem bareName_quoteName {name : Text} (h : ∀ c ∈ name, ¬isQuote c) :
    bareName (quoteName name) = name := by
  have hstart : Text.trimStart (quoteName name) = quoteName name := by
    simp [Text.trimStart, quoteName, nameMark, Text.isBlank]
  have hend : Text.trimEnd (quoteName name) = quoteName name := by
    simp [Text.trimEnd, quoteName, nameMark, Text.isBlank]
  have hmark : isQuote nameMark := by decide
  have hname : name.filter (!isQuote ·) = name :=
    List.filter_eq_self.2 fun c hc => by simpa using h c hc
  rw [bareName, Text.trim, hstart, hend, quoteName]
  simp [hmark, hname]

end SchemaDelta.Sql
