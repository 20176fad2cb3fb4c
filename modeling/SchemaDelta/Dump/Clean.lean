import SchemaDelta.Text.Blank

/-!
# Cleaning a dump

Before a dump is cut into statements its comments are taken out and its blanks are made single
spaces, so that everything after works on one line of text. The steps run in a fixed order: line
comments, block comments, blank lines, runs of blanks, and last the blanks at the two ends.
-/

namespace SchemaDelta.Dump

/-- The text without its line comments. A comment runs from two hyphens to the end of the line;
`inside` says whether the text continues one. -/
def dropLineComments (inside : Bool) : Text → Text
  | [] => []
  | c :: rest =>
    if inside then
      if c = '\n' then c :: dropLineComments false rest else dropLineComments true rest
    else if c = '-' ∧ rest.head? = some '-' then dropLineComments true rest
    else c :: dropLineComments false rest

/-- Where a pass over block comments stands. The two states `opening` and `closing` take the
second character of a comment's mark. -/
inductive BlockState where
  | outside
  | opening
  | inside
  | closing
  deriving DecidableEq

/-- Whether the text after a slash opens a block comment that is closed later on. -/
def opensBlock : Text → Bool
  | '*' :: rest => Text.occursIn "*/" rest
  | _ => false

/-- The text without its block comments. A comment ends at the first closing mark behind its
opening mark; what only looks like an opening and is never closed stays. -/
def dropBlockComments : BlockState → Text → Text
  | _, [] => []
  | .outside, c :: rest =>
    if c = '/' ∧ opensBlock rest then dropBlockComments .opening rest
    else c :: dropBlockComments .outside rest
  | .opening, _ :: rest => dropBlockComments .inside rest
  | .inside, c :: rest =>
    if c = '*' ∧ rest.head? = some '/' then dropBlockComments .closing rest
    else dropBlockComments .inside rest
  | .closing, _ :: rest => dropBlockComments .outside rest

/-- The text without the lines that hold only blanks. -/
def dropBlankLines (t : Text) : Text :=
  ((Text.lines t).filter fun line => !line.all Text.isBlank).flatten

/-- The text without comments, on one line, with single spaces for its runs of blanks. -/
def clean (t : Text) : Text :=
  Text.trim (Text.squeeze false
    (dropBlankLines (dropBlockComments .outside (dropLineComments false t))))

/-- A line comment is dropped up to the line feed that ends it. -/
theorem dropLineComments_comment {body : Text} (h : '\n' ∉ body) (rest : Text) :
    dropLineComments false ('-' :: '-' :: body ++ '\n' :: rest) =
      '\n' :: dropLineComments false rest := by
  have hinside : ∀ b : Text, '\n' ∉ b →
      dropLineComments true (b ++ '\n' :: rest) = '\n' :: dropLineComments false rest := by
    intro b
    induction b with
    | nil => intro _; simp [dropLineComments]
    | cons c r ih =>
      intro hb
      simp only [List.mem_cons, not_or] at hb
      simp [dropLineComments, Ne.symm hb.1, ih hb.2]
  simpa [dropLineComments] using hinside body h

end SchemaDelta.Dump
