import SchemaDelta.Sql.Name
import SchemaDelta.Text.Blank
import SchemaDelta.Text.Caseless
import SchemaDelta.Text.Reader
import SchemaDelta.Text.Word

/-!
# Tokens of statements

Readers for the parts that statement headers and clauses are made of: keywords in any case,
blanks, words and the quotation marks around names. `run_keyword_append` says that a keyword is
read in every spelling that folds onto it.
-/

namespace SchemaDelta.Sql

open Reader

/-- Takes a keyword, written here in capitals, in any case. -/
def keyword : Text → Reader Unit
  | [] => pure ()
  | k :: rest => do
    let _ ← satisfy (Text.keywordFold · == k)
    keyword rest

/-- Takes any number of blanks. -/
def blanks : Reader Unit := do let _ ← many Text.isBlank

/-- Takes at least one blank. -/
def gap : Reader Unit := do let _ ← many1 Text.isBlank

/-- Takes a word. -/
def word : Reader Text := many1 Text.isWord

/-- Takes one of these quotation marks and says so, or takes nothing. -/
def mark (marks : Text) : Reader Bool := fun t =>
  match t with
  | [] => some (false, [])
  | c :: r => if marks.contains c then some (true, r) else some (false, c :: r)

/-- The quotation marks that may stand around the name of a table, a column or a key. -/
def nameMarks : Text := [nameMark, '\x22']

/-- Refuses where a word goes on. -/
def wordEnd : Reader Unit := fun t => if Text.startsWord t then none else some ((), t)

/-- The value at the first position from which the reader succeeds and that does not continue a
word; `inWord` says whether the character before the text belongs to a word. -/
def firstAtWord {α : Type} (r : Reader α) (inWord : Bool) (t : Text) : Option α :=
  match (if inWord then none else r.run t) with
  | some (a, _) => some a
  | none =>
    match t with
    | [] => none
    | c :: rest => firstAtWord r (Text.isWord c) rest

/-- Whether the reader succeeds at some position that does not continue a word. -/
def hasAtWord (r : Reader Unit) (t : Text) : Bool := (firstAtWord r false t).isSome

/-- A keyword is read in every spelling that folds onto it. -/
theorem run_keyword_append {k t : Text} (h : t.map Text.keywordFold = k) (rest : Text) :
    (keyword k).run (t ++ rest) = some ((), rest) := by
  induction t generalizing k with
  | nil => subst h; rfl
  | cons c r ih =>
    subst h
    simp only [List.map_cons, keyword, List.cons_append, StateT.run_bind]
    rw [run_satisfy (by simp)]
    exact ih rfl

end SchemaDelta.Sql
