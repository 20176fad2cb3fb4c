import SchemaDelta.Text.Blank

/-!
# Table bodies and their clauses

A scan of a statement keeps the depth of open parentheses and the quotation mark that is open.
With it `tableBody` finds the text between the first parenthesis of a statement and the one that
closes it, and `clauses` cuts such a body at the commas that stand outside quotation marks at
depth zero. The main statement is `join_clausePieces`: cutting loses nothing but the commas.
-/

namespace SchemaDelta.Sql

/-- Opening parentheses minus closing ones, wherever they stand. The number is idealized: it has no
bounds, where a machine counts in 64 bits. -/
def parenBalance (t : Text) : Int := (t.count '(' : Int) - (t.count ')' : Int)

/-- What a scan knows at a position: how many parentheses are open and which quotation mark. The
depth is idealized: it is an integer without bounds, where a machine counts in 32 bits. The two
agree on every text with fewer than `2 ^ 31` parentheses. -/
structure Scan where
  depth : Int
  quote : Option Char
  deriving DecidableEq

namespace Scan

/-- The start of a text: nothing is open. -/
def start : Scan := ⟨0, none⟩

/-- One character on. A quotation mark out of `marks` is open until the same one comes again;
parentheses count outside quotation marks only. -/
def step (marks : Text) (scan : Scan) (c : Char) : Scan :=
  match scan.quote with
  | some q => if c = q then { scan with quote := none } else scan
  | none =>
    if marks.contains c then { scan with quote := some c }
    else if c = '(' then { scan with depth := scan.depth + 1 }
    else if c = ')' then { scan with depth := scan.depth - 1 }
    else scan

end Scan

/-- The quotation marks inside which the parentheses of a table statement do not count. -/
def bodyMarks : Text := ['\'', '\x22', '\x60']

/-- The quotation marks inside which the commas between clauses do not count. -/
def clauseMarks : Text := ['\'', '\x22']

/-- The text up to the character that brings the depth to zero. -/
def untilClosed (scan : Scan) : Text → Option Text
  | [] => none
  | c :: rest =>
    let next := scan.step bodyMarks c
    if next.depth = 0 then some [] else (untilClosed next rest).map (c :: ·)

/-- The text between the first opening parenthesis of a statement and the parenthesis that
closes it. What stands behind it, such as table options, is left out. -/
def tableBody (statement : Text) : Option Text :=
  match statement.dropWhile (· ≠ '(') with
  | [] => none
  | _ :: rest => untilClosed ⟨1, none⟩ rest

/-- The pieces of a text between the commas at depth zero outside quotation marks. -/
def clausePieces (scan : Scan) : Text → List Text
  | [] => [[]]
  | c :: rest =>
    if c = ',' ∧ scan = Scan.start then [] :: clausePieces scan rest
    else match clausePieces (scan.step clauseMarks c) rest with
      | [] => [[c]]
      | first :: others => (c :: first) :: others

/-- The clauses of a table body: its pieces without the blanks around them, empty ones left
out. -/
def clauses (body : Text) : List Text :=
  ((clausePieces Scan.start body).map Text.trim).filter (· ≠ [])

/-- A balance adds up over the parts of a text. -/
theorem parenBalance_append (a b : Text) :
    parenBalance (a ++ b) = parenBalance a + parenBalance b := by
  simp only [parenBalance, List.count_append]
  omega

/-- A body has at least one piece. -/
theorem clausePieces_ne_nil (scan : Scan) (t : Text) : clausePieces scan t ≠ [] := by
  cases t with
  | nil => simp [clausePieces]
  | cons c rest =>
    simp only [clausePieces]
    split
    · simp
    · split <;> simp

/-- The pieces of a body with commas between them are the body. -/
theorem join_clausePieces (scan : Scan) (t : Text) :
    Text.join "," (clausePieces scan t) = t := by
  induction t generalizing scan with
  | nil => rfl
  | cons c rest ih =>
    simp only [clausePieces]
    split
    · next h =>
      obtain ⟨rfl, rfl⟩ := h
      have hrest := ih Scan.start
      cases hp : clausePieces Scan.start rest with
      | nil => exact absurd hp (clausePieces_ne_nil _ _)
      | cons first others =>
        rw [hp] at hrest
        simp_all [Text.join, List.intercalate]
    · have hrest := ih (scan.step clauseMarks c)
      cases hp : clausePieces (scan.step clauseMarks c) rest with
      | nil => exact absurd hp (clausePieces_ne_nil _ _)
      | cons first others =>
        rw [hp] at hrest
        cases others <;> simp_all [Text.join, List.intercalate]

/-- Every clause is nonempty. -/
theorem ne_nil_of_mem_clauses {body clause : Text} (h : clause ∈ clauses body) :
    clause ≠ [] := by
  simpa using (List.mem_filter.1 h).2

end SchemaDelta.Sql
