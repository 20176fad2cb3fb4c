import SchemaDelta.Text.Basic

/-!
# Readers

A reader takes a value off the front of a text and leaves the rest, or refuses. Sequencing and
fallback are those of a state over `Option`: a reader that refuses leaves the text as it was for
the alternative after `<|>`. The lemmas say what each primitive does to the text in front of it.
-/

namespace SchemaDelta

/-- A reader takes a value off the front of a text and leaves the rest, or refuses. -/
abbrev Reader (α : Type) := StateT Text Option α

namespace Reader

/-- Takes one character that satisfies `p`. -/
def satisfy (p : Char → Bool) : Reader Char := fun t =>
  match t with
  | [] => none
  | c :: r => if p c then some (c, r) else none

/-- Takes exactly this character. -/
def char (c : Char) : Reader Unit := fun t =>
  match t with
  | [] => none
  | d :: r => if d = c then some ((), r) else none

/-- Takes exactly this text. -/
def exactly : Text → Reader Unit
  | [] => pure ()
  | c :: r => do char c; exactly r

/-- Takes the longest run of characters that satisfy `p`, which may be empty. -/
def many (p : Char → Bool) : Reader Text := fun t => some (t.takeWhile p, t.dropWhile p)

/-- Takes the longest run of characters that satisfy `p` and refuses an empty one. -/
def many1 (p : Char → Bool) : Reader Text := fun t =>
  match t with
  | [] => none
  | c :: r => if p c then some (c :: r.takeWhile p, r.dropWhile p) else none

/-- Takes what `r` takes, or nothing if `r` refuses. -/
def maybe {α : Type} (r : Reader α) : Reader Unit := (do let _ ← r; pure ()) <|> pure ()

/-- Refuses where the text goes on. -/
def atEnd : Reader Unit := fun t =>
  match t with
  | [] => some ((), [])
  | _ :: _ => none

/-- The value of a reader that has to take the whole text. -/
def whole {α : Type} (r : Reader α) (t : Text) : Option α :=
  match r.run t with
  | some (a, []) => some a
  | _ => none

/-- The value at the first position from which the reader succeeds. -/
def first {α : Type} (r : Reader α) (t : Text) : Option α :=
  match r.run t with
  | some (a, _) => some a
  | none =>
    match t with
    | [] => none
    | _ :: rest => first r rest

@[simp] theorem run_char_self (c : Char) (rest : Text) :
    (char c).run (c :: rest) = some ((), rest) := by
  simp [char, StateT.run]

theorem run_satisfy {p : Char → Bool} {c : Char} (h : p c) (rest : Text) :
    (satisfy p).run (c :: rest) = some (c, rest) := by
  simp [satisfy, StateT.run, h]

/-- Reading a fixed text off its own front leaves what follows it. -/
@[simp] theorem run_exactly_append (t rest : Text) :
    (exactly t).run (t ++ rest) = some ((), rest) := by
  induction t with
  | nil => rfl
  | cons c r ih => simpa [exactly] using ih

@[simp] theorem run_many (p : Char → Bool) (t : Text) :
    (many p).run t = some (t.takeWhile p, t.dropWhile p) := rfl

theorem run_many1_of_pos {p : Char → Bool} {c : Char} (h : p c) (r : Text) :
    (many1 p).run (c :: r) = some (c :: r.takeWhile p, r.dropWhile p) := by
  simp [many1, StateT.run, h]

theorem run_many1_of_neg {p : Char → Bool} {c : Char} (h : ¬p c) (r : Text) :
    (many1 p).run (c :: r) = none := by
  simp [many1, StateT.run, h]

/-- A run that the text in front of the reader spells out is taken whole. -/
theorem run_many1_append {p : Char → Bool} {t rest : Text} (hne : t ≠ [])
    (hall : ∀ c ∈ t, p c) (hrest : ∀ c ∈ rest.head?, ¬p c) :
    (many1 p).run (t ++ rest) = some (t, rest) := by
  cases t with
  | nil => exact absurd rfl hne
  | cons c r =>
    have hr : ∀ d ∈ r, p d := fun d hd => hall d (List.mem_cons_of_mem c hd)
    have htake : rest.takeWhile p = [] := by cases rest <;> simp_all
    have hdrop : rest.dropWhile p = rest := by cases rest <;> simp_all
    rw [List.cons_append, run_many1_of_pos (hall c List.mem_cons_self),
      List.takeWhile_append_of_pos hr, List.dropWhile_append_of_pos hr, htake, hdrop,
      List.append_nil]

/-- A reader that succeeds at the front is not tried further on. -/
theorem first_of_run {α : Type} {r : Reader α} {t rest : Text} {a : α}
    (h : r.run t = some (a, rest)) : first r t = some a := by
  unfold first
  rw [h]

/-- Where the reader refuses, the search goes on behind one character. -/
theorem first_cons_of_none {α : Type} {r : Reader α} {c : Char} {t : Text}
    (h : r.run (c :: t) = none) : first r (c :: t) = first r t := by
  rw [first, h]

end Reader

end SchemaDelta
