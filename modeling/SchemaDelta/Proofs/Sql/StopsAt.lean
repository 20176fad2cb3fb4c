import SchemaDelta.Proofs.Sql.Name

/-!
# Readers that stop at a character

A reader stops at a character if it takes no text past it: of a text in which the character stands
it takes what it takes of the part in front (`StopsAt`). What such a reader is searched for in the
whole text is then searched for in one part after the other (`StopsAt.first_append_cons`,
`StopsAt.firstAtWord_append_cons`).
-/

namespace SchemaDelta

namespace Reader

variable {α β : Type} {c : Char} {r : Reader α}

/-- Of a text in which the character stands the reader takes what it takes of the part in front. -/
def StopsAt (c : Char) (r : Reader α) : Prop :=
  ∀ a b : Text, r.run (a ++ c :: b) =
    (r.run a).map fun result => (result.1, result.2 ++ c :: b)

theorem StopsAt.pure {a : α} : StopsAt c (pure a) := fun _ _ => rfl

/-- What a reader does behind one that stops it may do to what it gives, too. -/
theorem StopsAt.run_bind {next : α → Reader β} (hr : StopsAt c r) {a b : Text} {f : β → β}
    (hnext : ∀ value left, (next value).run (left ++ c :: b) =
      ((next value).run left).map fun result => (f result.1, result.2 ++ c :: b)) :
    (r >>= next).run (a ++ c :: b) =
      ((r >>= next).run a).map fun result => (f result.1, result.2 ++ c :: b) := by
  rw [StateT.run_bind, StateT.run_bind, hr a b]
  cases r.run a with
  | none => rfl
  | some result => exact hnext result.1 result.2

theorem StopsAt.bind {next : α → Reader β} (hr : StopsAt c r) (hnext : ∀ a, StopsAt c (next a)) :
    StopsAt c (r >>= next) :=
  fun _ b => hr.run_bind (f := id) fun value left => hnext value left b

/-- Two texts are read alike in front of the character if they are behind it. -/
theorem StopsAt.run_bind_congr {next : α → Reader β} (hr : StopsAt c r) {a b b' : Text}
    (hnext : ∀ value left, (next value).run (left ++ c :: b) = (next value).run (left ++ c :: b')) :
    (r >>= next).run (a ++ c :: b) = (r >>= next).run (a ++ c :: b') := by
  rw [StateT.run_bind, StateT.run_bind, hr a b, hr a b']
  cases r.run a with
  | none => rfl
  | some result => exact hnext result.1 result.2

theorem StopsAt.orElse {alternative : Reader α} (hr : StopsAt c r)
    (halternative : StopsAt c alternative) : StopsAt c (r <|> alternative) := by
  intro a b
  rw [run_orElse, run_orElse, hr a b, halternative a b]
  cases r.run a <;> rfl

theorem stopsAt_satisfy {p : Char → Bool} (hc : ¬p c) : StopsAt c (satisfy p) := by
  intro a b
  cases a with
  | nil => simp [satisfy, StateT.run, hc]
  | cons d rest => by_cases hd : p d <;> simp [satisfy, StateT.run, hd]

theorem stopsAt_char {d : Char} (hc : c ≠ d) : StopsAt c (char d) := by
  intro a b
  cases a with
  | nil => simp [char, StateT.run, hc]
  | cons e rest => by_cases he : e = d <;> simp [char, StateT.run, he]

/-- A run of characters ends where another one stands. -/
theorem span_append_cons {p : Char → Bool} (hc : ¬p c) (a b : Text) :
    (a ++ c :: b).takeWhile p = a.takeWhile p ∧
      (a ++ c :: b).dropWhile p = a.dropWhile p ++ c :: b := by
  induction a with
  | nil => simp [hc]
  | cons d rest ih => by_cases hd : p d <;> simp [hd, ih]

theorem stopsAt_many {p : Char → Bool} (hc : ¬p c) : StopsAt c (many p) := by
  intro a b
  rw [run_many, (span_append_cons hc a b).1, (span_append_cons hc a b).2]
  rfl

theorem stopsAt_many1 {p : Char → Bool} (hc : ¬p c) : StopsAt c (many1 p) := by
  intro a b
  cases a with
  | nil => exact run_many1_of_neg hc b
  | cons d rest =>
      by_cases hd : p d
      · rw [List.cons_append, run_many1_of_pos hd, run_many1_of_pos hd,
          (span_append_cons hc rest b).1, (span_append_cons hc rest b).2]
        rfl
      · rw [List.cons_append, run_many1_of_neg hd, run_many1_of_neg hd]
        rfl

/-- What is searched for in front of the character and behind it is found where it comes first. -/
theorem StopsAt.first_append_cons (hr : StopsAt c r) (hnil : r.run [] = none) (a b : Text) :
    first r (a ++ c :: b) = (first r a).or (first r b) := by
  induction a with
  | nil =>
      have hnone : r.run ([] ++ c :: b) = none := by rw [hr [] b, hnil]; rfl
      have hempty : first r [] = none := by rw [first, hnil]
      rw [hempty, Option.none_or]
      exact first_cons_of_none hnone
  | cons d rest ih =>
      rw [List.cons_append, first, first.eq_def r (d :: rest), ← List.cons_append, hr (d :: rest) b]
      cases r.run (d :: rest) with
      | none => exact ih
      | some result => rfl

end Reader

namespace Sql

open Reader Text

variable {α : Type} {c : Char} {r : Reader α}

theorem stopsAt_keyword {k : Text} (hc : keywordFold c ∉ k) : StopsAt c (keyword k) := by
  induction k with
  | nil => exact .pure
  | cons d rest ih =>
      rw [List.mem_cons, not_or] at hc
      exact (stopsAt_satisfy (by simpa using hc.1)).bind fun _ => ih hc.2

theorem stopsAt_gap (hc : ¬isBlank c) : StopsAt c gap := (stopsAt_many1 hc).bind fun _ => .pure

/-- A keyword and a gap stop where what is read behind them stops. -/
theorem stopsAt_keyword_gap {k : Text} (hk : keywordFold c ∉ k) (hc : ¬isBlank c)
    (hr : StopsAt c r) : StopsAt c (do keyword k; gap; r) :=
  (stopsAt_keyword hk).bind fun _ => (stopsAt_gap hc).bind fun _ => hr

/-- Two keywords with a gap between them stop at what belongs to neither of them nor to the gap. -/
theorem stopsAt_keywords {k l : Text} (hk : keywordFold c ∉ k) (hc : ¬isBlank c)
    (hl : keywordFold c ∉ l) : StopsAt c (do keyword k; gap; keyword l) :=
  stopsAt_keyword_gap hk hc (stopsAt_keyword hl)

theorem stopsAt_blanks (hc : ¬isBlank c) : StopsAt c blanks := (stopsAt_many hc).bind fun _ => .pure

theorem stopsAt_word (hc : ¬isWord c) : StopsAt c word := stopsAt_many1 hc

theorem stopsAt_mark {marks : Text} (hc : c ∉ marks) : StopsAt c (mark marks) := by
  intro a b
  cases a with
  | nil => simp [mark, StateT.run, hc]
  | cons d rest => by_cases hd : d ∈ marks <;> simp [mark, StateT.run, hd]

theorem stopsAt_wordEnd (hc : ¬isWord c) : StopsAt c wordEnd := by
  intro a b
  cases a with
  | nil => simp [wordEnd, StateT.run, startsWord, hc]
  | cons d rest => by_cases hd : isWord d <;> simp [wordEnd, StateT.run, startsWord, hd]

/-- Behind a character that belongs to no word a search may start. -/
theorem StopsAt.firstAtWord_append_cons (hr : StopsAt c r) (hnil : r.run [] = none)
    (hc : ¬isWord c) (inWord : Bool) (a b : Text) : firstAtWord r inWord (a ++ c :: b) =
      (firstAtWord r inWord a).or (firstAtWord r false b) := by
  have hempty : ∀ inWord, firstAtWord r inWord [] = none := by
    intro inWord
    rw [firstAtWord, hnil, ite_self]
  induction a generalizing inWord with
  | nil =>
      have hnone : r.run ([] ++ c :: b) = none := by rw [hr [] b, hnil]; rfl
      rw [List.nil_append] at hnone ⊢
      rw [hempty, Option.none_or, firstAtWord, hnone, ite_self]
      simp [hc]
  | cons d rest ih =>
      rw [List.cons_append, firstAtWord, firstAtWord.eq_def r inWord (d :: rest),
        ← List.cons_append, hr (d :: rest) b]
      cases inWord with
      | true => exact ih (isWord d)
      | false =>
          cases r.run (d :: rest) with
          | none => exact ih (isWord d)
          | some result => rfl

/-- Words stand in front of the character or behind it. -/
theorem StopsAt.hasAtWord_append_cons {r : Reader Unit} (hr : StopsAt c r) (hnil : r.run [] = none)
    (hc : ¬isWord c) (a b : Text) :
    hasAtWord r (a ++ c :: b) = (hasAtWord r a || hasAtWord r b) := by
  rw [hasAtWord, StopsAt.firstAtWord_append_cons hr hnil hc, Option.isSome_or]
  rfl

end Sql

end SchemaDelta
