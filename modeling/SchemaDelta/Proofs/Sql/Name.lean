import Mathlib.Data.List.Basic
import SchemaDelta.Proofs.Text.Reader
import SchemaDelta.Sql.Header

/-!
# Names

A name is a word of at least one character. Every name that a statement header yields is one
(`named_of_header`), and so it holds no quotation mark, blank or line feed.
-/

namespace SchemaDelta

/-- A search that starts only where no word goes on has found such a place, from which the reader
succeeds. -/
theorem Sql.run_of_firstAtWord {α : Type} {r : Reader α} {t : Text} {inWord : Bool} {a : α}
    (h : firstAtWord r inWord t = some a) : ∃ front place rest, t = front ++ place ∧
      (∀ c ∈ front.getLast?, ¬Text.isWord c) ∧ (front = [] → inWord = false) ∧
      r.run place = some (a, rest) := by
  induction t generalizing inWord with
  | nil =>
      rw [firstAtWord] at h
      split at h
      · next hrun =>
        obtain ⟨hstart, hrun⟩ := Option.ite_none_left_eq_some.1 hrun
        exact ⟨[], [], _, rfl, by simp, fun _ => by simpa using hstart, Option.some.inj h ▸ hrun⟩
      · simp at h
  | cons c t ih =>
      rw [firstAtWord] at h
      split at h
      · next hrun =>
        obtain ⟨hstart, hrun⟩ := Option.ite_none_left_eq_some.1 hrun
        exact ⟨[], c :: t, _, rfl, by simp, fun _ => by simpa using hstart,
          Option.some.inj h ▸ hrun⟩
      · obtain ⟨front, place, rest, rfl, hlast, hstart, hrun⟩ := ih h
        refine ⟨c :: front, place, rest, rfl, fun d hd => ?_, by simp, hrun⟩
        cases front with
        | nil =>
            obtain rfl : c = d := by simpa using hd
            simp [hstart rfl]
        | cons e front => exact hlast d (by simpa [List.getLast?_cons_cons] using hd)

/-- A search that starts only where no word goes on gives what the reader gives. -/
theorem Reader.Gives.firstAtWord {β : Type} {Q : β → Prop} {r : Reader β} (h : Gives r Q)
    {t : Text} {inWord : Bool} {b : β} (hfirst : Sql.firstAtWord r inWord t = some b) :
    Q b := by
  obtain ⟨_, _, _, -, -, -, hrun⟩ := Sql.run_of_firstAtWord hfirst
  exact h hrun

namespace Sql

open Reader

/-- A reader that succeeds at the start of a text is not tried further on. -/
theorem firstAtWord_of_run {α : Type} {r : Reader α} {t rest : Text} {a : α}
    (h : r.run t = some (a, rest)) : firstAtWord r false t = some a := by
  unfold firstAtWord
  rw [if_neg (by simp), h]

/-- A reader that succeeds at a place where no word goes on is found. -/
theorem isSome_firstAtWord {α : Type} {r : Reader α} {front place : Text} {inWord : Bool}
    (hlast : ∀ c ∈ front.getLast?, ¬Text.isWord c) (hstart : front = [] → inWord = false)
    (hrun : (r.run place).isSome) : (firstAtWord r inWord (front ++ place)).isSome := by
  induction front generalizing inWord with
  | nil =>
      obtain ⟨⟨a, rest⟩, hrun⟩ := Option.isSome_iff_exists.1 hrun
      rw [hstart rfl, List.nil_append, firstAtWord_of_run hrun]
      rfl
  | cons c front ih =>
      rw [List.cons_append, firstAtWord]
      split
      · rfl
      · refine ih (fun d hd => hlast d ?_) fun hnil => ?_
        · rw [List.getLast?_cons_of_ne_nil (List.ne_nil_of_mem (List.mem_of_getLast? hd))]
          exact hd
        · subst hnil
          simpa using hlast c (by simp)

/-- Words stand somewhere apart from other words exactly when the text has a place where no word
goes on and the words are read. -/
theorem hasAtWord_iff {r : Reader Unit} {t : Text} : hasAtWord r t ↔ ∃ front place,
    t = front ++ place ∧ (∀ c ∈ front.getLast?, ¬Text.isWord c) ∧ (r.run place).isSome := by
  constructor
  · intro h
    obtain ⟨_, hfirst⟩ := Option.isSome_iff_exists.1 h
    obtain ⟨front, place, rest, heq, hlast, -, hrun⟩ := run_of_firstAtWord hfirst
    exact ⟨front, place, heq, hlast, by rw [hrun]; rfl⟩
  · rintro ⟨front, place, rfl, hlast, hrun⟩
    exact isSome_firstAtWord hlast (fun _ => rfl) hrun

/-- Where words are read neither from a place in the front of a text nor from where its back
begins, they stand in the text exactly if they stand in the back. -/
theorem hasAtWord_append {r : Reader Unit} {a b : Text}
    (ha : ∀ front place, a = front ++ place → place ≠ [] →
      (∀ c ∈ front.getLast?, ¬Text.isWord c) → r.run (place ++ b) = none)
    (hb : r.run b = none) : hasAtWord r (a ++ b) = hasAtWord r b := by
  rw [Bool.eq_iff_iff, hasAtWord_iff, hasAtWord_iff]
  constructor
  · rintro ⟨front, place, heq, hlast, hrun⟩
    rcases List.append_eq_append_iff.1 heq with ⟨more, rfl, rfl⟩ | ⟨more, rfl, rfl⟩
    · refine ⟨more, place, rfl, fun c hc => hlast c ?_, hrun⟩
      rwa [List.getLast?_append_of_ne_nil a (List.ne_nil_of_mem (List.mem_of_getLast? hc))]
    · by_cases hnil : more = []
      · subst hnil
        exact absurd hrun (by simp [hb])
      · exact absurd hrun (by simp [ha front more rfl hnil hlast])
  · rintro ⟨front, place, rfl, hlast, hrun⟩
    have hne : front ≠ [] := by
      rintro rfl
      exact absurd hrun (by simpa using hb)
    refine ⟨a ++ front, place, (List.append_assoc a front place).symm, ?_, hrun⟩
    rwa [List.getLast?_append_of_ne_nil a hne]

/-- A name is a word of at least one character. -/
structure IsName (t : Text) : Prop where
  ne_nil : t ≠ []
  isWord : ∀ c ∈ t, Text.isWord c

instance (t : Text) : Decidable (IsName t) :=
  decidable_of_iff (t ≠ [] ∧ t.all Text.isWord)
    ⟨fun h => ⟨h.1, List.all_eq_true.1 h.2⟩, fun h => ⟨h.ne_nil, List.all_eq_true.2 h.isWord⟩⟩

/-- A character that is no word character does not occur in a name. -/
theorem IsName.not_mem {t : Text} (h : IsName t) {c : Char} (hc : Text.isWord c = false) :
    c ∉ t := by
  intro hmem
  simp [h.isWord c hmem] at hc

/-- A word character is none of several characters that are none. -/
theorem not_mem_of_isWord {c : Char} (hc : Text.isWord c) {marks : Text}
    (hmarks : marks.all (!Text.isWord ·)) : c ∉ marks := by
  intro hmem
  have hnot := List.all_eq_true.1 hmarks c hmem
  simp [hc] at hnot

/-- So none of them stands in front of a text that opens with a name. -/
theorem IsName.head?_not_mem {t : Text} (h : IsName t) (rest : Text) {marks : Text}
    (hmarks : marks.all (!Text.isWord ·)) : ∀ c ∈ (t ++ rest).head?, c ∉ marks := by
  obtain ⟨c, others, rfl⟩ := List.exists_cons_of_ne_nil h.ne_nil
  simpa using not_mem_of_isWord (h.isWord c List.mem_cons_self) hmarks

theorem IsName.newline_not_mem {t : Text} (h : IsName t) : '\n' ∉ t :=
  h.not_mem (by decide)

/-- What holds of the blanks one by one holds of every blank. -/
theorem forall_isBlank {P : Char → Prop}
    (h : ∀ n ∈ [9, 10, 11, 12, 13, 0x20, 0x85, 0xA0, 0x1680, 0x2000, 0x2001, 0x2002, 0x2003, 0x2004,
      0x2005, 0x2006, 0x2007, 0x2008, 0x2009, 0x200A, 0x2028, 0x2029, 0x202F, 0x205F, 0x3000],
      P (Char.ofNat n)) {c : Char} (hc : Text.isBlank c) : P c := by
  rw [← Char.ofNat_toNat c]
  refine h c.toNat ?_
  simp only [Text.isBlank, Bool.or_eq_true, Bool.and_eq_true, decide_eq_true_eq,
    beq_iff_eq] at hc
  simp only [List.mem_cons, List.not_mem_nil, or_false]
  omega

/-- No blank is a word character. -/
theorem isWord_eq_false_of_isBlank {c : Char} (h : Text.isBlank c) : Text.isWord c = false :=
  forall_isBlank (P := fun c => Text.isWord c = false) (by decide +kernel) h

/-- A name holds no blank. -/
theorem IsName.not_isBlank {t : Text} (h : IsName t) {c : Char} (hc : c ∈ t) :
    ¬Text.isBlank c :=
  fun hblank => h.not_mem (isWord_eq_false_of_isBlank hblank) hc

/-- Nor does it in name marks. -/
theorem IsName.not_isBlank_quoteName {t : Text} (h : IsName t) {c : Char}
    (hc : c ∈ quoteName t) : ¬Text.isBlank c := by
  have hc' : c = nameMark ∨ c ∈ t := by simpa [quoteName, or_comm] using hc
  rcases hc' with rfl | hc
  · decide
  · exact h.not_isBlank hc

/-- No blank stands in front of a quoted name. -/
theorem head?_quoteName_append (name rest : Text) :
    ∀ c ∈ (quoteName name ++ rest).head?, ¬Text.isBlank c := by
  intro c hc
  obtain rfl : nameMark = c := Option.some.inj hc
  decide

/-- A name holds no quotation mark. -/
theorem IsName.not_isQuote {t : Text} (h : IsName t) {c : Char} (hc : c ∈ t) : ¬isQuote c := by
  intro hquote
  have hc' : c = nameMark ∨ c = '\'' ∨ c = '\x22' := by simpa [isQuote, or_assoc] using hquote
  rcases hc' with rfl | rfl | rfl <;> exact h.not_mem (by decide) hc

/-- A mark is taken off the front or the text is left as it was. -/
theorem shortens_mark (marks : Text) : Shortens (mark marks) := by
  intro t found rest h
  cases t with
  | nil =>
      obtain ⟨-, rfl⟩ : false = found ∧ [] = rest := by simpa [mark, StateT.run] using h
      exact List.suffix_rfl
  | cons c r =>
      simp only [mark, StateT.run] at h
      split at h
      · obtain ⟨-, rfl⟩ : true = found ∧ r = rest := by simpa using h
        exact List.suffix_cons c r
      · obtain ⟨-, rfl⟩ : false = found ∧ c :: r = rest := by simpa using h
        exact List.suffix_rfl

theorem shortens_keyword (k : Text) : Shortens (keyword k) := by
  induction k with
  | nil => exact .pure
  | cons c r ih => exact (shortens_satisfy _).bind fun _ => ih

theorem shortens_gap : Shortens gap := (shortens_many1 _).bind fun _ => .pure

/-- A keyword and a gap in front of a reader are taken off the front, too. -/
theorem shortens_keyword_gap {k : Text} {α : Type} {r : Reader α} (hr : Shortens r) :
    Shortens (do keyword k; gap; r) :=
  (shortens_keyword k).bind fun _ => shortens_gap.bind fun _ => hr

theorem shortens_blanks : Shortens blanks := (shortens_many _).bind fun _ => .pure

theorem run_mark_cons {marks : Text} {c : Char} (h : c ∈ marks) (rest : Text) :
    (mark marks).run (c :: rest) = some (true, rest) := by
  simp [mark, StateT.run, h]

/-- One space in front of what is not blank is taken as a gap. -/
theorem run_gap_space {rest : Text} (h : ∀ c ∈ rest.head?, ¬Text.isBlank c) :
    gap.run (' ' :: rest) = some ((), rest) := by
  refine run_bind_eq_some_iff.2 ⟨[' '], rest, ?_, rfl⟩
  exact run_many1_append (t := [' ']) (by simp) (by simp; decide) h

/-- Behind a keyword and one space the next reader goes on. -/
theorem run_keyword_gap {k t : Text} (hk : t.map Text.keywordFold = k) {rest : Text}
    (hrest : ∀ c ∈ rest.head?, ¬Text.isBlank c) {α : Type} (r : Reader α) :
    (do keyword k; gap; r).run (t ++ ' ' :: rest) = r.run rest := by
  rw [StateT.run_bind, run_keyword_append hk]
  show (gap >>= fun _ => r).run (' ' :: rest) = r.run rest
  rw [StateT.run_bind, run_gap_space hrest]
  rfl

/-- Two keywords with a space between them are taken. -/
theorem run_keywords_append {k l : Text} (hk : k.map Text.keywordFold = k)
    (hl : l.map Text.keywordFold = l) {rest : Text}
    (hblank : ∀ c ∈ (l ++ rest).head?, ¬Text.isBlank c) :
    (do keyword k; gap; keyword l : Reader Unit).run (k ++ ' ' :: (l ++ rest)) =
      some ((), rest) := by
  rw [run_keyword_gap hk hblank, run_keyword_append hl]

theorem gives_word : Gives word IsName := fun _ _ _ hrun =>
  ⟨(gives_many1 _ hrun).1, (gives_many1 _ hrun).2⟩

theorem gives_markedName : Gives markedName IsName := .bind fun _ => gives_word

theorem gives_tableName : Gives tableName IsName :=
  .orElse (.bind fun _ => gives_markedName) gives_markedName

theorem gives_createdView : Gives createdView IsName := by
  unfold createdView
  repeat refine .bind fun _ => ?_
  exact gives_word

theorem gives_droppedView : Gives droppedView IsName := by
  unfold droppedView
  refine .bind fun _ => .bind fun _ => .orElse ?_ (.orElse ?_ ?_)
  all_goals
    repeat refine .bind fun _ => ?_
    exact gives_word

theorem gives_createdTable : Gives createdTable IsName := by
  unfold createdTable
  repeat refine .bind fun _ => ?_
  exact .orElse (.bind fun _ => gives_tableName) gives_tableName

theorem gives_alteredTable : Gives alteredTable IsName := by
  unfold alteredTable
  repeat refine .bind fun _ => ?_
  exact .orElse (.bind fun _ => .bind fun _ => gives_tableName) gives_tableName

/-- The name in a header satisfies `P`, if there is one. -/
def Header.Named (P : Text → Prop) : Header → Prop
  | .createView name => P name
  | .dropView name => ∀ known ∈ name, P known
  | .createTable name => P name
  | .alterTable table => P table

/-- The name in the header of a statement is a name. -/
theorem named_of_header {statement : Text} {header : Header}
    (h : Header.ofStatement? statement = some header) : header.Named IsName := by
  unfold Header.ofStatement? at h
  split at h
  · next hview =>
    obtain rfl := Option.some.inj h
    exact gives_createdView.first hview
  · split at h
    · obtain rfl := Option.some.inj h
      exact fun known hknown => gives_droppedView.first hknown
    · split at h
      · next htable =>
        obtain rfl := Option.some.inj h
        exact gives_createdTable.first htable
      · obtain ⟨table, htable, rfl⟩ := Option.map_eq_some_iff.1 h
        exact gives_alteredTable.first htable

/-- A statement with a header is not empty. -/
theorem ne_nil_of_header {statement : Text} {header : Header}
    (h : Header.ofStatement? statement = some header) : statement ≠ [] := by
  rintro rfl
  have hnone : Header.ofStatement? [] = none := by decide
  rw [hnone] at h
  simp at h

end Sql

end SchemaDelta
