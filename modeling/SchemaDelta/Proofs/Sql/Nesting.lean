import SchemaDelta.Proofs.Sql.Cut
import SchemaDelta.Proofs.Sql.Name

/-!
# Texts that close what they open

A statement is scanned three times: raw parentheses are counted to tell whether it is complete,
one scan finds its body and another one its clauses, and the two scans do not know the same
quotation marks. Where parentheses are closed that are open, none stands between quotation marks
and no comma stands outside of parentheses (`Closed`), all three agree: the parentheses balance,
and closed clauses with commas between them are the clauses of the body that they make up
(`clauses_join`, `tableBody_eq`). One step of reading says what a character does to each of the
scans (`next_follows`), and a run of steps carries it over a text.
-/

namespace SchemaDelta.Sql

open Text

/-- What is open at a place in a clause: how many parentheses, and which quotation mark. -/
structure Nesting where
  depth : Nat
  quote : Option Char
  deriving DecidableEq

namespace Nesting

/-- Nothing is open. -/
def outside : Nesting := ⟨0, none⟩

/-- One character on. Between quotation marks no parenthesis may stand, and between name marks
no comma and no other mark either. Outside of them no parenthesis may be closed that is not open,
and a comma may stand only between parentheses. -/
def next (nesting : Nesting) (c : Char) : Option Nesting :=
  match nesting.quote with
  | some q =>
    if c = '(' ∨ c = ')' then none
    else if c = q then some { nesting with quote := none }
    else if q = nameMark ∧ (c = ',' ∨ c ∈ clauseMarks) then none
    else some nesting
  | none =>
    if c ∈ bodyMarks then some { nesting with quote := some c }
    else if c = '(' then some { nesting with depth := nesting.depth + 1 }
    else if c = ')' then
      if nesting.depth = 0 then none else some { nesting with depth := nesting.depth - 1 }
    else if c = ',' ∧ nesting.depth = 0 then none
    else some nesting

/-- What is open behind a text. -/
def after (nesting : Nesting) : Text → Option Nesting
  | [] => some nesting
  | c :: rest => (nesting.next c).bind (after · rest)

/-- The state of the scan for the body, where more parentheses are open around the clause. -/
def bodyScan (nesting : Nesting) (around : Int) : Scan := ⟨around + nesting.depth, nesting.quote⟩

/-- The state of the scan for the clauses, which does not know name marks. -/
def clauseScan (nesting : Nesting) : Scan :=
  ⟨nesting.depth, nesting.quote.filter (· ≠ nameMark)⟩

/-- What a character does to the scans of a statement and to the count of its parentheses. -/
structure Follows (nesting : Nesting) (c : Char) (behind : Nesting) : Prop where
  body : ∀ around, (nesting.bodyScan around).step bodyMarks c = behind.bodyScan around
  clause : nesting.clauseScan.step clauseMarks c = behind.clauseScan
  uncut : ¬(c = ',' ∧ nesting.clauseScan = Scan.start)
  balance : (behind.depth : Int) = nesting.depth + parenBalance [c]

variable {nesting mid behind : Nesting} {c : Char} {t a b : Text}

/-- A character that is no parenthesis does not count. -/
theorem parenBalance_singleton (hopen : c ≠ '(') (hclose : c ≠ ')') : parenBalance [c] = 0 := by
  simp [parenBalance, hopen, hclose]

/-- Between quotation marks all scans follow one step of reading. -/
theorem next_follows_quoted {depth : Nat} {q : Char}
    (h : Nesting.next ⟨depth, some q⟩ c = some behind) : Follows ⟨depth, some q⟩ c behind := by
  simp only [next] at h
  obtain ⟨hparen, h⟩ := Option.ite_none_left_eq_some.1 h
  rw [not_or] at hparen
  obtain ⟨hopen, hclose⟩ := hparen
  have hbalance := parenBalance_singleton hopen hclose
  by_cases hq : c = q
  · subst hq
    obtain rfl : (⟨depth, none⟩ : Nesting) = behind := by simpa using h
    by_cases hname : c = nameMark
    · subst hname
      exact ⟨fun _ => rfl, rfl, by simp [nameMark], by rw [hbalance]; simp⟩
    · refine ⟨fun around => by simp [bodyScan, Scan.step], ?_, ?_, by rw [hbalance]; simp⟩
      · simp [clauseScan, Scan.step, Option.filter, hname]
      · simp [clauseScan, Scan.start, Option.filter, hname]
  · rw [if_neg hq] at h
    obtain ⟨hallowed, rfl⟩ : ¬(q = nameMark ∧ (c = ',' ∨ c ∈ clauseMarks)) ∧
        (⟨depth, some q⟩ : Nesting) = behind := by simpa using h
    refine ⟨fun around => by simp [bodyScan, Scan.step, hq], ?_, ?_, by rw [hbalance]; simp⟩
    · by_cases hname : q = nameMark
      · have hplain : c ∉ clauseMarks := fun hmem => hallowed ⟨hname, .inr hmem⟩
        simp [clauseScan, Scan.step, Option.filter, hname, hplain, hopen, hclose]
      · simp [clauseScan, Scan.step, Option.filter, hname, hq]
    · -- The scan for the clauses does not see name marks, so a comma there would cut.
      rintro ⟨hcomma, hstart⟩
      by_cases hname : q = nameMark
      · exact hallowed ⟨hname, .inl hcomma⟩
      · simp [clauseScan, Scan.start, Option.filter, hname] at hstart

/-- So they do outside of quotation marks. -/
theorem next_follows_unquoted {depth : Nat}
    (h : Nesting.next ⟨depth, none⟩ c = some behind) : Follows ⟨depth, none⟩ c behind := by
  simp only [next] at h
  by_cases hmark : c ∈ bodyMarks
  · obtain rfl : (⟨depth, some c⟩ : Nesting) = behind := by simpa [hmark] using h
    have hmarks : c = '\'' ∨ c = '\x22' ∨ c = nameMark := by
      simpa [bodyMarks, nameMark] using hmark
    rcases hmarks with rfl | rfl | rfl
    · exact ⟨fun _ => rfl, rfl, by simp, by simp [parenBalance]⟩
    · exact ⟨fun _ => rfl, rfl, by simp, by simp [parenBalance]⟩
    · exact ⟨fun _ => rfl, rfl, by simp [nameMark], by simp [parenBalance, nameMark]⟩
  · rw [if_neg hmark] at h
    have hclauseMark : c ∉ clauseMarks := fun hmem => hmark (List.mem_append_left [nameMark] hmem)
    by_cases hopen : c = '('
    · subst hopen
      obtain rfl : (⟨depth + 1, none⟩ : Nesting) = behind := by simpa using h
      refine ⟨fun around => ?_, ?_, by simp, ?_⟩
      · simp [bodyScan, Scan.step, bodyMarks, Int.add_assoc]
      · simp [clauseScan, Scan.step, clauseMarks]
      · simp [parenBalance]
    · rw [if_neg hopen] at h
      by_cases hclose : c = ')'
      · subst hclose
        obtain ⟨hdepth, rfl⟩ : depth ≠ 0 ∧ (⟨depth - 1, none⟩ : Nesting) = behind := by
          simpa using h
        have hcast : ((depth - 1 : Nat) : Int) = depth - 1 := by omega
        refine ⟨fun around => ?_, ?_, by simp, ?_⟩
        · simp [bodyScan, Scan.step, bodyMarks, hcast, Int.add_sub_assoc]
        · simp [clauseScan, Scan.step, clauseMarks, hcast]
        · simp [parenBalance, hcast, Int.sub_eq_add_neg]
      · rw [if_neg hclose] at h
        obtain ⟨hcomma, rfl⟩ : ¬(c = ',' ∧ depth = 0) ∧ (⟨depth, none⟩ : Nesting) = behind := by
          simpa using h
        refine ⟨fun around => ?_, ?_, ?_, ?_⟩
        · simp [bodyScan, Scan.step, hmark, hopen, hclose]
        · simp [clauseScan, Scan.step, hclauseMark, hopen, hclose]
        · rintro ⟨heq, hstart⟩
          exact hcomma ⟨heq, by simpa [clauseScan, Scan.start] using hstart⟩
        · rw [parenBalance_singleton hopen hclose]
          simp

/-- All scans follow one step of reading. -/
theorem next_follows (h : nesting.next c = some behind) : Follows nesting c behind := by
  obtain ⟨depth, quote⟩ := nesting
  cases quote with
  | some q => exact next_follows_quoted h
  | none => exact next_follows_unquoted h

/-! ## Runs over texts -/

/-- A text is read by reading its first part and then the other. -/
theorem after_append (ha : nesting.after a = some mid) (hb : mid.after b = some behind) :
    nesting.after (a ++ b) = some behind := by
  induction a generalizing nesting with
  | nil =>
      obtain rfl := Option.some.inj ha
      exact hb
  | cons c r ih =>
      obtain ⟨step, hstep, hrest⟩ := Option.bind_eq_some_iff.1 ha
      exact Option.bind_eq_some_iff.2 ⟨step, hstep, ih hrest⟩

/-- The depth counts the parentheses of the text. -/
theorem balance_of_after (h : nesting.after t = some behind) :
    (behind.depth : Int) = nesting.depth + parenBalance t := by
  induction t generalizing nesting with
  | nil =>
      obtain rfl := Option.some.inj h
      simp [parenBalance]
  | cons c r ih =>
      obtain ⟨mid, hstep, hrest⟩ := Option.bind_eq_some_iff.1 h
      have hsum : parenBalance (c :: r) = parenBalance [c] + parenBalance r :=
        parenBalance_append [c] r
      rw [ih hrest, (next_follows hstep).balance, hsum]
      omega

/-- The body of a table does not end in the text, if parentheses are open around it. -/
theorem untilClosed_append (h : nesting.after t = some behind) {around : Int}
    (haround : 0 < around) (rest : Text) :
    untilClosed (nesting.bodyScan around) (t ++ rest) =
      (untilClosed (behind.bodyScan around) rest).map (t ++ ·) := by
  induction t generalizing nesting with
  | nil =>
      obtain rfl := Option.some.inj h
      exact Option.map_id'.symm
  | cons c r ih =>
      obtain ⟨mid, hstep, hrest⟩ := Option.bind_eq_some_iff.1 h
      have hdepth : (mid.bodyScan around).depth ≠ 0 := by
        show around + mid.depth ≠ 0
        omega
      rw [List.cons_append, untilClosed, (next_follows hstep).body, if_neg hdepth, ih hrest,
        Option.map_map]
      rfl

/-- The scan for the clauses follows a run and sees no comma to cut at. -/
theorem after_clauseScan (h : nesting.after t = some behind) :
    nesting.clauseScan.after clauseMarks t = behind.clauseScan ∧
      Uncut clauseMarks Scan.start nesting.clauseScan t := by
  induction t generalizing nesting with
  | nil =>
      obtain rfl := Option.some.inj h
      exact ⟨rfl, uncut_nil⟩
  | cons c r ih =>
      obtain ⟨mid, hstep, hrest⟩ := Option.bind_eq_some_iff.1 h
      have hfollows := next_follows hstep
      obtain ⟨hafter, huncut⟩ := ih hrest
      rw [Scan.after_cons, uncut_cons_iff, hfollows.clause]
      exact ⟨hafter, hfollows.uncut, huncut⟩

end Nesting

/-- The text closes what it opens and stands apart from what is around it. -/
def Closed (t : Text) : Prop := Nesting.outside.after t = some Nesting.outside

instance (t : Text) : Decidable (Closed t) := inferInstanceAs (Decidable (_ = _))

theorem Closed.append {a b : Text} (ha : Closed a) (hb : Closed b) : Closed (a ++ b) :=
  Nesting.after_append ha hb

/-- The parentheses of a closed text balance. -/
theorem Closed.parenBalance_eq {t : Text} (h : Closed t) : parenBalance t = 0 := by
  have hdepth := Nesting.balance_of_after h
  simpa [Nesting.outside] using hdepth.symm

/-! ## Bodies made of closed clauses -/

/-- Behind a closed text the scan for the body is where it was. -/
theorem Closed.untilClosed_append {t : Text} (h : Closed t) (rest : Text) :
    untilClosed ⟨1, none⟩ (t ++ rest) = (untilClosed ⟨1, none⟩ rest).map (t ++ ·) :=
  Nesting.untilClosed_append h (by decide : (0 : Int) < 1) rest

/-- Closed clauses with commas between them do not end the body. -/
theorem untilClosed_join {parts : List Text} (h : ∀ part ∈ parts, Closed part) (rest : Text) :
    untilClosed ⟨1, none⟩ (join "," parts ++ rest) =
      (untilClosed ⟨1, none⟩ rest).map (join "," parts ++ ·) := by
  have hcomma : ∀ t : Text, untilClosed ⟨1, none⟩ (',' :: t) =
      (untilClosed ⟨1, none⟩ t).map (',' :: ·) := by
    intro t
    simp [untilClosed, Scan.step, bodyMarks]
  induction parts with
  | nil => exact Option.map_id'.symm
  | cons first others ih =>
      obtain ⟨hfirst, hothers⟩ := List.forall_mem_cons.1 h
      by_cases hnil : others = []
      · subst hnil
        simpa using hfirst.untilClosed_append rest
      · have hjoin : join "," (first :: others) = first ++ ',' :: join "," others :=
          join_char_cons ',' first hnil
        rw [hjoin, List.append_assoc, hfirst.untilClosed_append, List.cons_append, hcomma,
          ih hothers, Option.map_map, Option.map_map]
        simp only [Function.comp_def, List.append_assoc, List.cons_append]

/-- A list of closed clauses is made of closed parts. -/
theorem closed_spaced {parts : List Text} (h : ∀ part ∈ parts, Closed part) :
    ∀ part ∈ spaced parts, Closed part := by
  have hblank : Closed [' '] := by decide
  exact forall_mem_spaced h fun part hpart => hblank.append (h part hpart)

/-- Closed clauses without blanks at their ends are the clauses of the body that they make up. -/
theorem clauses_join {parts : List Text} (hclosed : ∀ part ∈ parts, Closed part)
    (htrim : ∀ part ∈ parts, trim part = part) (hne : ∀ part ∈ parts, part ≠ []) :
    clauses (join ", " parts) = parts := by
  refine (clauses_join_standalone fun part hpart => ?_).2
  obtain ⟨hafter, huncut⟩ := Nesting.after_clauseScan (hclosed part hpart)
  exact ⟨hne part hpart, htrim part hpart, hafter, huncut⟩

/-- The scan for the body starts behind the first parenthesis. -/
theorem tableBody_append_cons {front : Text} (hfront : '(' ∉ front) (t : Text) :
    tableBody (front ++ '(' :: t) = untilClosed ⟨1, none⟩ t := by
  have hdrop : (front ++ '(' :: t).dropWhile (· ≠ '(') = '(' :: t := by
    rw [List.dropWhile_append_of_pos]
    · rfl
    · intro c hc
      have hne : c ≠ '(' := fun heq => hfront (heq ▸ hc)
      simpa using hne
  rw [tableBody, hdrop]

/-- The body of a table definition is what its parentheses enclose. -/
theorem tableBody_eq {front : Text} {parts : List Text} (hfront : '(' ∉ front)
    (h : ∀ part ∈ parts, Closed part) :
    tableBody (front ++ '(' :: (join ", " parts ++ [')'])) = some (join ", " parts) := by
  have hclose : untilClosed ⟨1, none⟩ [')'] = some [] := by decide
  rw [tableBody_append_cons hfront, join_spaced, untilClosed_join (closed_spaced h), hclose,
    Option.map_some, List.append_nil]

end SchemaDelta.Sql
