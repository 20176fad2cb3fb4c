import SchemaDelta.Proofs.Text.Tidy
import SchemaDelta.Sql.Body

/-!
# Cutting at the commas that a scan sees

A scan of a text knows some quotation marks and the depth of parentheses, and a text is cut at the
commas at which the scan is where it started (`IsCut`). Two equations say how such a cut is made:
a text without a comma of that sort is its only piece (`cutPieces_eq_singleton`), and the first
such comma ends the first piece (`cutPieces_append_cons`). From them it follows that there is one
cut of every text (`isCut_iff`), and that a list of pieces is the cut of its join exactly if no
piece is cut in itself and each but the last leads the scan back (`cutPieces_join`,
`parted_cutPieces`). The clauses of a body are such pieces without the blanks around them
(`clauses_cut`).
-/

namespace SchemaDelta.Sql

open Text

/-- Where a scan that knows these quotation marks is behind a text. -/
def Scan.after (marks : Text) (scan : Scan) (t : Text) : Scan := t.foldl (Scan.step marks) scan

/-- The comma behind `front` stands between two of the pieces. -/
def Separates (pieces : List Text) (front : Text) : Prop :=
  ∃ before behind, before ≠ [] ∧ behind ≠ [] ∧ pieces = before ++ behind ∧
    front = join "," before

/-- The pieces with commas between them are the text, and these commas are just those at which a
scan that starts at `level` is at `level` again. -/
structure IsCut (marks : Text) (level : Scan) (t : Text) (pieces : List Text) : Prop where
  ne_nil : pieces ≠ []
  join_eq : join "," pieces = t
  separates_iff : ∀ front back, t = front ++ ',' :: back →
    (Separates pieces front ↔ level.after marks front = level)

/-- No comma stands in the text at which the scan is at `level`. -/
def Uncut (marks : Text) (level scan : Scan) (t : Text) : Prop :=
  ∀ front back, t = front ++ ',' :: back → scan.after marks front ≠ level

/-- The pieces of a text between the commas at which the scan is at `level`. -/
def cutPieces (marks : Text) (level scan : Scan) : Text → List Text
  | [] => [[]]
  | c :: rest =>
    if c = ',' ∧ scan = level then [] :: cutPieces marks level scan rest
    else (cutPieces marks level (scan.step marks c) rest).modifyHead (c :: ·)

/-- No piece is cut in itself, and each but the last leads the scan back to `level`. -/
structure Parted (marks : Text) (level : Scan) (pieces : List Text) : Prop where
  uncut : ∀ piece ∈ pieces, Uncut marks level level piece
  after_eq : ∀ piece ∈ pieces.dropLast, level.after marks piece = level

variable {marks t a b front : Text} {level scan : Scan} {pieces : List Text}

namespace Scan

theorem after_cons (marks : Text) (scan : Scan) (c : Char) (t : Text) :
    scan.after marks (c :: t) = (scan.step marks c).after marks t := rfl

theorem after_append (marks : Text) (scan : Scan) (a b : Text) :
    scan.after marks (a ++ b) = (scan.after marks a).after marks b :=
  List.foldl_append

/-- The scan with more parentheses open around the text. -/
def deepen (around : Int) (scan : Scan) : Scan := { scan with depth := around + scan.depth }

/-- What is open around the text does not matter for a step. -/
theorem step_deepen (marks : Text) (around : Int) (scan : Scan) (c : Char) :
    (scan.deepen around).step marks c = (scan.step marks c).deepen around := by
  obtain ⟨depth, quote⟩ := scan
  cases quote with
  | some q =>
      simp only [deepen, step]
      split <;> rfl
  | none =>
      simp only [deepen, step]
      split
      · rfl
      split
      · rw [Int.add_assoc]
      split
      · rw [Int.add_sub_assoc]
      · rfl

theorem after_deepen (marks : Text) (around : Int) (scan : Scan) (t : Text) :
    (scan.deepen around).after marks t = (scan.after marks t).deepen around := by
  induction t generalizing scan with
  | nil => rfl
  | cons c rest ih => rw [after_cons, after_cons, step_deepen, ih]

/-- Behind an open quotation mark nothing is seen until the mark comes again. -/
theorem after_quoted {q : Char} {t : Text} (marks : Text) (depth : Int) (h : q ∉ t) :
    (⟨depth, some q⟩ : Scan).after marks t = ⟨depth, some q⟩ := by
  induction t with
  | nil => rfl
  | cons c rest ih =>
      rw [List.mem_cons, not_or] at h
      have hstep : (⟨depth, some q⟩ : Scan).step marks c = ⟨depth, some q⟩ :=
        if_neg (Ne.symm h.1)
      rw [after_cons, hstep, ih h.2]

end Scan

/-! ## The two equations of a cut -/

/-- A text has no comma to cut at if its first character is none and the others have none. -/
theorem uncut_cons_iff {c : Char} : Uncut marks level scan (c :: t) ↔
    ¬(c = ',' ∧ scan = level) ∧ Uncut marks level (scan.step marks c) t := by
  constructor
  · intro h
    refine ⟨?_, fun front back heq => h (c :: front) back (by rw [heq, List.cons_append])⟩
    rintro ⟨rfl, hlevel⟩
    exact h [] t rfl hlevel
  · rintro ⟨hc, h⟩ front back heq
    cases front with
    | nil =>
        obtain ⟨hcomma, -⟩ := List.cons.inj heq
        exact fun hlevel => hc ⟨hcomma, hlevel⟩
    | cons d front =>
        obtain ⟨rfl, hrest⟩ := List.cons.inj heq
        exact h front back hrest

theorem uncut_nil : Uncut marks level scan [] := by
  intro front back heq
  simp at heq

/-- A text without a comma is uncut. -/
theorem uncut_of_not_mem (h : ',' ∉ t) : Uncut marks level scan t := by
  intro front back heq
  exact absurd (heq ▸ List.mem_append_right front List.mem_cons_self) h

/-- An uncut text is a part of the first piece of what it stands in front of. -/
theorem cutPieces_append (h : Uncut marks level scan a) (b : Text) :
    cutPieces marks level scan (a ++ b) =
      (cutPieces marks level (scan.after marks a) b).modifyHead (a ++ ·) := by
  induction a generalizing scan with
  | nil => exact (congrFun List.modifyHead_id _).symm
  | cons c rest ih =>
      obtain ⟨hc, hrest⟩ := uncut_cons_iff.1 h
      rw [List.cons_append, cutPieces, if_neg hc, ih hrest, List.modifyHead_modifyHead]
      rfl

/-- It is its only piece if nothing stands behind it. -/
theorem cutPieces_eq_singleton (h : Uncut marks level scan t) :
    cutPieces marks level scan t = [t] := by
  have hpieces := cutPieces_append h []
  rw [List.append_nil, cutPieces, List.modifyHead_cons, List.append_nil] at hpieces
  exact hpieces

/-- The first comma to cut at ends the first piece. -/
theorem cutPieces_append_cons (h : Uncut marks level scan a) (hlevel : scan.after marks a = level)
    (b : Text) : cutPieces marks level scan (a ++ ',' :: b) = a :: cutPieces marks level level b := by
  rw [cutPieces_append h, hlevel, cutPieces, if_pos ⟨rfl, rfl⟩, List.modifyHead_cons,
    List.append_nil]

/-- A text has no comma to cut at, or it has a first one. -/
theorem uncut_or_first (marks : Text) (level scan : Scan) (t : Text) :
    Uncut marks level scan t ∨ ∃ a b, t = a ++ ',' :: b ∧ Uncut marks level scan a ∧
      scan.after marks a = level := by
  induction t generalizing scan with
  | nil => exact .inl uncut_nil
  | cons c rest ih =>
      by_cases hc : c = ',' ∧ scan = level
      · obtain ⟨rfl, rfl⟩ := hc
        exact .inr ⟨[], rest, rfl, uncut_nil, rfl⟩
      · rcases ih (scan.step marks c) with hrest | ⟨a, b, rfl, ha, hlevel⟩
        · exact .inl (uncut_cons_iff.2 ⟨hc, hrest⟩)
        · exact .inr ⟨c :: a, b, rfl, uncut_cons_iff.2 ⟨hc, ha⟩, hlevel⟩

/-- What holds of a text without a comma to cut at, and of a first piece in front of a text of
which it holds, holds of all texts. -/
theorem cut_induction (marks : Text) (level : Scan) {motive : Text → Prop}
    (uncut : ∀ t, Uncut marks level level t → motive t)
    (first : ∀ a b, Uncut marks level level a → level.after marks a = level → motive b →
      motive (a ++ ',' :: b)) (t : Text) : motive t := by
  rcases uncut_or_first marks level level t with h | ⟨a, b, ht, ha, hlevel⟩
  · exact uncut t h
  · have hlt : b.length < t.length := by
      rw [ht, List.length_append, List.length_cons]
      omega
    rw [ht]
    exact first a b ha hlevel (cut_induction marks level uncut first b)
termination_by t.length

/-- There is at least one piece. -/
theorem cutPieces_ne_nil (marks : Text) (level : Scan) (t : Text) :
    cutPieces marks level level t ≠ [] := by
  induction t using cut_induction marks level with
  | uncut t h =>
      rw [cutPieces_eq_singleton h]
      exact List.cons_ne_nil t []
  | first a b ha hlevel _ =>
      rw [cutPieces_append_cons ha hlevel]
      exact List.cons_ne_nil _ _

/-! ## Where the pieces meet -/

/-- Of several pieces the first is separated from the others by the comma behind it. -/
theorem separates_first (first : Text) {others : List Text} (h : others ≠ []) :
    Separates (first :: others) first :=
  ⟨[first], others, List.cons_ne_nil first [], h, rfl, (join_singleton "," first).symm⟩

/-- No comma in front of its end separates it from others. -/
theorem not_separates_of_append {first front back : Text} (h : first = front ++ ',' :: back)
    (others : List Text) : ¬Separates (first :: others) front := by
  rintro ⟨before, behind, hbefore, -, heq, hfront⟩
  obtain ⟨piece, before, rfl⟩ := List.exists_cons_of_ne_nil hbefore
  obtain ⟨rfl, -⟩ := List.cons.inj heq
  have hlength : first.length ≤ front.length := by
    rw [hfront]
    exact (isInfix_join List.mem_cons_self).length_le
  rw [h, List.length_append, List.length_cons] at hlength
  omega

/-- Behind it the other pieces are separated. -/
theorem separates_cons_iff (first : Text) {others : List Text} :
    Separates (first :: others) (first ++ ',' :: front) ↔ Separates others front := by
  constructor
  · rintro ⟨before, behind, hbefore, hbehind, heq, hfront⟩
    obtain ⟨piece, before, rfl⟩ := List.exists_cons_of_ne_nil hbefore
    obtain ⟨rfl, rfl⟩ := List.cons.inj heq
    by_cases hnil : before = []
    · subst hnil
      have hlength := congrArg List.length hfront
      simp at hlength
    · have hjoin : join "," (first :: before) = first ++ ',' :: join "," before :=
        join_char_cons ',' first hnil
      rw [hjoin] at hfront
      exact ⟨before, behind, hnil, hbehind, rfl, by simpa using hfront⟩
  · rintro ⟨before, behind, hbefore, hbehind, rfl, rfl⟩
    refine ⟨first :: before, behind, List.cons_ne_nil _ _, hbehind, rfl, ?_⟩
    exact (join_char_cons ',' first hbefore).symm

/-- One piece is separated nowhere. -/
theorem not_separates_singleton (piece front : Text) : ¬Separates [piece] front := by
  rintro ⟨before, behind, hbefore, hbehind, heq, -⟩
  have hlength := congrArg List.length heq
  have hb := List.length_pos_of_ne_nil hbefore
  have hb' := List.length_pos_of_ne_nil hbehind
  rw [List.length_singleton, List.length_append] at hlength
  omega

/-! ## There is one cut -/

/-- A text without a comma to cut at is cut into itself. -/
theorem IsCut.singleton (h : Uncut marks level level t) : IsCut marks level t [t] where
  ne_nil := List.cons_ne_nil t []
  join_eq := join_singleton "," t
  separates_iff front back heq :=
    iff_of_false (not_separates_singleton t front) (h front back heq)

/-- A first piece may be put in front of a cut. -/
theorem IsCut.cons (hcomma : level.step marks ',' = level) (ha : Uncut marks level level a)
    (hlevel : level.after marks a = level) (hb : IsCut marks level b pieces) :
    IsCut marks level (a ++ ',' :: b) (a :: pieces) where
  ne_nil := List.cons_ne_nil a pieces
  join_eq := by
    rw [← hb.join_eq]
    exact join_char_cons ',' a hb.ne_nil
  separates_iff front back heq := by
    -- The comma stands in the first piece, ends it, or stands behind it.
    rcases List.append_eq_append_iff.1 heq with ⟨more, rfl, hmore⟩ | ⟨more, ha', hmore⟩
    · rcases List.cons_eq_append_iff.1 hmore with ⟨rfl, -⟩ | ⟨more, rfl, hb'⟩
      · rw [List.append_nil]
        exact iff_of_true (separates_first a hb.ne_nil) hlevel
      · rw [separates_cons_iff, hb.separates_iff more back hb', Scan.after_append, hlevel,
          Scan.after_cons, hcomma]
    · rcases List.cons_eq_append_iff.1 hmore with ⟨rfl, -⟩ | ⟨more, rfl, -⟩
      · rw [List.append_nil] at ha'
        subst ha'
        exact iff_of_true (separates_first a hb.ne_nil) hlevel
      · exact iff_of_false (not_separates_of_append ha' pieces) (ha front more ha')

/-- The pieces of a text are a cut of it. -/
theorem isCut_cutPieces (hcomma : level.step marks ',' = level) (t : Text) :
    IsCut marks level t (cutPieces marks level level t) := by
  induction t using cut_induction marks level with
  | uncut t h =>
      rw [cutPieces_eq_singleton h]
      exact .singleton h
  | first a b ha hlevel hb =>
      rw [cutPieces_append_cons ha hlevel]
      exact .cons hcomma ha hlevel hb

/-- Of a cut into several pieces the others are a cut of what is behind the first comma. -/
theorem IsCut.uncons (hcomma : level.step marks ',' = level) {first : Text} {others : List Text}
    (hothers : others ≠ []) (h : IsCut marks level t (first :: others)) :
    t = first ++ ',' :: join "," others ∧ Uncut marks level level first ∧
      level.after marks first = level ∧ IsCut marks level (join "," others) others := by
  have ht : t = first ++ ',' :: join "," others :=
    h.join_eq.symm.trans (join_char_cons ',' first hothers)
  have hlevel : level.after marks first = level :=
    (h.separates_iff first _ ht).1 (separates_first first hothers)
  refine ⟨ht, fun front back heq => ?_, hlevel, hothers, rfl, fun front back heq => ?_⟩
  · have ht' : t = front ++ ',' :: (back ++ ',' :: join "," others) := by
      rw [ht, heq, List.append_assoc, List.cons_append]
    exact fun hfront => not_separates_of_append heq others ((h.separates_iff _ _ ht').2 hfront)
  · have ht' : t = (first ++ ',' :: front) ++ ',' :: back := by
      rw [ht, heq, List.append_assoc, List.cons_append]
    rw [← separates_cons_iff first, h.separates_iff _ _ ht', Scan.after_append, hlevel,
      Scan.after_cons, hcomma]

/-- A text has one cut, and its pieces are it. -/
theorem isCut_iff (hcomma : level.step marks ',' = level) :
    IsCut marks level t pieces ↔ cutPieces marks level level t = pieces := by
  constructor
  · intro h
    induction pieces generalizing t with
    | nil => exact absurd rfl h.ne_nil
    | cons first others ih =>
        by_cases hothers : others = []
        · subst hothers
          obtain rfl : first = t := (join_singleton "," first).symm.trans h.join_eq
          refine cutPieces_eq_singleton fun front back heq hfront => ?_
          exact not_separates_singleton first front ((h.separates_iff front back heq).2 hfront)
        · obtain ⟨rfl, hfirst, hlevel, hrest⟩ := h.uncons hcomma hothers
          rw [cutPieces_append_cons hfirst hlevel, ih hrest]
  · rintro rfl
    exact isCut_cutPieces hcomma t

/-! ## Pieces that are put together -/

/-- Pieces that are not cut in themselves and lead the scan back are the pieces of their join. -/
theorem cutPieces_join (hne : pieces ≠ []) (h : Parted marks level pieces) :
    cutPieces marks level level (join "," pieces) = pieces := by
  induction pieces with
  | nil => exact absurd rfl hne
  | cons first others ih =>
      by_cases hothers : others = []
      · subst hothers
        have hjoin : join "," [first] = first := join_singleton "," first
        rw [hjoin]
        exact cutPieces_eq_singleton (h.uncut first List.mem_cons_self)
      · obtain ⟨huncut, hafter⟩ := h
        rw [List.dropLast_cons_of_ne_nil hothers] at hafter
        have hjoin : join "," (first :: others) = first ++ ',' :: join "," others :=
          join_char_cons ',' first hothers
        rw [hjoin, cutPieces_append_cons (huncut first List.mem_cons_self)
          (hafter first List.mem_cons_self), ih hothers]
        exact ⟨fun piece hpiece => huncut piece (List.mem_cons_of_mem first hpiece),
          fun piece hpiece => hafter piece (List.mem_cons_of_mem first hpiece)⟩

/-- Pieces each of which is so are such pieces. -/
theorem parted_of_forall (h : ∀ piece ∈ pieces, level.after marks piece = level ∧
    Uncut marks level level piece) : Parted marks level pieces where
  uncut piece hpiece := (h piece hpiece).2
  after_eq piece hpiece := (h piece (pieces.dropLast_subset hpiece)).1

/-- The pieces of a text are such pieces. -/
theorem parted_cutPieces (marks : Text) (level : Scan) (t : Text) :
    Parted marks level (cutPieces marks level level t) := by
  induction t using cut_induction marks level with
  | uncut t h =>
      rw [cutPieces_eq_singleton h]
      exact ⟨by simpa using h, by simp⟩
  | first a b ha hlevel hb =>
      rw [cutPieces_append_cons ha hlevel]
      refine ⟨List.forall_mem_cons.2 ⟨ha, hb.uncut⟩, ?_⟩
      rw [List.dropLast_cons_of_ne_nil (cutPieces_ne_nil marks level b)]
      exact List.forall_mem_cons.2 ⟨hlevel, hb.after_eq⟩

instance (marks : Text) (level : Scan) (t : Text) : Decidable (Uncut marks level level t) :=
  decidable_of_iff (cutPieces marks level level t = [t])
    ⟨fun h => (parted_cutPieces marks level t).uncut t (h ▸ List.mem_singleton_self t),
      cutPieces_eq_singleton⟩

/-- More parentheses around the text do not matter for where it is cut. -/
theorem cutPieces_deepen (marks : Text) (around : Int) (level scan : Scan) (t : Text) :
    cutPieces marks (level.deepen around) (scan.deepen around) t =
      cutPieces marks level scan t := by
  induction t generalizing scan with
  | nil => rfl
  | cons c rest ih =>
      have hlevel : scan.deepen around = level.deepen around ↔ scan = level := by
        obtain ⟨depth, quote⟩ := scan
        obtain ⟨depth', quote'⟩ := level
        simp [Scan.deepen]
      rw [cutPieces, cutPieces, Scan.step_deepen, ih, ih]
      simp only [hlevel]

/-! ## Clauses -/

/-- The text may stand as a clause: there is something in it and no blank at its ends, and a scan
from depth zero ends at depth zero outside quotation marks and sees no comma there. -/
structure Standalone (t : Text) : Prop where
  ne_nil : t ≠ []
  trim_eq : trim t = t
  after_eq : Scan.start.after clauseMarks t = Scan.start
  uncut : Uncut clauseMarks Scan.start Scan.start t

instance (t : Text) : Decidable (Standalone t) :=
  decidable_of_iff (t ≠ [] ∧ trim t = t ∧ Scan.start.after clauseMarks t = Scan.start ∧
      Uncut clauseMarks Scan.start Scan.start t)
    ⟨fun ⟨hne, htrim, hafter, huncut⟩ => ⟨hne, htrim, hafter, huncut⟩,
      fun h => ⟨h.ne_nil, h.trim_eq, h.after_eq, h.uncut⟩⟩

/-- The pieces of a body are those between the commas that the scan for the clauses sees. -/
theorem clausePieces_eq_cutPieces (scan : Scan) (t : Text) :
    clausePieces scan t = cutPieces clauseMarks Scan.start scan t := by
  induction t generalizing scan with
  | nil => rfl
  | cons c rest ih =>
      rw [clausePieces, cutPieces, ← ih, ← ih]
      split
      · rfl
      · cases hpieces : clausePieces (scan.step clauseMarks c) rest with
        | nil => exact absurd hpieces (clausePieces_ne_nil _ _)
        | cons first others => rfl

theorem isCut_clausePieces (body : Text) :
    IsCut clauseMarks Scan.start body (clausePieces Scan.start body) := by
  rw [clausePieces_eq_cutPieces]
  exact isCut_cutPieces rfl body

variable {parts : List Text}

/-- Pieces that are put together give what is left of them when they are trimmed, if something is
left of each. -/
theorem Parted.clauses_join (h : Parted clauseMarks Scan.start pieces) (hne : pieces ≠ [])
    (htrim : pieces.map trim = parts) (hparts : ∀ part ∈ parts, part ≠ []) :
    clauses (join "," pieces) = parts := by
  rw [clauses, clausePieces_eq_cutPieces, cutPieces_join hne h, htrim, List.filter_eq_self]
  intro part hpart
  simpa using hparts part hpart

/-- A space in front of a text is not seen by the scan. -/
theorem Standalone.space (h : Standalone t) :
    Scan.start.after clauseMarks (' ' :: t) = Scan.start ∧
      Uncut clauseMarks Scan.start Scan.start (' ' :: t) :=
  ⟨h.after_eq, uncut_cons_iff.2 ⟨by simp, h.uncut⟩⟩

/-- Standalone texts with commas between them are the clauses of what they make up, also with a
space behind each comma. -/
theorem clauses_join_standalone (h : ∀ part ∈ parts, Standalone part) :
    clauses (join "," parts) = parts ∧ clauses (join ", " parts) = parts := by
  by_cases hnil : parts = []
  · subst hnil
    exact ⟨rfl, rfl⟩
  have hne : ∀ part ∈ parts, part ≠ [] := fun part hpart => (h part hpart).ne_nil
  have htrim : parts.map trim = parts :=
    (List.map_congr_left fun part hpart => (h part hpart).trim_eq).trans (List.map_id parts)
  have hplain : ∀ part ∈ parts, Scan.start.after clauseMarks part = Scan.start ∧
      Uncut clauseMarks Scan.start Scan.start part :=
    fun part hpart => ⟨(h part hpart).after_eq, (h part hpart).uncut⟩
  have hspaced := forall_mem_spaced hplain fun part hpart => (h part hpart).space
  constructor
  · exact (parted_of_forall hplain).clauses_join hnil htrim hne
  · rw [join_spaced]
    exact (parted_of_forall hspaced).clauses_join (spaced_ne_nil hnil)
      ((map_trim_spaced parts).trans htrim) hne

/-- Cutting into clauses undoes joining, and it loses nothing but commas, blanks around clauses and
empty clauses: standalone texts are the clauses of their join, and the clauses of a body are what
is left of the pieces between its commas at depth zero outside quotation marks, trimmed. -/
theorem clauses_cut :
    (∀ parts, (∀ part ∈ parts, Standalone part) →
      clauses (join "," parts) = parts ∧ clauses (join ", " parts) = parts) ∧
    ∀ body, ∃ pieces, IsCut clauseMarks Scan.start body pieces ∧
      clauses body = (pieces.map trim).filter (· ≠ []) :=
  ⟨fun _ => clauses_join_standalone, fun body => ⟨_, isCut_clausePieces body, rfl⟩⟩

/-- Clauses with parentheses, quotation marks and commas in them. -/
def nestedClauses : List Text :=
  ["a enum('x,(','y''z') NOT NULL", "b decimal(9,2) COMMENT \x22it's, (so\x22", "KEY k (a, b)"]

/-- They are the clauses of their list. -/
theorem clauses_nestedClauses : (∀ part ∈ nestedClauses, Standalone part) ∧
    clauses (join ", " nestedClauses) = nestedClauses := by
  have h : ∀ part ∈ nestedClauses, Standalone part := by decide +kernel
  exact ⟨h, (clauses_cut.1 nestedClauses h).2⟩

end SchemaDelta.Sql
