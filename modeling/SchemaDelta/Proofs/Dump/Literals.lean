import SchemaDelta.Proofs.Dump.Comments
import SchemaDelta.Proofs.Script.Replay
import SchemaDelta.Proofs.Text.Literals

/-!
# Literals in a dump

Cleaning knows nothing of literals. What looks like a comment in one is taken out, and what blanks
it has are made single spaces. `literals_clean_iff` says when the literals of a dump survive: if no
two hyphens stand in them, no opening mark of a block comment that is closed further on, and no
blanks but single spaces. Then they also reach the script. `literals_clean_ne_of_dashes` is a dump
with two hyphens in a literal, of which half of the definition is lost.
-/

namespace SchemaDelta.Dump

open Text

/-- The quotes of the text are all closed, and the marks that open comments stand in literals
only: in front of each there is an open quote. -/
structure MarksQuoted (t : Text) : Prop where
  closed : Even (t.count '\'')
  quoted : ∀ n < t.length, "--".toList <+: t.drop n ∨ "/*".toList <+: t.drop n →
    Odd ((t.take n).count '\'')

instance (t : Text) : Decidable (MarksQuoted t) :=
  decidable_of_iff (Even (t.count '\'') ∧ ∀ n < t.length,
      "--".toList <+: t.drop n ∨ "/*".toList <+: t.drop n → Odd ((t.take n).count '\''))
    ⟨fun h => ⟨h.1, h.2⟩, fun h => ⟨h.closed, h.quoted⟩⟩

/-- No block comment opens in the text that is closed further on. -/
def Unblocked (t : Text) : Prop :=
  ∀ front behind, t = front ++ '/' :: '*' :: behind → ¬['*', '/'] <:+: behind

/-- Nothing is taken out of exactly the texts without two hyphens side by side. -/
theorem dropLineComments_eq_self_iff {t : Text} : dropLineComments false t = t ↔ Undashed t := by
  refine ⟨fun hself => apart_of_not_occursIn fun hoccurs => ?_, dropLineComments_of_undashed⟩
  obtain ⟨front, behind, rfl⟩ := occursIn_iff.1 hoccurs
  obtain ⟨body, rest, rfl, hbody, hend⟩ := exists_line_end behind
  have hsplit : front ++ ['-', '-'] ++ (body ++ rest) = front ++ ('-' :: '-' :: body) ++ rest := by
    simp
  exact (removed_lineComment none _).not_match hself hsplit (by simp) ⟨body, rfl, hbody, hend⟩

/-- Nothing is taken out of exactly the texts in which no block comment opens. -/
theorem dropBlockComments_eq_self_iff {t : Text} :
    dropBlockComments .outside t = t ↔ Unblocked t := by
  constructor
  · rintro hself front behind rfl hclose
    obtain ⟨body, rest, rfl, hbody⟩ := exists_first_pair hclose
    have hsplit : front ++ '/' :: '*' :: (body ++ '*' :: '/' :: rest) =
        front ++ ('/' :: '*' :: body ++ ['*', '/']) ++ rest := by simp
    exact (removed_blockComment none _).not_match hself hsplit (by simp) ⟨body, rfl, hbody⟩
  · intro h
    refine (removed_blockComment none t).eq_or_first_match.resolve_right ?_
    rintro ⟨front, matched, behind, rest, rfl, -, -, -, body, rfl, -⟩
    exact h front (body ++ ['*', '/'] ++ behind) (by simp) ⟨body, behind, rfl⟩

/-- In front of a mark there is an open quote. -/
theorem MarksQuoted.odd_count {t front matched behind : Text} (h : MarksQuoted t)
    (ht : t = front ++ matched ++ behind)
    (hmark : "--".toList <+: matched ∨ "/*".toList <+: matched) : Odd (front.count '\'') := by
  have hdrop : t.drop front.length = matched ++ behind := by
    rw [ht, List.append_assoc, List.drop_left]
  have htake : t.take front.length = front := by rw [ht, List.append_assoc, List.take_left]
  have hpos : 0 < matched.length := by
    rcases hmark with hmark | hmark <;> exact Nat.lt_of_lt_of_le (by decide) hmark.length_le
  have hlt : front.length < t.length := by
    rw [ht, List.length_append, List.length_append]
    omega
  have hodd := h.quoted front.length hlt
  rw [hdrop, htake] at hodd
  exact hodd (hmark.imp (·.trans (List.prefix_append _ _)) (·.trans (List.prefix_append _ _)))

/-- The literals of a clean text are those that are left without comments, squeezed. -/
theorem literals_clean (t : Text) : literals (clean t) =
    (literals (dropBlockComments .outside (dropLineComments false t))).map (squeeze false) := by
  rw [clean_eq_normalizeBlanks, ← trim_squeeze, literals_trim, literals_squeeze]

/-- If texts are others with something taken out and those squeezed, nothing was taken out and
they are single-spaced. -/
theorem eq_of_map_squeeze_eq {a b : List Text} (h : List.Forall₂ List.Sublist a b)
    (heq : a.map (squeeze false) = b) : a = b ∧ ∀ t ∈ b, SingleSpaced t := by
  subst heq
  have hall : ∀ t ∈ a, squeeze false t = t := by
    intro t ht
    have hsub : t.Sublist (squeeze false t) :=
      List.forall₂_same.1 (List.forall₂_map_right_iff.1 h) t ht
    exact (hsub.eq_of_length_le (length_squeeze_le false t)).symm
  have hself : a.map (squeeze false) = a := by rw [List.map_congr_left hall, List.map_id']
  rw [hself]
  exact ⟨rfl, fun t ht => hall t ht ▸ (singleSpaced_squeeze t false).1⟩

/-- If the matches of a pattern stand behind open quotes only, and taking them out leaves all
quotes and literals, also if more is taken out afterwards, then there are none. -/
theorem eq_of_literals_eq {pattern : Pattern} {t u v : Text} (h : Removed pattern none t u)
    (hodd : ∀ front matched behind, t = front ++ matched ++ behind →
      pattern front.getLast? matched behind → Odd (front.count '\''))
    (heven : Even (t.count '\'')) (hv : v.Sublist u) (hcount : v.count '\'' = t.count '\'')
    (hliterals : literals v = literals t) : u = t := by
  refine h.eq_or_first_match.resolve_right ?_
  rintro ⟨front, matched, behind, rest, rfl, rfl, hrest, hne, hmatch⟩
  rw [Option.or_none] at hmatch
  have hfront : Odd (front.count '\'') := hodd front matched behind rfl hmatch
  -- The text without its first match lies between the two texts with the same literals.
  have hinner : v.Sublist (front ++ behind) := hv.trans (hrest.append_left front)
  have houter : (front ++ behind).Sublist (front ++ matched ++ behind) := by
    rw [List.append_assoc]
    exact (List.sublist_append_right matched behind).append_left front
  have hle := hinner.count_le '\''
  have hge := houter.count_le '\''
  have hmatched : '\'' ∉ matched := by
    rw [← List.count_eq_zero]
    simp only [List.count_append] at hcount hle hge
    omega
  have hbehind : '\'' ∈ behind := by
    refine mem_of_odd_count (Nat.not_even_iff_odd.1 fun hbehind => ?_)
    rw [List.count_append, List.count_append, List.count_eq_zero.2 hmatched, Nat.add_zero] at heven
    exact Nat.not_even_iff_odd.2 (hfront.add_even hbehind) heven
  refine literals_append_ne hfront hmatched hne hbehind (eq_of_forall₂_sublist ?_ ?_)
  · exact forall₂_literals houter (by omega)
  · rw [← hliterals]
    exact forall₂_literals hinner (by omega)

/-- A dump with marks of comments in literals only has no comments if its literals are left. -/
theorem MarksQuoted.uncommented {t : Text} (h : MarksQuoted t)
    (hcount : (dropBlockComments .outside (dropLineComments false t)).count '\'' = t.count '\'')
    (hliterals : literals (dropBlockComments .outside (dropLineComments false t)) = literals t) :
    Undashed t ∧ Unblocked t := by
  have hline := removed_lineComment none t
  have hblock := removed_blockComment none (dropLineComments false t)
  have hu : dropLineComments false t = t := by
    refine eq_of_literals_eq hline (fun front matched behind ht hmatch => ?_) h.closed
      hblock.sublist hcount hliterals
    obtain ⟨body, rfl, -⟩ := hmatch
    exact h.odd_count ht (.inl ⟨body, rfl⟩)
  rw [hu] at hblock hcount hliterals
  have hv : dropBlockComments .outside t = t := by
    refine eq_of_literals_eq hblock (fun front matched behind ht hmatch => ?_) h.closed
      (List.Sublist.refl _) hcount hliterals
    obtain ⟨body, rfl, -⟩ := hmatch
    exact h.odd_count ht (.inr ⟨body ++ ['*', '/'], rfl⟩)
  exact ⟨dropLineComments_eq_self_iff.1 hu, dropBlockComments_eq_self_iff.1 hv⟩

/-- The definition of a table that is new stands on a line of the script, as it is. -/
theorem definition_mem_plainLines {current target key sql : Text} {table : Table}
    (hadded : (key, table) ∈
      OrderedMap.added (schemaOfText current).tables (schemaOfText target).tables)
    (hsql : table.definition = some sql) :
    (sql ++ ";" : Text) ∈ plainLines (Script.ofTexts current target) := by
  have hcreation : Line.statement sql ∈ (Script.creation table).map .statement := by
    rw [Script.creation, hsql]
    exact List.mem_singleton_self _
  have hline : Line.statement sql ∈ Script.intended (Delta.ofTexts current target) := by
    rw [Script.intended, Delta.current_ofTexts, Delta.target_ofTexts, List.mem_append,
      List.mem_append]
    exact .inl (.inl (List.mem_flatMap.2 ⟨_, hadded, hcreation⟩))
  show (Line.statement sql).text ∈ _
  exact (Script.intended_sublist current target).subset (List.mem_map_of_mem hline)

/-- What is cut out of a text between closed quotes keeps its literals, also with the semicolon
that ends a line. -/
theorem literals_cut {front sql back : Text} (hfront : Even (front.count '\''))
    (hsql : Even (sql.count '\'')) : literals (front ++ sql ++ back) =
      literals front ++ literals (sql ++ ";" : Text) ++ literals back := by
  have hplain : '\'' ∉ ";".toList := by decide
  rw [List.append_assoc, literals_append hfront, literals_append hsql, literals_append hsql,
    literals_eq_nil hplain, List.append_nil, List.append_assoc]

/-- The literals of a dump in which the marks of comments stand in literals only are those of the
clean text exactly if they hold no two hyphens side by side, no opening mark of a block comment that
is closed further on, and no blanks but single spaces. In such a dump the literals of a definition
that is cut out of the clean text between closed quotes are literals of the dump, and if its table
is new they stand in the script. -/
theorem literals_clean_iff {t : Text} (h : MarksQuoted t) :
    (literals (clean t) = literals t ↔
      Undashed t ∧ Unblocked t ∧ ∀ literal ∈ literals t, SingleSpaced literal) ∧
    (literals (clean t) = literals t → ∀ current key table sql,
      (key, table) ∈ OrderedMap.added (schemaOfText current).tables (schemaOfText t).tables →
      table.definition = some sql →
      (sql ++ ";" : Text) ∈ plainLines (Script.ofTexts current t) ∧
      ∀ front back, clean t = front ++ sql ++ back → Even (front.count '\'') →
        Even (sql.count '\'') →
        literals t = literals front ++ literals (sql ++ ";" : Text) ++ literals back) := by
  refine ⟨⟨fun heq => ?_, fun ⟨hdash, hblock, hsingle⟩ => ?_⟩, ?_⟩
  · rw [literals_clean] at heq
    have hsub : (dropBlockComments .outside (dropLineComments false t)).Sublist t :=
      (removed_blockComment none _).sublist.trans (removed_lineComment none t).sublist
    have hlength := congrArg List.length heq
    rw [List.length_map] at hlength
    have hcount := count_eq_of_length_literals hsub h.closed hlength
    obtain ⟨hliterals, hsingle⟩ := eq_of_map_squeeze_eq (forall₂_literals hsub hcount) heq
    obtain ⟨hdash, hblock⟩ := h.uncommented hcount hliterals
    exact ⟨hdash, hblock, hsingle⟩
  · rw [literals_clean, dropLineComments_eq_self_iff.2 hdash,
      dropBlockComments_eq_self_iff.2 hblock]
    have hall : ∀ literal ∈ literals t, squeeze false literal = literal :=
      fun literal hliteral => (hsingle literal hliteral).squeeze_eq_self (by simp)
    rw [List.map_congr_left hall, List.map_id']
  · intro heq current key table sql hadded hsql
    refine ⟨definition_mem_plainLines hadded hsql, fun front back hcut hfront hquotes => ?_⟩
    rw [← heq, hcut]
    exact literals_cut hfront hquotes

/-- A definition with an opening mark in a literal that no closing mark follows. -/
def openMark : Text := "CREATE TABLE t (a int COMMENT 'x /* y')"

/-- Its literals survive, and the dump is a line of the script that creates its table. -/
theorem literals_clean_openMark : MarksQuoted (openMark ++ ";" : Text) ∧
    literals (clean (openMark ++ ";" : Text)) = ["x /* y".toList] ∧
    (openMark ++ ";" : Text) ∈ plainLines (Script.ofTexts [] (openMark ++ ";" : Text)) ∧
    literals (openMark ++ ";" : Text) =
      literals [] ++ literals (openMark ++ ";" : Text) ++ literals ";" := by
  have h : MarksQuoted (openMark ++ ";" : Text) := by decide +kernel
  have hblock : Unblocked (openMark ++ ";" : Text) :=
    dropBlockComments_eq_self_iff.1 (by decide +kernel)
  have heq : literals (clean (openMark ++ ";" : Text)) = literals (openMark ++ ";" : Text) :=
    (literals_clean_iff h).1.2 ⟨by decide +kernel, hblock, by decide +kernel⟩
  have hnew : (OrderedMap.added (schemaOfText []).tables
      (schemaOfText (openMark ++ ";" : Text)).tables).any
        fun entry => entry.2.definition = some openMark := by decide +kernel
  obtain ⟨⟨key, table⟩, hadded, hsql⟩ := List.any_eq_true.1 hnew
  obtain ⟨hline, hcut⟩ :=
    (literals_clean_iff h).2 heq [] key table openMark hadded (of_decide_eq_true hsql)
  have hclean : clean (openMark ++ ";" : Text) = [] ++ openMark ++ ";".toList := by
    decide +kernel
  refine ⟨h, ?_, hline, hcut [] ";".toList hclean (by decide) (by decide +kernel)⟩
  rw [heq]
  decide +kernel

/-- A dump with two hyphens in a literal. -/
def dashedLiteral : Text := "CREATE TABLE t (a varchar(9) DEFAULT 'x--y', b int);"

/-- Its literal does not survive, nor does what is behind it. -/
theorem literals_clean_ne_of_dashes : MarksQuoted dashedLiteral ∧
    clean dashedLiteral = "CREATE TABLE t (a varchar(9) DEFAULT 'x".toList ∧
    literals (clean dashedLiteral) ≠ literals dashedLiteral := by
  decide +kernel

end SchemaDelta.Dump
