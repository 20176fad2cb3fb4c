import SchemaDelta.Proofs.Sql.Silent
import SchemaDelta.Proofs.Text.Tidy

/-!
# Phrases that headers are read from

Headers are read keyword by keyword, while a search for a phrase takes one text with single
spaces in it. In a single-spaced text the two agree as far as no keyword has a letter that
characters outside ASCII fold onto: where a header is read, its phrase is found
(`phrase_of_createdTable` and the like).
-/

namespace SchemaDelta.Sql

open Reader Text

/-- A part is found up to case where a piece of the text has the same capitals. -/
theorem containsCaseless_iff {whole part : Text} :
    containsCaseless whole part ↔ ∃ piece, piece <:+: whole ∧ upper piece = upper part := by
  rw [containsCaseless, occursIn_iff]
  simp only [upper, List.infix_map_iff, eq_comm]

/-- What is found up to case is found with all its parts. -/
theorem containsCaseless_of_isInfix {whole part : Text} (h : containsCaseless whole part)
    {inner : Text} (hinner : inner <:+: part) : containsCaseless whole inner := by
  rw [containsCaseless, occursIn_iff] at h ⊢
  exact (hinner.map Char.toUpper).trans h

/-- What a part of a text holds up to case, the text holds too. -/
theorem containsCaseless_of_part {part whole words : Text} (h : containsCaseless part words)
    (hpart : part <:+: whole) : containsCaseless whole words := by
  obtain ⟨piece, hpiece, hwords⟩ := containsCaseless_iff.1 h
  exact containsCaseless_iff.2 ⟨piece, hpiece.trans hpart, hwords⟩

/-- The text opens with the words, in some case, and the rest stands behind them. -/
def Opens (words t rest : Text) : Prop := ∃ spelling, t = spelling ++ rest ∧ upper spelling = words

variable {words more t mid rest : Text}

theorem Opens.append (h : Opens words t mid) (hmore : Opens more mid rest) :
    Opens (words ++ more) t rest := by
  obtain ⟨spelling, rfl, rfl⟩ := h
  obtain ⟨others, rfl, rfl⟩ := hmore
  exact ⟨spelling ++ others, by rw [List.append_assoc], List.map_append⟩

/-- Words that a part of a text opens with are found in the text. -/
theorem Opens.contains (h : Opens words t rest) {whole : Text} (ht : t <:+ whole)
    (hwords : upper words = words) : containsCaseless whole words := by
  obtain ⟨spelling, rfl, hspelling⟩ := h
  refine containsCaseless_iff.2 ⟨spelling, ?_, hspelling.trans hwords.symm⟩
  exact (List.prefix_append spelling rest).isInfix.trans ht.isInfix

/-- Without the letters K and S a keyword is spelled with its own letters only. -/
theorem upper_of_spelling {k spelling : Text} (hletters : 'K' ∉ k ∧ 'S' ∉ k)
    (h : spelling.map keywordFold = k) : upper spelling = k := by
  subst h
  refine List.map_congr_left fun c hc => ?_
  have hfold : keywordFold c ∈ spelling.map keywordFold := List.mem_map_of_mem hc
  have hkelvin : c ≠ '\u212A' := by
    intro heq
    rw [heq] at hfold
    exact hletters.1 hfold
  have hlong : c ≠ '\u017F' := by
    intro heq
    rw [heq] at hfold
    exact hletters.2 hfold
  rw [keywordFold, if_neg hkelvin, if_neg hlong]

/-- A keyword without the letters K and S is read from its own letters only. -/
theorem opens_of_run_keyword {k : Text} (hletters : 'K' ∉ k ∧ 'S' ∉ k)
    (h : (keyword k).run t = some ((), rest)) : Opens k t rest := by
  obtain ⟨spelling, rfl, hspelling⟩ := run_keyword_inv h
  exact ⟨spelling, rfl, upper_of_spelling hletters hspelling⟩

/-- A text that does not hold such a keyword in any case is silent about it. -/
theorem silent_of_not_contains {k : Text} (hletters : 'K' ∉ k ∧ 'S' ∉ k) (hwords : upper k = k)
    (h : ¬containsCaseless t k) : Silent k t := by
  refine silent_iff.2 fun spelling hspelling blank _ hspoken => h ?_
  refine containsCaseless_iff.2 ⟨spelling, ?_, ?_⟩
  · exact (List.prefix_append spelling [blank]).isInfix.trans hspoken
  · rw [upper_of_spelling hletters hspelling, hwords]

/-- In a single-spaced text a gap is one space. -/
theorem opens_of_run_gap (hspaced : SingleSpaced t) (h : gap.run t = some ((), rest)) :
    Opens [' '] t rest := by
  obtain ⟨between, rfl, hne, hblanks⟩ := run_gap_inv h
  rw [hspaced.eq_space_of_blanks hne hblanks]
  exact ⟨[' '], rfl, rfl⟩

/-- Two keywords with a gap between them are a phrase with one space. -/
theorem opens_of_run_phrase {k l : Text} (hspaced : SingleSpaced t)
    (hk : 'K' ∉ k ∧ 'S' ∉ k) (hl : 'K' ∉ l ∧ 'S' ∉ l)
    (h : (do keyword k; gap; keyword l : Reader Unit).run t = some ((), rest)) :
    Opens (k ++ ' ' :: l) t rest := by
  obtain ⟨_, behindFirst, hfirst, h⟩ := run_bind_eq_some_iff.1 h
  obtain ⟨_, second, hgap, hsecond⟩ := run_bind_eq_some_iff.1 h
  have hspaced' : SingleSpaced behindFirst :=
    hspaced.of_part (shortens_keyword k hfirst).isInfix
  have hwords := (opens_of_run_gap hspaced' hgap).append (opens_of_run_keyword hl hsecond)
  exact (opens_of_run_keyword hk hfirst).append hwords

/-! ## Phrases of headers -/

variable {statement : Text}

/-- A phrase that is read somewhere in a single-spaced statement is found in it. -/
theorem contains_of_run_phrase {k l place : Text} (hspaced : SingleSpaced statement)
    (hplace : place <:+ statement) (hk : 'K' ∉ k ∧ 'S' ∉ k) (hl : 'K' ∉ l ∧ 'S' ∉ l)
    (hwords : upper (k ++ ' ' :: l) = k ++ ' ' :: l)
    (h : (do keyword k; gap; keyword l : Reader Unit).run place = some ((), rest)) :
    containsCaseless statement (k ++ ' ' :: l) :=
  (opens_of_run_phrase (hspaced.of_part hplace.isInfix) hk hl h).contains hplace hwords

/-- A statement that creates a table speaks of creating a table, which may be temporary. -/
theorem phrase_of_createdTable {name : Text} (hspaced : SingleSpaced statement)
    (h : first createdTable statement = some name) :
    containsCaseless statement "CREATE TABLE" ∨
      containsCaseless statement "CREATE TEMPORARY TABLE" := by
  obtain ⟨place, rest, hplace, hrun⟩ := run_of_first h
  obtain ⟨_, behindCreate, hcreate, hrun⟩ := run_bind_eq_some_iff.1 hrun
  obtain ⟨_, behindGap, hgap, hrun⟩ := run_bind_eq_some_iff.1 hrun
  obtain ⟨_, table, hmaybe, hrun⟩ := run_bind_eq_some_iff.1 hrun
  obtain ⟨_, behindTable, htable, hrun⟩ := run_bind_eq_some_iff.1 hrun
  have hspaced' : SingleSpaced place := hspaced.of_part hplace.isInfix
  have hbehind : behindCreate <:+ place := shortens_keyword _ hcreate
  have hopens := (opens_of_run_keyword (by decide) hcreate).append
    (opens_of_run_gap (hspaced'.of_part hbehind.isInfix) hgap)
  rcases run_maybe_inv hmaybe with ⟨_, htemporary⟩ | rfl
  · obtain ⟨_, behindTemporary, hword, hgap'⟩ := run_bind_eq_some_iff.1 htemporary
    have hbehind' : behindTemporary <:+ place :=
      (shortens_keyword _ hword).trans ((shortens_gap hgap).trans hbehind)
    have hphrase := hopens.append ((opens_of_run_keyword (by decide) hword).append
      ((opens_of_run_gap (hspaced'.of_part hbehind'.isInfix) hgap').append
        (opens_of_run_keyword (by decide) htable)))
    exact .inr (hphrase.contains hplace (by decide))
  · have hphrase := hopens.append (opens_of_run_keyword (by decide) htable)
    exact .inl (hphrase.contains hplace (by decide))

/-- A statement that alters a table says so. -/
theorem phrase_of_alteredTable {name : Text} (hspaced : SingleSpaced statement)
    (h : first alteredTable statement = some name) :
    containsCaseless statement "ALTER TABLE" := by
  obtain ⟨place, rest, hplace, hrun⟩ := run_of_first h
  obtain ⟨_, behindAlter, halter, hrun⟩ := run_bind_eq_some_iff.1 hrun
  obtain ⟨_, table, hgap, hrun⟩ := run_bind_eq_some_iff.1 hrun
  obtain ⟨_, behindTable, htable, -⟩ := run_bind_eq_some_iff.1 hrun
  have hphrase : (do keyword "ALTER"; gap; keyword "TABLE" : Reader Unit).run place =
      some ((), behindTable) :=
    run_bind_eq_some_iff.2 ⟨(), _, halter, run_bind_eq_some_iff.2 ⟨(), _, hgap, htable⟩⟩
  exact contains_of_run_phrase hspaced hplace (by decide) (by decide) (by decide) hphrase

/-- A statement that opens as a drop says what it drops. -/
theorem phrase_of_dropOpening (hspaced : SingleSpaced statement)
    (h : dropOpening.run statement = some ((), rest)) :
    containsCaseless statement "DROP TABLE" ∨ containsCaseless statement "DROP VIEW" := by
  obtain ⟨_, place, hblanks, hrun⟩ := run_bind_eq_some_iff.1 h
  obtain ⟨_, behindDrop, hdrop, hrun⟩ := run_bind_eq_some_iff.1 hrun
  obtain ⟨_, object, hgap, hrun⟩ := run_bind_eq_some_iff.1 hrun
  obtain ⟨_, behindObject, hobject, -⟩ := run_bind_eq_some_iff.1 hrun
  have hplace : place <:+ statement := shortens_blanks hblanks
  have hphrase : ∀ k : Text, (keyword k).run object = some ((), behindObject) →
      (do keyword "DROP"; gap; keyword k : Reader Unit).run place =
        some ((), behindObject) := fun k hk =>
    run_bind_eq_some_iff.2 ⟨(), _, hdrop, run_bind_eq_some_iff.2 ⟨(), _, hgap, hk⟩⟩
  rcases run_orElse_inv hobject with htable | hview
  · exact .inl (contains_of_run_phrase hspaced hplace (by decide) (by decide) (by decide)
      (hphrase _ htable))
  · exact .inr (contains_of_run_phrase hspaced hplace (by decide) (by decide) (by decide)
      (hphrase _ hview))

/-- A statement that creates a view speaks of creating and of a view. -/
theorem phrase_of_createdView {name : Text} (h : first createdView statement = some name) :
    containsCaseless statement "CREATE" ∧ containsCaseless statement "VIEW" := by
  obtain ⟨place, rest, hplace, hrun⟩ := run_of_first h
  obtain ⟨_, _, hcreate, hrun⟩ := run_bind_eq_some_iff.1 hrun
  obtain ⟨_, _, hgap, hrun⟩ := run_bind_eq_some_iff.1 hrun
  obtain ⟨_, _, hreplace, hrun⟩ := run_bind_eq_some_iff.1 hrun
  obtain ⟨_, _, halgorithm, hrun⟩ := run_bind_eq_some_iff.1 hrun
  obtain ⟨_, _, hdefiner, hrun⟩ := run_bind_eq_some_iff.1 hrun
  obtain ⟨_, view, hsecurity, hrun⟩ := run_bind_eq_some_iff.1 hrun
  obtain ⟨_, _, hview, -⟩ := run_bind_eq_some_iff.1 hrun
  have hequals : Shortens equalsSign :=
    shortens_blanks.bind fun _ => (shortens_char _).bind fun _ => shortens_blanks
  have hsetting : ∀ (k : Text) (p : Char → Bool),
      Shortens (do keyword k; equalsSign; let _ ← many1 p; gap : Reader Unit) := fun _ _ =>
    (shortens_keyword _).bind fun _ => hequals.bind fun _ =>
      (shortens_many1 _).bind fun _ => shortens_gap
  -- All that may stand between the two words is taken off the front.
  have hbehind : view <:+ place := by
    refine .trans ?_ ((shortens_gap hgap).trans (shortens_keyword _ hcreate))
    refine .trans ?_ (Shortens.maybe ?_ hreplace)
    refine .trans ?_ (Shortens.maybe ?_ halgorithm)
    refine .trans ?_ (Shortens.maybe ?_ hdefiner)
    refine Shortens.maybe ?_ hsecurity
    · exact shortens_keyword_gap (shortens_keyword_gap
        ((shortens_many1 _).bind fun _ => shortens_gap))
    · exact hsetting _ _
    · exact hsetting _ _
    · exact shortens_keyword_gap ((shortens_keyword _).bind fun _ => shortens_gap)
  exact ⟨(opens_of_run_keyword (by decide) hcreate).contains hplace (by decide),
    (opens_of_run_keyword (by decide) hview).contains (hbehind.trans hplace) (by decide)⟩

end SchemaDelta.Sql
