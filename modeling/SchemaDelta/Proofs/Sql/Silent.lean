import SchemaDelta.Proofs.Sql.Name
import SchemaDelta.Proofs.Text.Pieces

/-!
# Keywords that a text does not speak

A header or a clause is looked for by its first keyword, which a blank has to follow. A text in
which no spelling of the keyword stands in front of a blank is silent about it (`Silent`), and
nothing that begins with the keyword is found there (`Silent.first_eq_none`). Quoted names and
the marks that stand between them keep a text silent.
-/

namespace SchemaDelta.Sql

open Reader Text

/-- What a keyword takes off a text is a spelling of it. -/
theorem run_keyword_inv {k t rest : Text} (h : (keyword k).run t = some ((), rest)) :
    ∃ spelling : Text, t = spelling ++ rest ∧ spelling.map keywordFold = k := by
  induction k generalizing t with
  | nil =>
      obtain rfl : t = rest := by simpa [keyword] using h
      exact ⟨[], rfl, rfl⟩
  | cons c k ih =>
      obtain ⟨d, mid, hfirst, hrest⟩ := run_bind_eq_some_iff.1 h
      obtain ⟨spelling, rfl, rfl⟩ := ih hrest
      cases t with
      | nil => simp [satisfy, StateT.run] at hfirst
      | cons e r =>
          by_cases he : keywordFold e = c
          · obtain ⟨-, rfl⟩ : e = d ∧ r = spelling ++ rest := by
              simpa [satisfy, StateT.run, he] using hfirst
            exact ⟨e :: spelling, rfl, by rw [List.map_cons, he]⟩
          · simp [satisfy, StateT.run, he] at hfirst

/-- What is taken as a gap are blanks, at least one. -/
theorem run_gap_inv {t rest : Text} (h : gap.run t = some ((), rest)) :
    ∃ between : Text, t = between ++ rest ∧ between ≠ [] ∧ ∀ c ∈ between, isBlank c := by
  obtain ⟨between, left, hblanks, hpure⟩ := run_bind_eq_some_iff.1 h
  obtain rfl : rest = left := by simpa using hpure.symm
  exact ⟨between, (eq_append_of_run_many1 hblanks).1, gives_many1 _ hblanks⟩

/-- Where a keyword and a gap are read stand a spelling of the keyword and a blank. -/
theorem spelled_of_run {k place behind rest : Text}
    (hword : (keyword k).run place = some ((), behind)) (hgap : gap.run behind = some ((), rest)) :
    ∃ spelling blank, spelling.map keywordFold = k ∧ isBlank blank ∧
      spelling ++ [blank] <+: place := by
  obtain ⟨spelling, rfl, hspelling⟩ := run_keyword_inv hword
  obtain ⟨between, rfl, hne, hblanks⟩ := run_gap_inv hgap
  obtain ⟨blank, others, rfl⟩ := List.exists_cons_of_ne_nil hne
  exact ⟨spelling, blank, hspelling, hblanks blank List.mem_cons_self, others ++ rest, by simp⟩

/-- Nowhere in the text is the keyword read in front of a blank. -/
def Silent (k t : Text) : Prop := first (do keyword k; gap : Reader Unit) t = none

instance (k t : Text) : Decidable (Silent k t) := inferInstanceAs (Decidable (_ = _))

variable {k t : Text}

/-- A text is silent about a keyword exactly when no part of it is a spelling of the keyword with
a blank behind it. -/
theorem silent_iff : Silent k t ↔ ∀ spelling : Text, spelling.map keywordFold = k →
    ∀ blank, isBlank blank → ¬spelling ++ [blank] <:+: t := by
  rw [Silent, first_eq_none_iff]
  constructor
  · rintro h spelling hspelling blank hblank ⟨front, back, rfl⟩
    have hplace : spelling ++ blank :: back <:+ front ++ (spelling ++ [blank]) ++ back :=
      ⟨front, by simp⟩
    have hgap : gap.run (blank :: back) = some ((), back.dropWhile isBlank) :=
      run_bind_eq_some_iff.2 ⟨_, _, run_many1_of_pos hblank back, rfl⟩
    have hrun : (do keyword k; gap : Reader Unit).run (spelling ++ blank :: back) =
        some ((), back.dropWhile isBlank) :=
      run_bind_eq_some_iff.2 ⟨(), _, run_keyword_append hspelling _, hgap⟩
    rw [h _ hplace] at hrun
    simp at hrun
  · intro h place hplace
    rw [Option.eq_none_iff_forall_ne_some]
    rintro ⟨_, rest⟩ hrun
    obtain ⟨_, behind, hword, hgap⟩ := run_bind_eq_some_iff.1 hrun
    obtain ⟨spelling, blank, hspelling, hblank, hspoken⟩ := spelled_of_run hword hgap
    exact h spelling hspelling blank hblank (hspoken.isInfix.trans hplace.isInfix)

/-- Behind the keyword and a gap nothing is read anywhere in a silent text. -/
theorem Silent.run_eq_none (h : Silent k t) {α : Type} {r : Reader α} {place : Text}
    (hplace : place <:+ t) : (do keyword k; gap; r).run place = none := by
  rw [Option.eq_none_iff_forall_ne_some]
  rintro ⟨found, rest⟩ hrun
  obtain ⟨_, behind, hword, hrun⟩ := run_bind_eq_some_iff.1 hrun
  obtain ⟨_, left, hgap, -⟩ := run_bind_eq_some_iff.1 hrun
  have hspoken : (do keyword k; gap : Reader Unit).run place = some ((), left) :=
    run_bind_eq_some_iff.2 ⟨_, _, hword, hgap⟩
  rw [first_eq_none_iff.1 h place hplace] at hspoken
  simp at hspoken

theorem Silent.first_eq_none (h : Silent k t) {α : Type} {r : Reader α} :
    first (do keyword k; gap; r) t = none :=
  first_eq_none_iff.2 fun _ hplace => h.run_eq_none hplace

/-- A text without blanks is silent. -/
theorem silent_of_not_isBlank (h : ∀ c ∈ t, ¬isBlank c) : Silent k t :=
  silent_iff.2 fun _ _ blank hblank hspoken => h blank (hspoken.subset (by simp)) hblank

/-- A keyword as it is written here: at least one capital letter. -/
structure IsKeyword (k : Text) : Prop where
  ne_nil : k ≠ []
  isUpper : ∀ c ∈ k, c.isUpper

instance (k : Text) : Decidable (IsKeyword k) :=
  decidable_of_iff (k ≠ [] ∧ k.all Char.isUpper)
    ⟨fun h => ⟨h.1, List.all_eq_true.1 h.2⟩, fun h => ⟨h.ne_nil, List.all_eq_true.2 h.isUpper⟩⟩

/-- A character that folds onto no capital letter belongs to no keyword. -/
theorem IsKeyword.not_mem (hk : IsKeyword k) {c : Char} (hc : (keywordFold c).isUpper = false) :
    keywordFold c ∉ k := by
  intro hmem
  rw [hk.isUpper _ hmem] at hc
  simp at hc

/-- Such a character that is no blank either is not in a keyword with a blank behind it. -/
theorem IsKeyword.not_mem_spelled (hk : IsKeyword k) {c : Char}
    (hc : (keywordFold c).isUpper = false) (hblank : ¬isBlank c) {spelling : Text}
    (hspelling : spelling.map keywordFold = k) {blank : Char} (hblank' : isBlank blank) :
    c ∉ spelling ++ [blank] := by
  intro hmem
  rcases List.mem_append.1 hmem with hmem | hmem
  · exact hk.not_mem hc (hspelling ▸ List.mem_map_of_mem hmem)
  · obtain rfl := List.mem_singleton.1 hmem
    exact hblank hblank'

/-- Silent texts are silent with such a character between them. -/
theorem Silent.append_cons {a b : Text} (ha : Silent k a) (hb : Silent k b) (hk : IsKeyword k)
    {c : Char} (hc : (keywordFold c).isUpper = false) (hblank : ¬isBlank c) :
    Silent k (a ++ c :: b) := by
  refine silent_iff.2 fun spelling hspelling blank hblank' hspoken => ?_
  have hnot := hk.not_mem_spelled hc hblank hspelling hblank'
  rcases isInfix_of_append_cons hspoken hnot with hspoken | hspoken
  · exact silent_iff.1 ha spelling hspelling blank hblank' hspoken
  · exact silent_iff.1 hb spelling hspelling blank hblank' hspoken

/-- The keyword is not read where a character stands that belongs to none. -/
theorem IsKeyword.run_cons (hk : IsKeyword k) {c : Char} (hc : (keywordFold c).isUpper = false)
    (t : Text) {α : Type} (r : Reader α) : (do keyword k; r).run (c :: t) = none := by
  rw [Option.eq_none_iff_forall_ne_some]
  rintro ⟨_, rest⟩ hrun
  obtain ⟨_, behind, hword, -⟩ := run_bind_eq_some_iff.1 hrun
  obtain ⟨spelling, heq, hspelling⟩ := run_keyword_inv hword
  cases spelling with
  | nil => exact hk.ne_nil hspelling.symm
  | cons d others =>
      obtain ⟨rfl, -⟩ := List.cons.inj heq
      exact hk.not_mem hc (hspelling ▸ List.mem_cons_self)

/-- A character in front that belongs to no keyword keeps a text silent. -/
theorem Silent.cons (h : Silent k t) (hk : IsKeyword k) {c : Char}
    (hc : (keywordFold c).isUpper = false) : Silent k (c :: t) := by
  refine first_eq_none_iff.2 fun place hplace => ?_
  rcases List.suffix_cons_iff.1 hplace with rfl | hplace
  · exact hk.run_cons hc t gap
  · exact first_eq_none_iff.1 h place hplace

/-- A quoted name behind a text keeps it silent. -/
theorem Silent.append_quoteName (h : Silent k t) (hk : IsKeyword k) {name : Text}
    (hname : IsName name) : Silent k (t ++ quoteName name) := by
  have hquoted : Silent k (name ++ [nameMark]) :=
    silent_of_not_isBlank fun c hc =>
      hname.not_isBlank_quoteName (List.mem_cons_of_mem nameMark hc)
  exact h.append_cons hquoted hk (by decide) (by decide)

end SchemaDelta.Sql
