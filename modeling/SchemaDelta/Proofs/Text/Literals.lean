import Mathlib.Algebra.Ring.Parity
import Mathlib.Data.List.Forall2
import SchemaDelta.Proofs.Text.Tidy

/-!
# Literals

The literals of a text are what stands between its first and its second quote, between its third
and its fourth, and so on. Two equations give them all: what holds no quote in front of a text has
none (`literals_append_of_not_mem`), and what stands between two quotes at its start is the first
(`literals_quoted`). Taking characters out of a text and leaving its quotes can only make literals
shorter (`forall₂_literals`), and it does if one of them stood behind an open quote
(`literals_append_ne`).
-/

namespace SchemaDelta.Text

/-- Of the pieces between quotes every second one, as long as there is another one behind it. -/
def quotedPieces : List Text → List Text
  | _ :: quoted :: next :: rest => quoted :: quotedPieces (next :: rest)
  | _ => []

/-- The single-quoted literals of a text, without their quotes. An open one at the end is none. -/
def literals (t : Text) : List Text := quotedPieces (pieces (· == '\'') t)

/-! ## Every second piece -/

/-- The piece in front of the first quote does not matter. -/
theorem quotedPieces_cons_congr (a b : Text) (rest : List Text) :
    quotedPieces (a :: rest) = quotedPieces (b :: rest) := by
  match rest with
  | [] | [_] | _ :: _ :: _ => rfl

/-- Nor does the piece behind the last one. -/
theorem quotedPieces_concat_congr (front : List Text) (a b : Text) :
    quotedPieces (front ++ [a]) = quotedPieces (front ++ [b]) := by
  match front with
  | [] | [_] | [_, _] => rfl
  | _ :: quoted :: next :: rest =>
      exact congrArg (quoted :: ·) (quotedPieces_concat_congr (next :: rest) a b)

theorem quotedPieces_map (f : Text → Text) (parts : List Text) :
    quotedPieces (parts.map f) = (quotedPieces parts).map f := by
  match parts with
  | [] | [_] | [_, _] => rfl
  | _ :: quoted :: next :: rest =>
      exact congrArg (f quoted :: ·) (quotedPieces_map f (next :: rest))

/-- There are half as many of them as there are quotes. -/
theorem length_quotedPieces (parts : List Text) :
    (quotedPieces parts).length = (parts.length - 1) / 2 := by
  match parts with
  | [] | [_] | [_, _] => simp [quotedPieces]
  | _ :: quoted :: next :: rest =>
      have hrest := length_quotedPieces (next :: rest)
      simp only [quotedPieces, List.length_cons] at hrest ⊢
      omega

/-- What holds between the pieces of two texts holds between every second one of them. -/
theorem forall₂_quotedPieces {R : Text → Text → Prop} {a b : List Text} (h : List.Forall₂ R a b) :
    List.Forall₂ R (quotedPieces a) (quotedPieces b) := by
  match h with
  | .nil => exact .nil
  | .cons _ .nil => exact .nil
  | .cons _ (.cons _ .nil) => exact .nil
  | .cons _ (.cons hquoted (.cons hnext hrest)) =>
      exact .cons hquoted (forall₂_quotedPieces (.cons hnext hrest))

/-! ## The literals of a text -/

/-- There is one piece more than there are separators. -/
theorem length_pieces (c : Char) (t : Text) : (pieces (· == c) t).length = t.count c + 1 := by
  induction t with
  | nil => rfl
  | cons d r ih =>
      by_cases hd : d = c
      · rw [hd, pieces_cons_self, List.length_cons, ih, List.count_cons_self]
      · obtain ⟨first, others, hr, hcons⟩ := pieces_cons_of_ne hd r
        rw [hr, List.length_cons] at ih
        rw [hcons, List.length_cons, ih, List.count_cons_of_ne hd]

theorem length_literals (t : Text) : (literals t).length = t.count '\'' / 2 := by
  rw [literals, length_quotedPieces, length_pieces, Nat.add_sub_cancel]

/-- What is in front of the first quote has no literals. -/
theorem literals_append_of_not_mem {plain : Text} (h : '\'' ∉ plain) (t : Text) :
    literals (plain ++ t) = literals t := by
  induction plain with
  | nil => rfl
  | cons c r ih =>
      rw [List.mem_cons, not_or] at h
      obtain ⟨first, others, hr, hcons⟩ := pieces_cons_of_ne (Ne.symm h.1) (r ++ t)
      rw [← ih h.2, List.cons_append, literals, literals, hcons, hr]
      exact quotedPieces_cons_congr (c :: first) first others

/-- What is between two quotes at the start of a text is its first literal. -/
theorem literals_quoted {quoted : Text} (h : '\'' ∉ quoted) (t : Text) :
    literals ('\'' :: (quoted ++ '\'' :: t)) = quoted :: literals t := by
  have hplain : pieces (· == '\'') quoted = [quoted] :=
    pieces_eq_singleton fun c hc => by
      rw [beq_iff_eq]
      exact fun heq => h (heq ▸ hc)
  rw [literals, pieces_cons_of_pos (by decide), pieces_append_cons quoted (by decide), hplain,
    literals]
  cases hpieces : pieces (· == '\'') t with
  | nil => exact absurd hpieces (pieces_ne_nil _ t)
  | cons next rest => rfl

/-- A text without quotes has no literals. -/
theorem literals_eq_nil {plain : Text} (h : '\'' ∉ plain) : literals plain = [] := by
  have heq := literals_append_of_not_mem h []
  rwa [List.append_nil] at heq

/-- A character that is in a text an odd number of times is in it. -/
theorem mem_of_odd_count {c : Char} {t : Text} (h : Odd (t.count c)) : c ∈ t := by
  refine List.count_pos_iff.1 (Nat.pos_of_ne_zero fun hzero => ?_)
  rw [hzero] at h
  exact absurd h (by decide)

/-- A text with a quote in it has a first quote. -/
theorem exists_first_quote {t : Text} (h : '\'' ∈ t) :
    ∃ plain rest, t = plain ++ '\'' :: rest ∧ '\'' ∉ plain ∧
      t.count '\'' = rest.count '\'' + 1 := by
  obtain ⟨plain, rest, rfl, hplain⟩ := List.eq_append_cons_of_mem h
  refine ⟨plain, rest, rfl, hplain, ?_⟩
  rw [List.count_append, List.count_cons_self, List.count_eq_zero.2 hplain, Nat.zero_add]

/-- Behind a text without an open quote another text has its own literals. -/
theorem literals_append {a : Text} (h : Even (a.count '\'')) (b : Text) :
    literals (a ++ b) = literals a ++ literals b := by
  by_cases hquote : '\'' ∈ a
  · obtain ⟨plain, rest, rfl, hplain, hcount⟩ := exists_first_quote hquote
    have hodd : Odd (rest.count '\'') := by
      rw [hcount, Nat.even_add_one] at h
      exact Nat.not_even_iff_odd.1 h
    obtain ⟨quoted, behind, rfl, hquoted, hcount'⟩ := exists_first_quote (mem_of_odd_count hodd)
    have hbehind : Even (behind.count '\'') := by
      rw [hcount', Nat.odd_add_one] at hodd
      exact Nat.not_odd_iff_even.1 hodd
    rw [List.append_assoc, List.cons_append, List.append_assoc, List.cons_append,
      literals_append_of_not_mem hplain, literals_append_of_not_mem hplain,
      literals_quoted hquoted, literals_quoted hquoted, literals_append hbehind, List.cons_append]
  · rw [literals_append_of_not_mem hquote, literals_eq_nil hquote, List.nil_append]
termination_by a.length

/-- Blanks at the ends of a text belong to no literal. -/
theorem literals_trim (t : Text) : literals (trim t) = literals t := by
  obtain ⟨front, back, heq, hfront, hback⟩ := exists_append_trim_append t
  have hplain {blanks : Text} (h : ∀ c ∈ blanks, isBlank c) : '\'' ∉ blanks := fun hmem =>
    absurd (h _ hmem) (by decide)
  have hmore : ∀ c ∈ back, ¬(c == '\'') := fun c hc => by
    rw [beq_iff_eq]
    exact fun heq => hplain hback (heq ▸ hc)
  obtain ⟨before, last, hpieces, hlonger⟩ := pieces_append_plain hmore (front ++ trim t)
  rw [← literals_append_of_not_mem (hplain hfront) (trim t)]
  conv_rhs => rw [← heq, literals, hlonger]
  rw [literals, hpieces]
  exact quotedPieces_concat_congr before last (last ++ back)

/-! ## Squeezing -/

/-- The pieces of a squeezed text are squeezed, the first one with what stands in front of it. -/
theorem pieces_squeeze (afterBlank : Bool) (t : Text) :
    ∃ first others, pieces (· == '\'') t = first :: others ∧
      pieces (· == '\'') (squeeze afterBlank t) =
        squeeze afterBlank first :: others.map (squeeze false) := by
  induction t generalizing afterBlank with
  | nil => exact ⟨[], [], rfl, rfl⟩
  | cons c r ih =>
      by_cases hc : c = '\''
      · subst hc
        obtain ⟨first, others, hr, hsqueeze⟩ := ih false
        refine ⟨[], pieces (· == '\'') r, pieces_cons_self '\'' r, ?_⟩
        show pieces (· == '\'') ('\'' :: squeeze false r) = [] :: _
        rw [pieces_cons_self, hsqueeze, hr, List.map_cons]
      · by_cases hblank : isBlank c
        · obtain ⟨first, others, hr, hsqueeze⟩ := ih true
          refine ⟨c :: first, others, by simp [pieces, hc, hr], ?_⟩
          rw [squeeze, squeeze, if_pos hblank, if_pos hblank]
          split
          · exact hsqueeze
          · simp [pieces, hsqueeze]
        · obtain ⟨first, others, hr, hsqueeze⟩ := ih false
          refine ⟨c :: first, others, by simp [pieces, hc, hr], ?_⟩
          rw [squeeze, squeeze, if_neg hblank, if_neg hblank]
          simp [pieces, hc, hsqueeze]

/-- Squeezing a text squeezes its literals. -/
theorem literals_squeeze (t : Text) :
    literals (squeeze false t) = (literals t).map (squeeze false) := by
  obtain ⟨first, others, ht, hsqueeze⟩ := pieces_squeeze false t
  rw [literals, hsqueeze, literals, ht, ← quotedPieces_map, List.map_cons]

/-! ## Taking characters out -/

/-- If a text comes out of another one by taking out characters other than the separator, so do its
pieces. -/
theorem forall₂_pieces {c : Char} {a b : Text} (h : a.Sublist b) (hcount : a.count c = b.count c) :
    List.Forall₂ List.Sublist (pieces (· == c) a) (pieces (· == c) b) := by
  induction h with
  | slnil => exact .cons .slnil .nil
  | @cons a b d h ih =>
      have hle := h.count_le c
      have hd : d ≠ c := by
        rintro rfl
        rw [List.count_cons_self] at hcount
        omega
      rw [List.count_cons_of_ne hd] at hcount
      obtain ⟨first, others, hb, hcons⟩ := pieces_cons_of_ne hd b
      obtain ⟨first', others', hfirst, hothers, ha⟩ :=
        List.forall₂_cons_right_iff.1 (hb ▸ ih hcount)
      rw [ha, hcons]
      exact .cons (hfirst.cons d) hothers
  | @cons_cons a b d h ih =>
      rw [List.count_cons, List.count_cons, Nat.add_right_cancel_iff] at hcount
      have hpieces := ih hcount
      by_cases hd : d = c
      · rw [hd, pieces_cons_self, pieces_cons_self]
        exact .cons .slnil hpieces
      · obtain ⟨first, others, ha, hacons⟩ := pieces_cons_of_ne hd a
        obtain ⟨first', others', hb, hbcons⟩ := pieces_cons_of_ne hd b
        rw [ha, hb] at hpieces
        rw [hacons, hbcons]
        cases hpieces with
        | cons hfirst hothers => exact .cons (hfirst.cons_cons d) hothers

/-- If a text comes out of another one by taking out characters other than quotes, so do its
literals. -/
theorem forall₂_literals {a b : Text} (h : a.Sublist b) (hcount : a.count '\'' = b.count '\'') :
    List.Forall₂ List.Sublist (literals a) (literals b) :=
  forall₂_quotedPieces (forall₂_pieces h hcount)

/-- If only whole literals could be missing and none is, no quote was taken out. -/
theorem count_eq_of_length_literals {a b : Text} (h : a.Sublist b) (hb : Even (b.count '\''))
    (hlength : (literals a).length = (literals b).length) : a.count '\'' = b.count '\'' := by
  have hle := h.count_le '\''
  obtain ⟨n, hn⟩ := hb
  rw [length_literals, length_literals] at hlength
  omega

/-- Lists of texts each of which comes out of the other one's are the same. -/
theorem eq_of_forall₂_sublist {a b : List Text} (h : List.Forall₂ List.Sublist a b)
    (h' : List.Forall₂ List.Sublist b a) : a = b := by
  induction h with
  | nil => rfl
  | cons hfirst _ ih =>
      cases h' with
      | cons hfirst' hrest => rw [hfirst.antisymm hfirst', ih hrest]

/-- What is taken out behind an open quote is missing in a literal. -/
theorem literals_append_ne {front taken behind : Text} (hfront : Odd (front.count '\''))
    (htaken : '\'' ∉ taken) (hne : taken ≠ []) (hbehind : '\'' ∈ behind) :
    literals (front ++ behind) ≠ literals (front ++ taken ++ behind) := by
  obtain ⟨plain, rest, rfl, hplain, hcount⟩ := exists_first_quote (mem_of_odd_count hfront)
  rw [List.append_assoc, List.append_assoc, List.append_assoc, List.cons_append, List.cons_append,
    literals_append_of_not_mem hplain, literals_append_of_not_mem hplain]
  by_cases hclosed : '\'' ∈ rest
  · obtain ⟨quoted, front, rfl, hquoted, hcount'⟩ := exists_first_quote hclosed
    have hodd : Odd (front.count '\'') := by
      rw [hcount, hcount'] at hfront
      simpa [Nat.odd_add_one] using hfront
    have hrest := literals_append_ne hodd htaken hne hbehind
    rw [List.append_assoc, List.append_assoc, List.cons_append, List.cons_append,
      literals_quoted hquoted, literals_quoted hquoted, ← List.append_assoc front]
    exact fun heq => hrest (List.cons.inj heq).2
  · -- The quote is still open where the text is taken out.
    obtain ⟨start, behind, rfl, hstart, -⟩ := exists_first_quote hbehind
    have hquoted : '\'' ∉ rest ++ start := by simp [hclosed, hstart]
    have hquoted' : '\'' ∉ rest ++ (taken ++ start) := by simp [hclosed, hstart, htaken]
    rw [← List.append_assoc rest, ← List.append_assoc taken, ← List.append_assoc rest,
      literals_quoted hquoted, literals_quoted hquoted']
    intro heq
    have hlength := congrArg List.length (List.cons.inj heq).1
    simp only [List.length_append] at hlength
    exact hne (List.length_eq_zero_iff.1 (by omega))
termination_by front.length

end SchemaDelta.Text
