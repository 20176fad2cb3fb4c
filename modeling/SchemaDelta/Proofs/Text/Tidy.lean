import Mathlib.Data.List.TakeWhile
import SchemaDelta.Proofs.Text.Pieces

/-!
# Tidy texts

A text is single-spaced if its blanks are single spaces, and tidy if besides no blank stands at
its ends. Squeezing makes a text single-spaced and trimming makes such a text tidy; every part of
a single-spaced text is single-spaced. `Tidy.normalizeBlanks_eq` says that a tidy text is already
in the form in which texts are compared up to blanks.
-/

namespace SchemaDelta.Text

/-- All blanks of the text are spaces, and no two of them are neighbours. -/
structure SingleSpaced (t : Text) : Prop where
  eq_space : ∀ c ∈ t, isBlank c → c = ' '
  isChain : t.IsChain fun a b => ¬(isBlank a ∧ isBlank b)

/-- The text is single-spaced and has no blank at its ends. -/
structure Tidy (t : Text) : Prop extends SingleSpaced t where
  head : ∀ c ∈ t.head?, ¬isBlank c
  last : ∀ c ∈ t.getLast?, ¬isBlank c

instance (t : Text) : Decidable (SingleSpaced t) :=
  decidable_of_iff (t.all (fun c => isBlank c → c = ' ') ∧
      t.IsChain fun a b => ¬(isBlank a ∧ isBlank b))
    ⟨fun h => ⟨fun c hc => of_decide_eq_true (List.all_eq_true.1 h.1 c hc), h.2⟩,
      fun h => ⟨List.all_eq_true.2 fun c hc => decide_eq_true (h.eq_space c hc), h.isChain⟩⟩

instance (t : Text) : Decidable (Tidy t) :=
  decidable_of_iff
    (SingleSpaced t ∧ t.head?.all (!isBlank ·) ∧ t.getLast?.all (!isBlank ·))
    ⟨fun h => ⟨h.1, by simpa [Option.all_eq_true] using h.2.1,
        by simpa [Option.all_eq_true] using h.2.2⟩,
      fun h => ⟨h.toSingleSpaced, by simpa [Option.all_eq_true] using h.head,
        by simpa [Option.all_eq_true] using h.last⟩⟩

theorem SingleSpaced.nil : SingleSpaced [] := ⟨by simp, .nil⟩

/-- A part of a single-spaced text is single-spaced. -/
theorem SingleSpaced.of_part {t part : Text} (h : SingleSpaced t) (hpart : part <:+: t) :
    SingleSpaced part :=
  ⟨fun c hc => h.eq_space c (hpart.subset hc), List.IsChain.infix h.isChain hpart⟩

/-- Blanks side by side in a single-spaced text are one space. -/
theorem SingleSpaced.eq_space_of_blanks {between rest : Text} (h : SingleSpaced (between ++ rest))
    (hne : between ≠ []) (hblanks : ∀ c ∈ between, isBlank c) : between = [' '] := by
  match between with
  | [] => exact absurd rfl hne
  | [c] => rw [h.eq_space c (by simp) (hblanks c (by simp))]
  | c :: d :: others =>
      have hpair := (List.isChain_cons_cons.1 h.isChain).1
      exact absurd ⟨hblanks c (by simp), hblanks d (by simp)⟩ hpair

/-- A single-spaced text is on one line. -/
theorem SingleSpaced.newline_not_mem {t : Text} (h : SingleSpaced t) : '\n' ∉ t := by
  intro hmem
  exact absurd (h.eq_space '\n' hmem (by decide)) (by decide)

/-- Two single-spaced texts with a character between them that is not blank. -/
theorem SingleSpaced.append_cons {a b : Text} {c : Char} (ha : SingleSpaced a)
    (hb : SingleSpaced b) (hc : ¬isBlank c) : SingleSpaced (a ++ c :: b) := by
  refine ⟨fun d hd hblank => ?_, ha.isChain.append (hb.isChain.cons ?_) ?_⟩
  · rcases List.mem_append.1 hd with hd | hd
    · exact ha.eq_space d hd hblank
    · rcases List.mem_cons.1 hd with rfl | hd
      · exact absurd hblank hc
      · exact hb.eq_space d hd hblank
  · exact fun d _ hboth => hc hboth.1
  · rintro d _ e he ⟨_, hblank⟩
    obtain rfl : c = e := by simpa using he
    exact hc hblank

/-- A space in front of a single-spaced text that starts with no blank. -/
theorem SingleSpaced.cons_space {t : Text} (h : SingleSpaced t)
    (hhead : ∀ c ∈ t.head?, ¬isBlank c) : SingleSpaced (' ' :: t) := by
  refine ⟨fun c hc hblank => ?_, h.isChain.cons fun c hc hboth => hhead c hc hboth.2⟩
  rcases List.mem_cons.1 hc with rfl | hc
  · rfl
  · exact h.eq_space c hc hblank

/-- Squeezing makes a text single-spaced. Behind a blank it starts with none. -/
theorem singleSpaced_squeeze (t : Text) (afterBlank : Bool) :
    SingleSpaced (squeeze afterBlank t) ∧
      (afterBlank → ∀ c ∈ (squeeze afterBlank t).head?, ¬isBlank c) := by
  induction t generalizing afterBlank with
  | nil => exact ⟨.nil, by simp [squeeze]⟩
  | cons c r ih =>
      by_cases hc : isBlank c
      · obtain ⟨hrest, hstart⟩ := ih true
        cases afterBlank with
        | true => simpa [squeeze, hc] using ih true
        | false =>
            refine ⟨?_, by simp⟩
            rw [squeeze, if_pos hc, if_neg (by simp)]
            refine ⟨fun d hd hblank => ?_, hrest.isChain.cons ?_⟩
            · rcases List.mem_cons.1 hd with rfl | hd
              · rfl
              · exact hrest.eq_space d hd hblank
            · exact fun d hd hboth => hstart rfl d hd hboth.2
      · obtain ⟨hrest, -⟩ := ih false
        rw [squeeze, if_neg hc]
        exact ⟨SingleSpaced.nil.append_cons hrest hc, fun _ d hd => by simp_all⟩

/-- A character that is not blank stays between what is squeezed on its two sides. -/
theorem squeeze_append_cons (afterBlank : Bool) (a : Text) {c : Char} (hc : ¬isBlank c)
    (b : Text) :
    squeeze afterBlank (a ++ c :: b) = squeeze afterBlank a ++ c :: squeeze false b := by
  induction a generalizing afterBlank with
  | nil =>
      show squeeze afterBlank (c :: b) = c :: squeeze false b
      rw [squeeze, if_neg hc]
  | cons d r ih =>
      rw [List.cons_append, squeeze, squeeze, ih true, ih false]
      split
      · split <;> rfl
      · rfl

/-- Squeezing makes no text longer. -/
theorem length_squeeze_le (afterBlank : Bool) (t : Text) :
    (squeeze afterBlank t).length ≤ t.length := by
  induction t generalizing afterBlank with
  | nil => exact Nat.le_refl 0
  | cons c r ih =>
      rw [squeeze]
      split
      · split
        · exact Nat.le_succ_of_le (ih true)
        · exact Nat.succ_le_succ (ih true)
      · exact Nat.succ_le_succ (ih false)

/-- A single-spaced text stays as it is, also behind a blank if it starts with none. -/
theorem SingleSpaced.squeeze_eq_self {t : Text} (h : SingleSpaced t) {afterBlank : Bool}
    (hhead : afterBlank → ∀ c ∈ t.head?, ¬isBlank c) : squeeze afterBlank t = t := by
  induction t generalizing afterBlank with
  | nil => rfl
  | cons c r ih =>
      have hrest : SingleSpaced r := h.of_part (List.suffix_cons c r).isInfix
      rw [squeeze]
      by_cases hc : isBlank c
      · have hplain : ¬afterBlank := fun hafter => hhead hafter c rfl hc
        have hnext : ∀ d ∈ r.head?, ¬isBlank d := fun d hd hblank =>
          List.IsChain.rel_head? h.isChain hd ⟨hc, hblank⟩
        rw [if_pos hc, if_neg hplain, ih hrest fun _ => hnext,
          h.eq_space c List.mem_cons_self hc]
      · rw [if_neg hc, ih hrest (by simp)]

/-- What is left between the ends of a text is a part of it. -/
theorem trim_isInfix (t : Text) : trim t <:+: t := by
  have hstart : trimStart t <:+ t := List.dropWhile_suffix isBlank
  have hend : trimEnd (trimStart t) <+: trimStart t := by
    rw [trimEnd, ← List.reverse_suffix, List.reverse_reverse]
    exact List.dropWhile_suffix isBlank
  exact hend.isInfix.trans hstart.isInfix

/-- A text loses its blanks at the start, and so the next character is none. -/
theorem head?_trimStart (t : Text) : ∀ c ∈ (trimStart t).head?, ¬isBlank c := by
  intro c hc
  have := List.head?_dropWhile_not isBlank t
  rw [Option.mem_def, trimStart] at hc
  simpa [hc] using this

/-- A text loses its blanks at the end, and so the last character is none. -/
theorem getLast?_trimEnd (t : Text) : ∀ c ∈ (trimEnd t).getLast?, ¬isBlank c := by
  intro c hc
  rw [trimEnd, List.getLast?_reverse] at hc
  exact head?_trimStart t.reverse c hc

/-- What the start of a text is after its end has been trimmed, it was before. -/
theorem head?_trim (t : Text) : ∀ c ∈ (trim t).head?, ¬isBlank c := by
  intro c hc
  have hprefix : trim t <+: trimStart t := by
    rw [trim, trimEnd, ← List.reverse_suffix, List.reverse_reverse]
    exact List.dropWhile_suffix isBlank
  obtain ⟨rest, hrest⟩ := hprefix
  refine head?_trimStart t c ?_
  rw [← hrest, List.head?_append, Option.mem_def.1 hc]
  rfl

/-- Trimming makes a single-spaced text tidy. -/
theorem SingleSpaced.tidy_trim {t : Text} (h : SingleSpaced t) : Tidy (trim t) :=
  ⟨h.of_part (trim_isInfix t), head?_trim t, getLast?_trimEnd (trimStart t)⟩

/-- A text without a blank at its start stays as it is when its start is trimmed. -/
theorem trimStart_eq_self {t : Text} (h : ∀ c ∈ t.head?, ¬isBlank c) : trimStart t = t := by
  cases t with
  | nil => rfl
  | cons c r => exact List.dropWhile_cons_of_neg (h c rfl)

/-- A text without blanks at its ends stays as it is when it is trimmed. -/
theorem trim_eq_self {t : Text} (hhead : ∀ c ∈ t.head?, ¬isBlank c)
    (hlast : ∀ c ∈ t.getLast?, ¬isBlank c) : trim t = t := by
  have hreverse : trimStart t.reverse = t.reverse :=
    trimStart_eq_self (by rwa [List.head?_reverse])
  rw [trim, trimStart_eq_self hhead, trimEnd, ← trimStart, hreverse, List.reverse_reverse]

/-- Trimming twice is trimming once. -/
theorem trim_trim (t : Text) : trim (trim t) = trim t :=
  trim_eq_self (head?_trim t) (getLast?_trimEnd (trimStart t))

/-- A text with no blank at its start, or nothing, in front of a character that is not blank. -/
theorem head?_append_cons {a : Text} (ha : ∀ d ∈ a.head?, ¬isBlank d) {c : Char}
    (hc : ¬isBlank c) (b : Text) : ∀ d ∈ (a ++ c :: b).head?, ¬isBlank d := by
  cases a with
  | nil => simpa using hc
  | cons e r => simpa using ha

/-- Behind a character that is not blank only the end is trimmed. -/
theorem trim_append_cons {a : Text} (ha : ∀ d ∈ a.head?, ¬isBlank d) {c : Char}
    (hc : ¬isBlank c) (b : Text) : trim (a ++ c :: b) = a ++ c :: trimEnd b := by
  have hdrop : (b.reverse ++ c :: a.reverse).dropWhile isBlank =
      b.reverse.dropWhile isBlank ++ c :: a.reverse := by
    rw [List.dropWhile_append]
    split
    · next hnil => rw [List.isEmpty_iff.1 hnil, List.dropWhile_cons_of_neg hc, List.nil_append]
    · rfl
  rw [trim, trimStart_eq_self (head?_append_cons ha hc b), trimEnd, List.reverse_append,
    List.reverse_cons, List.append_assoc, List.singleton_append, hdrop]
  simp [trimEnd]

/-- A blank in front of a text is trimmed away. -/
theorem trim_cons {c : Char} (hc : isBlank c) (t : Text) : trim (c :: t) = trim t := by
  rw [trim, trimStart, List.dropWhile_cons_of_pos hc]
  rfl

/-- Trimmed, the parts of a list are the same with and without spaces in front. -/
theorem map_trim_spaced (parts : List Text) : (spaced parts).map trim = parts.map trim := by
  cases parts with
  | nil => rfl
  | cons first others =>
      have hspace : ∀ part : Text, trim (' ' :: part) = trim part := fun part =>
        trim_cons (by decide) part
      simp [spaced, hspace, Function.comp_def]

/-- What trimming takes off the end are blanks. -/
theorem exists_trimEnd_append (t : Text) :
    ∃ blanks : Text, trimEnd t ++ blanks = t ∧ ∀ c ∈ blanks, isBlank c := by
  refine ⟨(t.reverse.takeWhile isBlank).reverse, ?_, fun c hc => ?_⟩
  · rw [trimEnd, ← List.reverse_append, List.takeWhile_append_dropWhile, List.reverse_reverse]
  · exact List.mem_takeWhile_imp (List.mem_reverse.1 hc)

/-- What trimming takes off the two ends are blanks. -/
theorem exists_append_trim_append (t : Text) : ∃ front back : Text,
    front ++ trim t ++ back = t ∧ (∀ c ∈ front, isBlank c) ∧ ∀ c ∈ back, isBlank c := by
  obtain ⟨back, hback, hblank⟩ := exists_trimEnd_append (trimStart t)
  refine ⟨t.takeWhile isBlank, back, ?_, fun _ => List.mem_takeWhile_imp, hblank⟩
  rw [List.append_assoc, trim, hback]
  exact List.takeWhile_append_dropWhile

/-- Blanks at the start are trimmed away. -/
theorem trimStart_blanks_append {blanks : Text} (h : ∀ c ∈ blanks, isBlank c) (t : Text) :
    trimStart (blanks ++ t) = trimStart t :=
  List.dropWhile_append_of_pos h

/-- So are blanks at the end. -/
theorem trimEnd_append_blanks (t : Text) {blanks : Text} (h : ∀ c ∈ blanks, isBlank c) :
    trimEnd (t ++ blanks) = trimEnd t := by
  have hreverse : ∀ c ∈ blanks.reverse, isBlank c := fun c hc => h c (List.mem_reverse.1 hc)
  rw [trimEnd, List.reverse_append, List.dropWhile_append_of_pos hreverse, trimEnd]

/-- A text without a blank at its end stays as it is when its end is trimmed. -/
theorem trimEnd_eq_self {t : Text} (h : ∀ c ∈ t.getLast?, ¬isBlank c) : trimEnd t = t := by
  have hreverse : trimStart t.reverse = t.reverse :=
    trimStart_eq_self (by rwa [List.head?_reverse])
  rw [trimEnd, ← trimStart, hreverse, List.reverse_reverse]

/-- It does not matter which end is trimmed first. -/
theorem trimStart_trimEnd (t : Text) : trimStart (trimEnd t) = trim t := by
  obtain ⟨front, back, heq, hfront, hback⟩ := exists_append_trim_append t
  have hend : trimEnd t = trimEnd (front ++ trim t) := by
    conv_lhs => rw [← heq, trimEnd_append_blanks _ hback]
  by_cases hnil : trim t = []
  · have hblank : trimEnd front = [] := trimEnd_append_blanks [] hfront
    rw [hend, hnil, List.append_nil, hblank]
    rfl
  · have hlast : ∀ c ∈ (front ++ trim t).getLast?, ¬isBlank c := by
      rw [List.getLast?_append_of_ne_nil _ hnil]
      exact getLast?_trimEnd (trimStart t)
    rw [hend, trimEnd_eq_self hlast, trimStart_blanks_append hfront,
      trimStart_eq_self (head?_trim t)]

theorem trim_append_blanks (t : Text) {blanks : Text} (h : ∀ c ∈ blanks, isBlank c) :
    trim (t ++ blanks) = trim t := by
  rw [← trimStart_trimEnd, trimEnd_append_blanks t h, trimStart_trimEnd]

theorem trim_blanks_append {blanks : Text} (h : ∀ c ∈ blanks, isBlank c) (t : Text) :
    trim (blanks ++ t) = trim t := by
  rw [trim, trimStart_blanks_append h, trim]

/-- Around a character that is not blank the two sides are trimmed apart. -/
theorem trim_append_cons_eq (a : Text) {c : Char} (hc : ¬isBlank c) (b : Text) :
    trim (a ++ c :: b) = trimStart a ++ c :: trimEnd b := by
  have hblanks : ∀ d ∈ a.takeWhile isBlank, isBlank d := fun _ => List.mem_takeWhile_imp
  have ha : a.takeWhile isBlank ++ trimStart a = a := List.takeWhile_append_dropWhile
  conv_lhs => rw [← ha, List.append_assoc, trim_blanks_append hblanks]
  exact trim_append_cons (head?_trimStart a) hc b

theorem Tidy.trim_eq {t : Text} (h : Tidy t) : trim t = t := trim_eq_self h.head h.last

/-- A text without blanks is tidy. -/
theorem tidy_of_not_isBlank {t : Text} (h : ∀ c ∈ t, ¬isBlank c) : Tidy t := by
  refine ⟨⟨fun c hc hblank => absurd hblank (h c hc), ?_⟩,
    fun c hc => h c (List.mem_of_mem_head? hc), fun c hc => h c (List.mem_of_getLast? hc)⟩
  refine (List.pairwise_of_forall_mem_list ?_).isChain
  exact fun c hc _ _ hboth => h c hc hboth.1

/-- A space may stand between a text without blanks and a tidy one. -/
theorem Tidy.append_space {a b : Text} (hne : a ≠ []) (ha : ∀ c ∈ a, ¬isBlank c)
    (hne' : b ≠ []) (hb : Tidy b) : Tidy (a ++ ' ' :: b) := by
  have hchain := (tidy_of_not_isBlank ha).isChain
  refine ⟨⟨fun c hc hblank => ?_, hchain.append (hb.isChain.cons ?_) ?_⟩, ?_, ?_⟩
  · rcases List.mem_append.1 hc with hc | hc
    · exact absurd hblank (ha c hc)
    · rcases List.mem_cons.1 hc with rfl | hc
      · rfl
      · exact hb.eq_space c hc hblank
  · exact fun d hd hboth => hb.head d hd hboth.2
  · exact fun c hc _ _ hboth => ha c (List.mem_of_getLast? hc) hboth.1
  · intro c hc
    rw [List.head?_append_of_ne_nil _ hne] at hc
    exact ha c (List.mem_of_mem_head? hc)
  · intro c hc
    rw [List.getLast?_append_of_ne_nil _ (by simp), List.getLast?_cons_of_ne_nil hne'] at hc
    exact hb.last c hc

/-- Between single blanks, none of them at the end, no piece behind the first is empty; and
neither is the first if no blank stands at the start. -/
theorem ne_nil_of_mem_pieces {t : Text} (hchain : t.IsChain fun a b => ¬(isBlank a ∧ isBlank b))
    (hlast : ∀ c ∈ t.getLast?, ¬isBlank c) (hne : t ≠ []) :
    (∀ piece ∈ (pieces isBlank t).tail, piece ≠ []) ∧
      ((∀ c ∈ t.head?, ¬isBlank c) → ∀ piece ∈ pieces isBlank t, piece ≠ []) := by
  induction t with
  | nil => exact absurd rfl hne
  | cons c r ih =>
      cases r with
      | nil =>
          have hc : ¬isBlank c := hlast c rfl
          simp [pieces, hc]
      | cons d r =>
          obtain ⟨hcd, hrest⟩ := List.isChain_cons_cons.1 hchain
          have hlast' : ∀ e ∈ (d :: r).getLast?, ¬isBlank e := by
            simpa [List.getLast?_cons_cons] using hlast
          obtain ⟨htail, hall⟩ := ih hrest hlast' (by simp)
          by_cases hc : isBlank c
          · have hd : ¬isBlank d := fun hd => hcd ⟨hc, hd⟩
            rw [pieces_cons_of_pos hc]
            refine ⟨hall (by simpa using hd), fun hhead => absurd hc (hhead c rfl)⟩
          · obtain ⟨first, others, hr, hcons⟩ := pieces_cons_of_neg hc (d :: r)
            rw [hr] at htail
            rw [hcons]
            refine ⟨htail, fun _ piece hpiece => ?_⟩
            rcases List.mem_cons.1 hpiece with rfl | hpiece
            · simp
            · exact htail piece hpiece

/-- A tidy text is the join of its words. -/
theorem Tidy.normalizeBlanks_eq {t : Text} (h : Tidy t) : normalizeBlanks t = t := by
  by_cases hne : t = []
  · subst hne
    rfl
  · have hwords : words t = pieces isBlank t :=
      List.filter_eq_self.2 fun piece hpiece => by
        simpa using (ne_nil_of_mem_pieces h.isChain h.last hne).2 h.head piece hpiece
    have hspace : pieces isBlank t = pieces (· == ' ') t := by
      refine pieces_congr fun c hc => ?_
      rw [Bool.eq_iff_iff, beq_iff_eq]
      exact ⟨h.eq_space c hc, fun he => he ▸ by decide⟩
    rw [normalizeBlanks, hwords, hspace]
    exact join_pieces ' ' t

end SchemaDelta.Text
