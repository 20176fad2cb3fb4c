import SchemaDelta.Proofs.Text.Words

/-!
# Parts in order

Parts stand in a text in order if it can be read from left to right with one part behind the other,
whatever is in between. A character that is in none of the parts has some of them on its one side
and the others on its other side (`inOrder_append_cons`). So of parts without blanks the words of a
text decide which of them stand in it in order (`inOrder_normalizeBlanks_iff`).
-/

namespace SchemaDelta.Text

/-- The parts stand in the text in this order, and no two of them overlap. -/
def InOrder : List Text → Text → Prop
  | [], _ => True
  | part :: parts, t => ∃ front behind, t = front ++ part ++ behind ∧ InOrder parts behind

variable {parts : List Text} {a b : Text} {c : Char}

theorem InOrder.append_left (h : InOrder parts b) (a : Text) : InOrder parts (a ++ b) := by
  cases parts with
  | nil => trivial
  | cons part parts =>
      obtain ⟨front, behind, rfl, hbehind⟩ := h
      exact ⟨a ++ front, behind, by simp, hbehind⟩

/-- Parts in one text and parts in the text behind it. -/
theorem InOrder.append {front back : List Text} (ha : InOrder front a) (hb : InOrder back b) :
    InOrder (front ++ back) (a ++ b) := by
  induction front generalizing a with
  | nil => exact hb.append_left a
  | cons part front ih =>
      obtain ⟨before, behind, rfl, hbehind⟩ := ha
      exact ⟨before, behind ++ b, by simp, ih hbehind⟩

/-- Parts in a part of a text. -/
theorem InOrder.of_isInfix {part t : Text} (h : InOrder parts part) (hpart : part <:+: t) :
    InOrder parts t := by
  obtain ⟨front, back, rfl⟩ := hpart
  have hback : InOrder [] back := trivial
  rw [← List.append_nil parts]
  exact (h.append_left front).append hback

/-- Nothing stands in an empty text. -/
theorem inOrder_nil_iff (hne : ∀ part ∈ parts, part ≠ []) : InOrder parts [] ↔ parts = [] := by
  cases parts with
  | nil => simp [InOrder]
  | cons part parts =>
      have hpart := hne part List.mem_cons_self
      simp [InOrder, hpart]

/-- A part without a character that stands in two texts with the character between them stands in
the first or in the second. -/
theorem append_cons_eq_append {front part behind : Text} (hc : c ∉ part)
    (h : a ++ c :: b = front ++ part ++ behind) :
    (∃ rest, a = front ++ part ++ rest ∧ behind = rest ++ c :: b) ∨
      ∃ start, b = start ++ part ++ behind := by
  rcases List.append_eq_append_iff.1 h with ⟨more, hmore, hbehind⟩ | ⟨more, rfl, hmore⟩
  · cases more with
    | nil => exact .inl ⟨[], by simpa using hmore.symm, by simpa using hbehind.symm⟩
    | cons d more =>
        obtain ⟨rfl, rfl⟩ := List.cons.inj hbehind
        rw [List.append_cons] at hmore
        rcases List.append_eq_append_iff.1 hmore with ⟨start, hfront, rfl⟩ | ⟨start, -, rfl⟩
        · -- Only an empty start of the part stands in front of the character.
          rcases List.eq_nil_or_concat' start with rfl | ⟨start, d, rfl⟩
          · exact .inr ⟨[], rfl⟩
          · rw [← List.append_assoc] at hfront
            obtain rfl : c = d := by simpa using List.append_inj_right' hfront rfl
            exact absurd (by simp) hc
        · exact .inr ⟨start, rfl⟩
  · exact .inl ⟨more, rfl, hmore⟩

/-- Parts without a character stand in order on its two sides, some on the one and the others on
the other. -/
theorem inOrder_append_cons (hc : ∀ part ∈ parts, c ∉ part) : InOrder parts (a ++ c :: b) ↔
    ∃ front back, parts = front ++ back ∧ InOrder front a ∧ InOrder back b := by
  constructor
  · intro h
    induction parts generalizing a with
    | nil => exact ⟨[], [], rfl, trivial, trivial⟩
    | cons part parts ih =>
        obtain ⟨hpart, hparts⟩ := List.forall_mem_cons.1 hc
        obtain ⟨before, behind, heq, hbehind⟩ := h
        rcases append_cons_eq_append hpart heq with ⟨rest, rfl, rfl⟩ | ⟨start, rfl⟩
        · obtain ⟨front, back, rfl, hfront, hback⟩ := ih hparts hbehind
          exact ⟨part :: front, back, rfl, ⟨before, rest, rfl, hfront⟩, hback⟩
        · exact ⟨[], part :: parts, rfl, trivial, ⟨start, behind, rfl, hbehind⟩⟩
  · rintro ⟨front, back, rfl, hfront, hback⟩
    exact hfront.append (hback.append_left [c])

/-- Parts without spaces stand in joined texts as they stand in the joins of two lists of them. -/
theorem inOrder_join_append (hne : ∀ part ∈ parts, part ≠ []) (hspace : ∀ part ∈ parts, ' ' ∉ part)
    (first second : List Text) : InOrder parts (join " " (first ++ second)) ↔
      ∃ front back, parts = front ++ back ∧ InOrder front (join " " first) ∧
        InOrder back (join " " second) := by
  by_cases hboth : first ≠ [] ∧ second ≠ []
  · have hjoin : join " " (first ++ second) = join " " first ++ ' ' :: join " " second := by
      rw [join_append " " hboth.1 hboth.2, List.append_assoc]
      rfl
    rw [hjoin, inOrder_append_cons hspace]
  -- One of the two joins is empty, and so all parts stand in the other one.
  constructor
  · intro h
    by_cases hfirst : first = []
    · subst hfirst
      exact ⟨[], parts, rfl, trivial, h⟩
    · obtain rfl : second = [] := by_contra fun hsecond => hboth ⟨hfirst, hsecond⟩
      rw [List.append_nil] at h
      exact ⟨parts, [], (List.append_nil _).symm, h, trivial⟩
  · rintro ⟨front, back, rfl, hfront, hback⟩
    rw [List.forall_mem_append] at hne
    by_cases hfirst : first = []
    · subst hfirst
      obtain rfl := (inOrder_nil_iff hne.1).1 hfront
      exact hback
    · obtain rfl : second = [] := by_contra fun hsecond => hboth ⟨hfirst, hsecond⟩
      obtain rfl := (inOrder_nil_iff hne.2).1 hback
      rwa [List.append_nil, List.append_nil]

/-- Parts without blanks stand in a text in order just if they do so with single spaces between its
words. -/
theorem inOrder_normalizeBlanks_iff {parts : List Text} (hne : ∀ part ∈ parts, part ≠ [])
    (hblank : ∀ part ∈ parts, ∀ c ∈ part, ¬isBlank c) (t : Text) :
    InOrder parts (normalizeBlanks t) ↔ InOrder parts t := by
  by_cases h : ∃ c ∈ t, isBlank c
  · obtain ⟨c, hc, hcblank⟩ := h
    obtain ⟨a, b, ht⟩ := List.append_of_mem hc
    have hshorter : a.length < t.length ∧ b.length < t.length := by
      rw [ht, List.length_append, List.length_cons]
      omega
    have hnotin : ∀ {d : Char}, isBlank d → ∀ part ∈ parts, d ∉ part :=
      fun hd part hpart hmem => hblank part hpart _ hmem hd
    rw [ht, normalizeBlanks, words_append_cons a hcblank,
      inOrder_join_append hne (hnotin (by decide)), inOrder_append_cons (hnotin hcblank)]
    refine exists₂_congr fun front back => and_congr_right fun hparts => ?_
    have hfront : ∀ part ∈ front, part ∈ parts := fun part hpart => by simp [hparts, hpart]
    have hback : ∀ part ∈ back, part ∈ parts := fun part hpart => by simp [hparts, hpart]
    exact and_congr
      (inOrder_normalizeBlanks_iff (fun part hpart => hne part (hfront part hpart))
        (fun part hpart => hblank part (hfront part hpart)) a)
      (inOrder_normalizeBlanks_iff (fun part hpart => hne part (hback part hpart))
        (fun part hpart => hblank part (hback part hpart)) b)
  · have htidy : Tidy t := tidy_of_not_isBlank fun c hc hcblank => h ⟨c, hc, hcblank⟩
    rw [htidy.normalizeBlanks_eq]
termination_by t.length
decreasing_by
  · exact hshorter.1
  · exact hshorter.2

end SchemaDelta.Text
