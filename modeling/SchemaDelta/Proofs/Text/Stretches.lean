import SchemaDelta.Text.Basic

/-!
# Stretches of a text

A pattern says which texts match at a place, given the character in front and the text behind. Going
over a text and taking the matches out of it cuts the text into stretches: the characters that stay
and the matches. If no match goes on where another one ends there is one such cut
(`Stretches.unique`). Two characters that are side by side in what is left were so before, or they
meet because there was nothing but matches between them (`exists_leftOf_eq_iff`).
-/

namespace SchemaDelta.Text

/-- A pattern: what it says of a text between the character in front of it, if there is one, and
the text behind it. -/
abbrev Pattern : Type := Option Char → Text → Text → Prop

/-- No match can be made longer into another match at its place. -/
def Pattern.Definite (pattern : Pattern) : Prop :=
  ∀ {before matched more behind}, pattern before matched (more ++ behind) →
    pattern before (matched ++ more) behind → more = []

/-- Two matches at one place are the same. -/
theorem Pattern.Definite.matched_eq {pattern : Pattern} (hdefinite : pattern.Definite)
    {before : Option Char} {a b c d : Text} (heq : a ++ b = c ++ d) (ha : pattern before a b)
    (hc : pattern before c d) : a = c := by
  rcases List.append_eq_append_iff.1 heq with ⟨more, rfl, rfl⟩ | ⟨more, rfl, rfl⟩
  · rw [hdefinite ha hc, List.append_nil]
  · rw [hdefinite hc ha, List.append_nil]

/-- A stretch of a text. -/
inductive Stretch where
  /-- A character that stays. -/
  | kept (c : Char)
  /-- A match that is taken out. -/
  | taken (matched : Text)

/-- The text of a stretch. -/
def Stretch.text : Stretch → Text
  | .kept c => [c]
  | .taken matched => matched

/-- What is left of a stretch. -/
def Stretch.left : Stretch → Text
  | .kept c => [c]
  | .taken _ => []

/-- The text that stretches are cut from. -/
def textOf (stretches : List Stretch) : Text := stretches.flatMap Stretch.text

/-- What is left of stretches. -/
def leftOf (stretches : List Stretch) : Text := stretches.flatMap Stretch.left

/-- The stretches of a text behind a character, from left to right. A character stays if no match
starts with it. -/
inductive Stretches (pattern : Pattern) : Option Char → Text → List Stretch → Prop where
  | nil {before} : Stretches pattern before [] []
  | kept {before c rest stretches}
      (hno : ∀ matched behind, c :: rest = matched ++ behind → matched ≠ [] →
        ¬pattern before matched behind)
      (hrest : Stretches pattern (some c) rest stretches) :
      Stretches pattern before (c :: rest) (.kept c :: stretches)
  | taken {before matched behind stretches} (hmatch : pattern before matched behind)
      (hne : matched ≠ []) (hbehind : Stretches pattern matched.getLast? behind stretches) :
      Stretches pattern before (matched ++ behind) (.taken matched :: stretches)

/-- The two characters stay and meet when the matches are taken out: between them there are some,
and nothing else. The text is what is left behind them. -/
def Meet (c d : Char) (behind : Text) (stretches : List Stretch) : Prop :=
  ∃ (front : List Stretch) (gap : List Text) (back : List Stretch),
    stretches = front ++ .kept c :: (gap.map .taken ++ .kept d :: back) ∧ gap ≠ [] ∧
      leftOf back = behind

theorem leftOf_append (front back : List Stretch) :
    leftOf (front ++ back) = leftOf front ++ leftOf back :=
  List.flatMap_append

theorem leftOf_taken (gap : List Text) : leftOf (gap.map .taken) = [] := by
  rw [leftOf, List.flatMap_map]
  exact List.flatMap_eq_nil_iff.2 fun _ _ => rfl

theorem leftOf_kept (c : Char) (stretches : List Stretch) :
    leftOf (.kept c :: stretches) = c :: leftOf stretches :=
  rfl

/-- The text of each stretch is a part of the text of all. -/
theorem isInfix_textOf {stretch : Stretch} {stretches : List Stretch} (h : stretch ∈ stretches) :
    stretch.text <:+: textOf stretches :=
  List.infix_of_mem_flatten (List.mem_map_of_mem h)

/-- What is left of stretches without a match is their text. -/
theorem textOf_eq_leftOf {stretches : List Stretch} (h : ∀ matched, .taken matched ∉ stretches) :
    textOf stretches = leftOf stretches := by
  induction stretches with
  | nil => rfl
  | cons stretch stretches ih =>
      have hrest := ih fun matched hmem => h matched (List.mem_cons_of_mem _ hmem)
      cases stretch with
      | kept c => exact congrArg (c :: ·) hrest
      | taken matched => exact absurd List.mem_cons_self (h matched)

/-! ## The stretches of a text -/

namespace Stretches

variable {pattern : Pattern} {before : Option Char} {t : Text} {stretches : List Stretch}

theorem textOf_eq (h : Stretches pattern before t stretches) : textOf stretches = t := by
  induction h with
  | nil => rfl
  | kept _ _ ih => exact congrArg (List.cons _) ih
  | taken _ _ _ ih => exact congrArg (List.append _) ih

/-- A definite pattern cuts a text into stretches in one way. -/
theorem unique (hdefinite : pattern.Definite) (h : Stretches pattern before t stretches)
    {other : List Stretch} (hother : Stretches pattern before t other) : stretches = other := by
  induction h generalizing other with
  | nil =>
      generalize ht : ([] : Text) = t at hother
      cases hother with
      | nil => rfl
      | kept => cases ht
      | taken _ hne _ => exact absurd (List.append_eq_nil_iff.1 ht.symm).1 hne
  | @kept before c rest stretches hno _ ih =>
      generalize ht : c :: rest = t at hother
      cases hother with
      | nil => cases ht
      | kept _ hrest =>
          obtain ⟨rfl, rfl⟩ := List.cons.inj ht
          rw [ih hrest]
      | taken hmatch hne _ => exact absurd hmatch (hno _ _ ht hne)
  | @taken before matched behind stretches hmatch hne _ ih =>
      generalize ht : matched ++ behind = t at hother
      cases hother with
      | nil => exact absurd (List.append_eq_nil_iff.1 ht).1 hne
      | kept hno _ => exact absurd hmatch (hno _ _ ht.symm hne)
      | taken hother _ hbehind =>
          obtain rfl := hdefinite.matched_eq ht hmatch hother
          obtain rfl := List.append_cancel_left ht
          rw [ih hbehind]

/-- What follows some of the stretches of a text are the stretches of what follows their text. -/
theorem of_append {front back : List Stretch} (h : Stretches pattern before t (front ++ back)) :
    ∃ last behind, Stretches pattern last behind back := by
  induction front generalizing before t with
  | nil => exact ⟨before, t, h⟩
  | cons stretch front ih =>
      cases h with
      | kept _ hrest => exact ih hrest
      | taken _ _ hbehind => exact ih hbehind

/-- Every match that is taken out is one of the pattern. -/
theorem exists_match {matched : Text} (h : Stretches pattern before t stretches)
    (hmem : .taken matched ∈ stretches) : ∃ last behind, pattern last matched behind := by
  obtain ⟨front, back, rfl⟩ := List.append_of_mem hmem
  obtain ⟨last, _, hback⟩ := h.of_append
  cases hback with
  | taken hmatch _ _ => exact ⟨last, _, hmatch⟩

end Stretches

/-! ## Characters that meet -/

variable {c d : Char} {stretches : List Stretch}

/-- A character that is left was kept. -/
theorem exists_kept_of_leftOf_eq {front behind : Text}
    (h : leftOf stretches = front ++ c :: behind) :
    ∃ before back, stretches = before ++ .kept c :: back ∧ leftOf before = front ∧
      leftOf back = behind := by
  induction stretches generalizing front with
  | nil => simp [leftOf] at h
  | cons stretch stretches ih =>
      cases stretch with
      | taken matched =>
          obtain ⟨before, back, rfl, hbefore, hback⟩ := ih h
          exact ⟨.taken matched :: before, back, rfl, hbefore, hback⟩
      | kept e =>
          rw [leftOf_kept] at h
          cases front with
          | nil =>
              obtain ⟨rfl, hback⟩ := List.cons.inj h
              exact ⟨[], stretches, rfl, rfl, hback⟩
          | cons f front =>
              obtain ⟨rfl, hrest⟩ := List.cons.inj h
              obtain ⟨before, back, rfl, hbefore, hback⟩ := ih hrest
              exact ⟨.kept e :: before, back, rfl, congrArg (e :: ·) hbefore, hback⟩

/-- In front of the first character that is left there are matches only. -/
theorem exists_taken_of_leftOf_eq {behind : Text} (h : leftOf stretches = c :: behind) :
    ∃ (gap : List Text) (back : List Stretch),
      stretches = gap.map .taken ++ .kept c :: back ∧ leftOf back = behind := by
  induction stretches with
  | nil => simp [leftOf] at h
  | cons stretch stretches ih =>
      cases stretch with
      | taken matched =>
          obtain ⟨gap, back, rfl, hback⟩ := ih h
          exact ⟨matched :: gap, back, rfl, hback⟩
      | kept d =>
          obtain ⟨rfl, hback⟩ := List.cons.inj h
          exact ⟨[], stretches, rfl, hback⟩

/-- Two characters are left side by side if they meet or were side by side before. -/
theorem exists_leftOf_eq_iff {behind : Text} :
    (∃ front, leftOf stretches = front ++ c :: d :: behind) ↔
      Meet c d behind stretches ∨
        ∃ front back, stretches = front ++ .kept c :: .kept d :: back ∧ leftOf back = behind := by
  constructor
  · rintro ⟨front, h⟩
    obtain ⟨before, back, rfl, -, hback⟩ := exists_kept_of_leftOf_eq h
    obtain ⟨gap, rest, rfl, hrest⟩ := exists_taken_of_leftOf_eq hback
    by_cases hgap : gap = []
    · subst hgap
      exact .inr ⟨before, rest, rfl, hrest⟩
    · exact .inl ⟨before, gap, rest, rfl, hgap, hrest⟩
  · rintro (⟨front, gap, back, rfl, -, rfl⟩ | ⟨front, back, rfl, rfl⟩)
    · refine ⟨leftOf front, ?_⟩
      rw [leftOf_append, leftOf_kept, leftOf_append, leftOf_taken, leftOf_kept, List.nil_append]
    · refine ⟨leftOf front, ?_⟩
      rw [leftOf_append, leftOf_kept, leftOf_kept]

end SchemaDelta.Text
