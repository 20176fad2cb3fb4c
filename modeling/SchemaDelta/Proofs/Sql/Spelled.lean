import SchemaDelta.Proofs.Dump.Spelling

/-!
# Headers as they are written

The keywords of a header are written in any case and with any blanks between them. `Spelled` says
which texts write a list of parts, without asking how such a text is read, and the lemmas say what
readers take off it: the part that they ask for, with the blanks behind it
(`Spelled.run_keyword_gap`), and nothing where another part stands (`Spelled.run_maybe_skip`).
-/

namespace SchemaDelta.Sql

open Reader Text

/-- A part of a header: a keyword, which may be written in any case, and what stands right behind
it. -/
structure HeaderPart where
  keyword : Text
  tail : Text
  deriving DecidableEq

namespace HeaderPart

/-- A keyword alone. -/
def plain (k : Text) : HeaderPart := ⟨k, []⟩

/-- A keyword with an equals sign and a value. -/
def setting (k value : Text) : HeaderPart := ⟨k, '=' :: value⟩

/-- A value alone. -/
def value (value : Text) : HeaderPart := ⟨[], value⟩

/-- The keyword has capitals only, there is no blank, and the part is not empty. -/
structure Lawful (part : HeaderPart) : Prop where
  isUpper : ∀ c ∈ part.keyword, c.isUpper
  not_isBlank : ∀ c ∈ part.tail, ¬isBlank c
  ne_nil : part.keyword ++ part.tail ≠ []

instance (part : HeaderPart) : Decidable part.Lawful :=
  decidable_of_iff ((part.keyword.all Char.isUpper ∧ part.tail.all (!isBlank ·)) ∧
      part.keyword ++ part.tail ≠ [])
    ⟨fun h => ⟨List.all_eq_true.1 h.1.1, by simpa using h.1.2, h.2⟩,
      fun h => ⟨⟨List.all_eq_true.2 h.isUpper, by simpa using h.not_isBlank⟩, h.ne_nil⟩⟩

@[simp] theorem keyword_plain (k : Text) : (plain k).keyword = k := rfl

@[simp] theorem keyword_setting (k v : Text) : (setting k v).keyword = k := rfl

theorem lawful_plain {k : Text} (hk : IsKeyword k) : (plain k).Lawful :=
  ⟨hk.isUpper, by simp [plain], by simpa [plain] using hk.ne_nil⟩

theorem lawful_setting {k v : Text} (hk : IsKeyword k) (hv : ∀ c ∈ v, ¬isBlank c) :
    (setting k v).Lawful :=
  ⟨hk.isUpper, List.forall_mem_cons.2 ⟨by decide, hv⟩, by simp [setting]⟩

theorem lawful_value {v : Text} (hv : IsName v) : (value v).Lawful :=
  ⟨by simp [value], fun _ hc => hv.not_isBlank hc, by simpa [value] using hv.ne_nil⟩

end HeaderPart

/-- The text is these parts in order, the keywords in any case, and behind each stand blanks. -/
inductive Spelled : List HeaderPart → Text → Prop
  | nil : Spelled [] []
  | cons {part : HeaderPart} {parts : List HeaderPart} (spelling between : Text) {rest : Text}
      (hspelling : spelling.map keywordFold = part.keyword) (hne : between ≠ [])
      (hblank : ∀ c ∈ between, isBlank c) (hrest : Spelled parts rest) :
      Spelled (part :: parts) (spelling ++ (part.tail ++ (between ++ rest)))

variable {k t back : Text} {part : HeaderPart} {parts : List HeaderPart}

/-- A part may be written with one space behind it. -/
theorem Spelled.cons_space (spelling : Text) (hspelling : spelling.map keywordFold = part.keyword)
    (h : Spelled parts t) : Spelled (part :: parts) (spelling ++ (part.tail ++ ' ' :: t)) :=
  .cons spelling [' '] hspelling (List.cons_ne_nil _ _) (List.forall_mem_singleton.2 rfl) h

/-- Blanks are taken as a gap up to what is none. -/
theorem run_gap_append {between rest : Text} (hne : between ≠ [])
    (hblank : ∀ c ∈ between, isBlank c) (hrest : ∀ c ∈ rest.head?, ¬isBlank c) :
    gap.run (between ++ rest) = some ((), rest) :=
  run_bind_eq_some_iff.2 ⟨between, rest, run_many1_append hne hblank hrest, rfl⟩

/-- In front of what is no blank nothing is taken. -/
theorem run_blanks_of_head {rest : Text} (hrest : ∀ c ∈ rest.head?, ¬isBlank c) :
    blanks.run rest = some ((), rest) := by
  show some ((), rest.dropWhile isBlank) = some ((), rest)
  rw [← trimStart, trimStart_eq_self hrest]

/-- No blank stands in front of a part. -/
theorem HeaderPart.Lawful.head? (h : part.Lawful) {spelling : Text}
    (hspelling : spelling.map keywordFold = part.keyword) (rest : Text) :
    ∀ c ∈ (spelling ++ (part.tail ++ rest)).head?, ¬isBlank c := by
  intro c hc
  cases hcons : spelling with
  | cons d others =>
      obtain rfl : d = c := by simpa [hcons] using hc
      intro hblank
      have hupper := h.isUpper (keywordFold d) (by simp [← hspelling, hcons])
      rw [isUpper_keywordFold_of_isBlank hblank] at hupper
      simp at hupper
  | nil =>
      cases htail : part.tail with
      | cons d others =>
          obtain rfl : d = c := by simpa [hcons, htail] using hc
          exact h.not_isBlank d (by simp [htail])
      | nil =>
          have hkeyword : part.keyword = [] := by simpa [hcons] using hspelling.symm
          exact absurd (by simp [hkeyword, htail]) h.ne_nil

/-- Nor in front of parts and what follows them. -/
theorem Spelled.head? (h : Spelled parts t) (hparts : ∀ part ∈ parts, part.Lawful)
    (hback : ∀ c ∈ back.head?, ¬isBlank c) : ∀ c ∈ (t ++ back).head?, ¬isBlank c := by
  cases h with
  | nil => exact hback
  | @cons part parts spelling between rest hspelling hne hblank hrest =>
      have hhead := (hparts part List.mem_cons_self).head? hspelling (between ++ (rest ++ back))
      simpa using hhead

/-- A keyword is taken with the blanks behind it. -/
theorem Spelled.run_keyword_gap (h : Spelled (.plain k :: parts) t)
    (hparts : ∀ part ∈ parts, part.Lawful) (hback : ∀ c ∈ back.head?, ¬isBlank c) :
    ∃ rest, Spelled parts rest ∧ ∀ {α : Type} (r : Reader α),
      (do keyword k; gap; r).run (t ++ back) = r.run (rest ++ back) := by
  cases h with
  | @cons _ _ spelling between rest hspelling hne hblank hrest =>
      refine ⟨rest, hrest, fun r => ?_⟩
      have htext : spelling ++ ((HeaderPart.plain k).tail ++ (between ++ rest)) ++ back =
          spelling ++ (between ++ (rest ++ back)) := by
        simp [HeaderPart.plain]
      have hgap : gap.run (between ++ (rest ++ back)) = some ((), rest ++ back) :=
        run_gap_append hne hblank (hrest.head? hparts hback)
      have hkeyword : (keyword k).run (spelling ++ (between ++ (rest ++ back))) =
          some ((), between ++ (rest ++ back)) := run_keyword_append hspelling _
      rw [htext, StateT.run_bind, hkeyword]
      show (gap >>= fun _ => r).run (between ++ (rest ++ back)) = r.run (rest ++ back)
      rw [StateT.run_bind, hgap]
      rfl

/-- So it is where nothing is asked for behind it. -/
theorem Spelled.run_last_keyword_gap (h : Spelled (.plain k :: parts) t)
    (hparts : ∀ part ∈ parts, part.Lawful) (hback : ∀ c ∈ back.head?, ¬isBlank c) :
    ∃ rest, Spelled parts rest ∧
      (do keyword k; gap : Reader Unit).run (t ++ back) = some ((), rest ++ back) := by
  obtain ⟨rest, hrest, hread⟩ := h.run_keyword_gap hparts hback
  have hpure : (do keyword k; gap; pure () : Reader Unit) = (do keyword k; gap) := by
    simp only [bind_pure_unit]
  exact ⟨rest, hrest, hpure ▸ hread (pure ())⟩

/-- A keyword with an equals sign and a value is taken with the blanks behind them. -/
theorem Spelled.run_setting_gap {v : Text} {p : Char → Bool}
    (h : Spelled (.setting k v :: parts) t) (hparts : ∀ part ∈ parts, part.Lawful)
    (hback : ∀ c ∈ back.head?, ¬isBlank c) (hne : v ≠ []) (hp : ∀ c ∈ v, p c ∧ ¬isBlank c)
    (hblank : ∀ c, isBlank c → ¬p c) : ∃ rest, Spelled parts rest ∧
      (do keyword k; equalsSign; let _ ← many1 p; gap : Reader Unit).run (t ++ back) =
        some ((), rest ++ back) := by
  cases h with
  | @cons _ _ spelling between rest hspelling hbetween hblanks hrest =>
      refine ⟨rest, hrest, ?_⟩
      have htext : spelling ++ ((HeaderPart.setting k v).tail ++ (between ++ rest)) ++ back =
          spelling ++ '=' :: (v ++ (between ++ (rest ++ back))) := by
        simp [HeaderPart.setting]
      have hgap : gap.run (between ++ (rest ++ back)) = some ((), rest ++ back) :=
        run_gap_append hbetween hblanks (hrest.head? hparts hback)
      have hvalue : ∀ c ∈ (v ++ (between ++ (rest ++ back))).head?, ¬isBlank c := by
        obtain ⟨c, others, rfl⟩ := List.exists_cons_of_ne_nil hne
        simpa using (hp c List.mem_cons_self).2
      have hequals : equalsSign.run ('=' :: (v ++ (between ++ (rest ++ back)))) =
          some ((), v ++ (between ++ (rest ++ back))) := by
        refine run_bind_eq_some_iff.2 ⟨(), _, rfl, ?_⟩
        refine run_bind_eq_some_iff.2 ⟨(), _, run_char_self '=' _, ?_⟩
        exact run_blanks_of_head hvalue
      have hrun : (many1 p).run (v ++ (between ++ (rest ++ back))) =
          some (v, between ++ (rest ++ back)) := by
        refine run_many1_append hne (fun c hc => (hp c hc).1) ?_
        obtain ⟨c, others, rfl⟩ := List.exists_cons_of_ne_nil hbetween
        simpa using hblank c (hblanks c List.mem_cons_self)
      rw [htext]
      refine run_bind_eq_some_iff.2 ⟨(), _, run_keyword_append hspelling _, ?_⟩
      refine run_bind_eq_some_iff.2 ⟨(), _, hequals, ?_⟩
      exact run_bind_eq_some_iff.2 ⟨v, _, hrun, hgap⟩

/-- And a value. -/
theorem Spelled.run_word_gap {v : Text} (h : Spelled (.value v :: parts) t)
    (hparts : ∀ part ∈ parts, part.Lawful) (hback : ∀ c ∈ back.head?, ¬isBlank c)
    (hname : IsName v) : ∃ rest, Spelled parts rest ∧
      (do let _ ← word; gap : Reader Unit).run (t ++ back) = some ((), rest ++ back) := by
  cases h with
  | @cons _ _ spelling between rest hspelling hbetween hblanks hrest =>
      refine ⟨rest, hrest, ?_⟩
      obtain rfl : spelling = [] := List.map_eq_nil_iff.1 hspelling
      have htext : [] ++ ((HeaderPart.value v).tail ++ (between ++ rest)) ++ back =
          v ++ (between ++ (rest ++ back)) := by
        simp [HeaderPart.value]
      have hgap : gap.run (between ++ (rest ++ back)) = some ((), rest ++ back) :=
        run_gap_append hbetween hblanks (hrest.head? hparts hback)
      have hrun : word.run (v ++ (between ++ (rest ++ back))) =
          some (v, between ++ (rest ++ back)) := by
        refine run_many1_append hname.ne_nil hname.isWord ?_
        obtain ⟨c, others, rfl⟩ := List.exists_cons_of_ne_nil hbetween
        simpa using isWord_eq_false_of_isBlank (hblanks c List.mem_cons_self)
      rw [htext]
      exact run_bind_eq_some_iff.2 ⟨v, _, hrun, hgap⟩

/-- In front stands another keyword than this one, and neither of the two begins with the other. -/
def OpensOther (k : Text) (parts : List HeaderPart) : Prop :=
  ∃ part ∈ parts.head?, ¬k <+: part.keyword ∧ ¬part.keyword <+: k

/-- A keyword is not read where another one stands. -/
theorem Spelled.run_keyword_of_other (h : Spelled parts t) (hother : OpensOther k parts)
    (back : Text) : (keyword k).run (t ++ back) = none := by
  obtain ⟨part, hpart, hk, hk'⟩ := hother
  cases h with
  | nil => simp at hpart
  | @cons first _ spelling between rest hspelling hbetween hblanks hrest =>
      obtain rfl : first = part := by simpa using hpart
      rw [Option.eq_none_iff_forall_ne_some]
      rintro ⟨_, left⟩ hrun
      obtain ⟨read, heq, hread⟩ := run_keyword_inv hrun
      rw [List.append_assoc] at heq
      -- One of the two spellings is a start of the other.
      rcases List.append_eq_append_iff.1 heq with ⟨more, rfl, -⟩ | ⟨more, rfl, -⟩
      · refine hk' ?_
        rw [← hread, ← hspelling, List.map_append]
        exact List.prefix_append _ _
      · refine hk ?_
        rw [← hread, ← hspelling, List.map_append]
        exact List.prefix_append _ _

/-- So what may be missing is passed over. -/
theorem Spelled.run_maybe_skip (h : Spelled parts t) (hother : OpensOther k parts) (back : Text)
    {α : Type} (r : Reader α) : (maybe do keyword k; r).run (t ++ back) = some ((), t ++ back) := by
  refine run_maybe_of_none ?_
  rw [StateT.run_bind, h.run_keyword_of_other hother]
  rfl

/-- A keyword with an equals sign and a value may be missing. -/
theorem Spelled.run_maybe_setting {v : Option Text} {p : Char → Bool}
    (h : Spelled (v.elim [] (fun v => [.setting k v]) ++ parts) t)
    (hparts : ∀ part ∈ parts, part.Lawful) (hback : ∀ c ∈ back.head?, ¬isBlank c)
    (hv : ∀ text ∈ v, text ≠ [] ∧ ∀ c ∈ text, p c ∧ ¬isBlank c) (hblank : ∀ c, isBlank c → ¬p c)
    (hother : OpensOther k parts) : ∃ rest, Spelled parts rest ∧
      (maybe do keyword k; equalsSign; let _ ← many1 p; gap).run (t ++ back) =
        some ((), rest ++ back) := by
  cases v with
  | none => exact ⟨t, h, h.run_maybe_skip hother back _⟩
  | some text =>
      obtain ⟨hne, hp⟩ := hv text rfl
      obtain ⟨rest, hrest, hread⟩ := h.run_setting_gap hparts hback hne hp hblank
      exact ⟨rest, hrest, run_maybe_of_run hread⟩

/-- A keyword is taken up to the blanks behind it, where no word goes on. -/
theorem Spelled.run_keyword (h : Spelled (.plain k :: parts) t) (back : Text) :
    ∃ left, (keyword k).run (t ++ back) = some ((), left) ∧ wordEnd.run left = some ((), left) := by
  cases h with
  | @cons _ _ spelling between rest hspelling hne hblank hrest =>
      have htext : spelling ++ ((HeaderPart.plain k).tail ++ (between ++ rest)) ++ back =
          spelling ++ (between ++ (rest ++ back)) := by
        simp [HeaderPart.plain]
      refine ⟨between ++ (rest ++ back), htext ▸ run_keyword_append hspelling _, ?_⟩
      obtain ⟨c, others, rfl⟩ := List.exists_cons_of_ne_nil hne
      have hc : isWord c = false := isWord_eq_false_of_isBlank (hblank c List.mem_cons_self)
      simp [wordEnd, StateT.run, startsWord, hc]

/-! ## Keywords that a header does not speak -/

/-- A word in front of a blank keeps a text silent, unless it ends with the keyword. -/
theorem Silent.append_word {word : Text} {c : Char} (h : Silent k (c :: t)) (hk : IsKeyword k)
    (hword : ∀ d ∈ word, ¬isBlank d) (hc : isBlank c) (hend : ¬k <:+ word.map keywordFold) :
    Silent k (word ++ c :: t) := by
  refine first_eq_none_iff.2 fun place ⟨front, heq⟩ => ?_
  rcases List.append_eq_append_iff.1 heq with ⟨more, rfl, rfl⟩ | ⟨more, -, hbehind⟩
  · rw [← Option.not_isSome_iff_eq_none]
    intro hrun
    have hmore : ∀ d ∈ more, ¬isBlank d := fun d hd => hword d (List.mem_append_right front hd)
    refine hend ?_
    rw [List.map_append, hk.map_keywordFold_eq (r := pure ()) hmore hc (by simpa using hrun)]
    exact List.suffix_append _ _
  · exact first_eq_none_iff.1 h place ⟨more, hbehind.symm⟩

/-- Blanks in front keep a text silent. -/
theorem Silent.append_blanks {between : Text} (h : Silent k t) (hk : IsKeyword k)
    (hblank : ∀ c ∈ between, isBlank c) : Silent k (between ++ t) := by
  induction between with
  | nil => exact h
  | cons c others ih =>
      obtain ⟨hc, hothers⟩ := List.forall_mem_cons.1 hblank
      exact (ih hothers).cons hk (isUpper_keywordFold_of_isBlank hc)

/-- Keywords and a text without blanks are silent about a keyword that none of them ends with. -/
theorem Spelled.silent (h : Spelled parts t) (hk : IsKeyword k)
    (hparts : ∀ part ∈ parts, IsKeyword part.keyword ∧ part.tail = [] ∧ ¬k <:+ part.keyword)
    (hback : ∀ c ∈ back, ¬isBlank c) : Silent k (t ++ back) := by
  induction h with
  | nil => exact silent_of_not_isBlank hback
  | @cons part parts spelling between rest hspelling hne hblank hrest ih =>
      obtain ⟨⟨hkeyword, htail, hend⟩, hothers⟩ := List.forall_mem_cons.1 hparts
      obtain ⟨c, others, rfl⟩ := List.exists_cons_of_ne_nil hne
      have hbehind : Silent k (c :: (others ++ (rest ++ back))) :=
        (ih hothers).append_blanks hk hblank
      have hword : ∀ d ∈ spelling, ¬isBlank d := fun d hd hblank =>
        hkeyword.not_mem (isUpper_keywordFold_of_isBlank hblank)
          (hspelling ▸ List.mem_map_of_mem hd)
      have hsilent := hbehind.append_word hk hword (hblank c List.mem_cons_self)
        (hspelling ▸ hend)
      have htext : spelling ++ (part.tail ++ (c :: others ++ rest)) ++ back =
          spelling ++ c :: (others ++ (rest ++ back)) := by
        simp [htail]
      exact htext ▸ hsilent

end SchemaDelta.Sql
