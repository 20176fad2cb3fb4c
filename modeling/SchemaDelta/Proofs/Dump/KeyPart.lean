import SchemaDelta.Change.Edit
import SchemaDelta.Proofs.Dump.Key

/-!
# Key parts with lengths

A part of a primary key is a column, of which the key may cover only the front: then a length
stands in parentheses behind the name. The list of a key is read up to the first parenthesis that
closes, so a length ends it (`ofText_keyPartsClause`): of the part it belongs to, the length is
taken for a piece of the name, and the parts behind it are lost.
-/

namespace SchemaDelta

open Sql Text

/-- A numeral is a word. -/
theorem Sql.isName_ofNat (n : Nat) : IsName (ofNat n) := by
  refine ⟨Nat.toDigits_ne_nil, fun c hc => ?_⟩
  have hdigit : c.isDigit := Nat.isDigit_of_mem_toDigits (by omega) (by omega) hc
  have hascii : c.toNat < 0x80 := by
    have hbound : c.val ≤ 57 := by
      simp only [Char.isDigit, Bool.and_eq_true, decide_eq_true_eq] at hdigit
      exact hdigit.2
    have hbound' : c.toNat ≤ 57 := hbound
    omega
  exact isWord_of_isAlphanum (by simp [Char.isAlphanum, hdigit]) hascii

namespace Dump

/-- A part of a key: a column, and how much of it the key covers if that is not all. -/
structure KeyPart where
  name : Text
  length : Option Nat
  deriving DecidableEq

namespace KeyPart

/-- The parenthesis that opens behind a name, and the length in it. -/
def opened (part : KeyPart) : Text := part.length.elim [] fun n => '(' :: ofNat n

/-- A part in front of the parenthesis that closes behind its length. -/
def front (part : KeyPart) : Text := quoteName part.name ++ part.opened

/-- A part as a clause writes it. -/
def text (part : KeyPart) : Text := part.front ++ part.length.elim [] fun _ => [')']

/-- The column that a part is read as. -/
def column (part : KeyPart) : Text := part.name ++ part.opened

end KeyPart

/-- The parts of a key up to the first one with a length. -/
def partsRead : List KeyPart → List KeyPart
  | [] => []
  | part :: others => if part.length = none then part :: partsRead others else [part]

/-- The clause of a primary key with these parts. -/
def keyPartsClause (parts : List KeyPart) : Text :=
  "PRIMARY KEY (" ++ join ", " (parts.map KeyPart.text) ++ ")"

variable {part : KeyPart} {parts : List KeyPart}

/-- In front of what closes it a part is made of its marks, the parenthesis that it opens, and word
characters. -/
theorem KeyPart.mem_front (hname : IsName part.name) {c : Char}
    (h : c ∈ part.front) : c = nameMark ∨ c = '(' ∨ isWord c := by
  rcases List.mem_append.1 h with h | h
  · have hc : c = nameMark ∨ c ∈ part.name := by simpa [quoteName, or_comm] using h
    exact hc.imp_right fun hmem => .inr (hname.isWord c hmem)
  · rcases hlength : part.length with _ | n
    · simp [opened, hlength] at h
    · have hc : c = '(' ∨ c ∈ ofNat n := by simpa [opened, hlength] using h
      exact .inr (hc.imp_right fun hmem => (isName_ofNat n).isWord c hmem)

/-- A character of another sort is not in it. -/
theorem KeyPart.not_mem_front (hname : IsName part.name) {c : Char} (hmark : c ≠ nameMark)
    (hopen : c ≠ '(') (hword : isWord c = false) : c ∉ part.front := by
  intro hmem
  rcases mem_front hname hmem with rfl | rfl | hc
  · exact hmark rfl
  · exact hopen rfl
  · simp [hword] at hc

/-- Without its marks it is the column that the part is read as. -/
theorem KeyPart.bareName_front (hname : IsName part.name) :
    bareName part.front = part.column := by
  have hblank : ∀ c ∈ part.front, ¬isBlank c := by
    intro c hc hblank
    rcases mem_front hname hc with rfl | rfl | hword
    · revert hblank; decide
    · revert hblank; decide
    · simp [isWord_eq_false_of_isBlank hblank] at hword
  have hmark : isQuote nameMark := by decide
  have hfilter : ∀ t : Text, (∀ c ∈ t, ¬isQuote c) → t.filter (!isQuote ·) = t := fun t ht =>
    List.filter_eq_self.2 fun c hc => by simpa using ht c hc
  have hopened : ∀ c ∈ part.opened, ¬isQuote c := by
    rcases hlength : part.length with _ | n
    · simp [opened, hlength]
    · have hopen : ¬isQuote '(' := by decide
      simpa [opened, hlength, hopen] using fun c => (isName_ofNat n).not_isQuote (c := c)
  rw [bareName, trim_eq_self (fun c hc => hblank c (List.mem_of_mem_head? hc))
    (fun c hc => hblank c (List.mem_of_mem_getLast? hc)), front, List.filter_append,
    hfilter _ hopened, column, quoteName]
  simp [hmark, hfilter part.name fun c => hname.not_isQuote]

theorem isPrefix_partsRead (parts : List KeyPart) : partsRead parts <+: parts := by
  induction parts with
  | nil => exact List.prefix_rfl
  | cons part others ih =>
      rw [partsRead]
      split
      · exact List.prefix_cons_inj part |>.2 ih
      · exact ⟨others, rfl⟩

theorem partsRead_ne_nil (hne : parts ≠ []) : partsRead parts ≠ [] := by
  obtain ⟨part, others, rfl⟩ := List.exists_cons_of_ne_nil hne
  rw [partsRead]
  split <;> simp

/-- All parts are read if none but the last has a length. -/
theorem partsRead_eq_self_iff : partsRead parts = parts ↔
    ∀ part ∈ parts.dropLast, part.length = none := by
  induction parts with
  | nil => simp [partsRead]
  | cons part others ih =>
      cases others with
      | nil => simp [partsRead]
      | cons next others =>
          rw [List.dropLast_cons_cons, List.forall_mem_cons, ← ih, partsRead]
          split
          · next hnone => simp [hnone]
          · next hlength => simp [hlength]

/-- Up to the first parenthesis that closes the list of a key lists the parts that are read. -/
theorem exists_join_text (hne : parts ≠ []) : ∃ rest, join ", " (parts.map KeyPart.text) ++ [')'] =
    join ", " ((partsRead parts).map KeyPart.front) ++ ')' :: rest := by
  induction parts with
  | nil => exact absurd rfl hne
  | cons part others ih =>
      rcases hlength : part.length with _ | n
      · have htext : part.text = part.front := by simp [KeyPart.text, hlength]
        rw [partsRead, if_pos hlength, List.map_cons, List.map_cons, htext]
        by_cases hnil : others = []
        · subst hnil
          exact ⟨[], rfl⟩
        · obtain ⟨rest, hrest⟩ := ih hnil
          have hread : partsRead others ≠ [] := partsRead_ne_nil hnil
          refine ⟨rest, ?_⟩
          rw [join_cons _ _ (by simpa using hnil), join_cons _ _ (by simpa using hread),
            List.append_assoc, hrest, List.append_assoc _ _ (')' :: rest)]
      · have htext : part.text = part.front ++ [')'] := by simp [KeyPart.text, hlength]
        have hread : partsRead (part :: others) = [part] := by simp [partsRead, hlength]
        have hjoin : join ", " ([part].map KeyPart.front) = part.front := by simp [join]
        rw [hread, hjoin, List.map_cons, htext]
        by_cases hnil : others = []
        · subst hnil
          exact ⟨[')'], by simp [join]⟩
        · refine ⟨", ".toList ++ join ", " (others.map KeyPart.text) ++ [')'], ?_⟩
          rw [join_cons _ _ (by simpa using hnil)]
          simp

/-- The columns that a primary key with these parts has when it is read. -/
def columnsRead (parts : List KeyPart) : List Text := (partsRead parts).map KeyPart.column

theorem isName_of_mem_partsRead (hnames : ∀ part ∈ parts, IsName part.name) :
    ∀ part ∈ partsRead parts, IsName part.name :=
  fun part hpart => hnames part ((isPrefix_partsRead parts).subset hpart)

/-- Neither a comma nor a closing parenthesis stands in a part as it is read. -/
theorem not_mem_front_of_mem_partsRead (hnames : ∀ part ∈ parts, IsName part.name) :
    ∀ part ∈ partsRead parts, ',' ∉ part.front ∧ ')' ∉ part.front := by
  intro part hpart
  have hname := isName_of_mem_partsRead hnames part hpart
  exact ⟨KeyPart.not_mem_front hname (by decide) (by decide) (by decide),
    KeyPart.not_mem_front hname (by decide) (by decide) (by decide)⟩

/-- What stands in front of the first parenthesis that closes is a list of the columns. -/
theorem keyColumns_front (hne : parts ≠ []) (hnames : ∀ part ∈ parts, IsName part.name) :
    keyColumns (join ", " ((partsRead parts).map KeyPart.front)) = columnsRead parts := by
  have hcomma : ∀ front ∈ (partsRead parts).map KeyPart.front, ',' ∉ front := by
    intro front hfront
    obtain ⟨part, hpart, rfl⟩ := List.mem_map.1 hfront
    exact (not_mem_front_of_mem_partsRead hnames part hpart).1
  rw [keyColumns_join_bareName (by simpa using partsRead_ne_nil hne) hcomma, List.map_map]
  exact List.map_congr_left fun part hpart =>
    KeyPart.bareName_front (isName_of_mem_partsRead hnames part hpart)

/-- Something is listed. -/
theorem join_front_ne_nil (hne : parts ≠ []) :
    join ", " ((partsRead parts).map KeyPart.front) ≠ [] := by
  obtain ⟨part, others, hread⟩ := List.exists_cons_of_ne_nil (partsRead_ne_nil hne)
  have hpart : part.front <:+: join ", " ((partsRead parts).map KeyPart.front) :=
    isInfix_join (by simp [hread])
  intro hnil
  rw [hnil, List.infix_nil] at hpart
  simp [KeyPart.front, quoteName] at hpart

/-- No closing parenthesis stands in front of the first one. -/
theorem paren_not_mem_join_front (hnames : ∀ part ∈ parts, IsName part.name) :
    ')' ∉ join ", " ((partsRead parts).map KeyPart.front) := by
  intro hmem
  rcases mem_join hmem with h | ⟨front, hfront, h⟩
  · revert h
    decide
  · obtain ⟨part, hpart, rfl⟩ := List.mem_map.1 hfront
    exact (not_mem_front_of_mem_partsRead hnames part hpart).2 h

/-- A closing parenthesis stands in no column. -/
theorem paren_not_mem_columnsRead (hnames : ∀ part ∈ parts, IsName part.name) :
    ∀ column ∈ columnsRead parts, ')' ∉ column := by
  intro column hcolumn hmem
  obtain ⟨part, hpart, rfl⟩ := List.mem_map.1 hcolumn
  rw [← KeyPart.bareName_front (isName_of_mem_partsRead hnames part hpart)] at hmem
  exact (not_mem_front_of_mem_partsRead hnames part hpart).2 (mem_of_mem_bareName hmem).1

/-- Each part has a column of its name if none but the last has a length. -/
theorem forall₂_columnsRead_iff :
    List.Forall₂ (fun part column => part.name <+: column) parts (columnsRead parts) ↔
      ∀ part ∈ parts.dropLast, part.length = none := by
  rw [← partsRead_eq_self_iff]
  constructor
  · intro h
    have hlength : (partsRead parts).length = parts.length := by
      simpa [columnsRead] using h.length_eq.symm
    exact (isPrefix_partsRead parts).eq_of_length hlength
  · intro h
    rw [columnsRead, h, List.forall₂_map_right_iff, List.forall₂_same]
    exact fun part _ => List.prefix_append part.name part.opened

/-- The columns are listed as the parts are if no part has a length. -/
theorem join_columnsRead_iff (hnames : ∀ part ∈ parts, IsName part.name) :
    join ", " ((columnsRead parts).map quoteName) = join ", " (parts.map KeyPart.text) ↔
      ∀ part ∈ parts, part.length = none := by
  constructor
  · intro heq part hpart
    -- A length brings a closing parenthesis into the list of the parts.
    by_contra hlength
    obtain ⟨n, hn⟩ := Option.ne_none_iff_exists'.1 hlength
    have htext : ')' ∈ part.text := by simp [KeyPart.text, hn]
    have hpart' : part.text <:+: join ", " (parts.map KeyPart.text) :=
      isInfix_join (List.mem_map_of_mem hpart)
    have hmem : ')' ∈ join ", " ((columnsRead parts).map quoteName) :=
      heq ▸ hpart'.subset htext
    obtain ⟨column, hcolumn, hparen⟩ := mem_join_quoteName hmem (by simp) (by decide)
    exact paren_not_mem_columnsRead hnames column hcolumn hparen
  · intro h
    have hread : partsRead parts = parts :=
      partsRead_eq_self_iff.2 fun part hpart => h part (List.dropLast_subset parts hpart)
    rw [columnsRead, hread, List.map_map]
    congr 1
    refine List.map_congr_left fun part hpart => ?_
    simp [KeyPart.column, KeyPart.text, KeyPart.front, KeyPart.opened, h part hpart]

/-- The parts of a key are read up to the first one with a length, so there is a column for each
part exactly if none but the last has a length. The statement that adds the key anew lists the same
parts exactly if none has a length at all. -/
theorem ofText_keyPartsClause (hne : parts ≠ []) (hnames : ∀ part ∈ parts, IsName part.name) :
    Clause.ofText (keyPartsClause parts) =
        .ok (.constraint (.primaryKey (columnsRead parts) (keyPartsClause parts))) ∧
      (List.Forall₂ (fun part column => part.name <+: column) parts (columnsRead parts) ↔
        ∀ part ∈ parts.dropLast, part.length = none) ∧
      ∀ table, ((Edit.addConstraint (.primaryKey (columnsRead parts) (keyPartsClause parts))).line
          table).text = "ALTER TABLE " ++ quoteName table ++ " ADD " ++ keyPartsClause parts ++ ";" ↔
        ∀ part ∈ parts, part.length = none := by
  refine ⟨?_, forall₂_columnsRead_iff, fun table => ?_⟩
  · obtain ⟨rest, hrest⟩ := exists_join_text hne
    have hclause : keyPartsClause parts =
        "PRIMARY KEY (" ++ (join ", " ((partsRead parts).map KeyPart.front) ++ ')' :: rest) := by
      rw [← hrest, ← List.append_assoc]
      rfl
    rw [ofText_primaryKeyList hclause (join_front_ne_nil hne)
      (paren_not_mem_join_front hnames), keyColumns_front hne hnames]
  · have hclause : (Constraint.primaryKey (columnsRead parts) (keyPartsClause parts)).clause =
        "PRIMARY KEY (" ++ join ", " ((columnsRead parts).map quoteName) ++ ")" := rfl
    -- Around the two lists stands the same text.
    have hlist : ∀ front read written back : Text,
        front ++ ("PRIMARY KEY (" ++ read ++ ")") ++ back =
          front ++ ("PRIMARY KEY (" ++ written ++ ")") ++ back ↔ read = written := by simp
    simp only [Edit.line, Line.text, hclause]
    exact (hlist _ _ _ _).trans (join_columnsRead_iff hnames)

/-- Parts without lengths. -/
def wholeParts : List KeyPart := [⟨"tenant", none⟩, ⟨"id", none⟩]

/-- They come back as they were listed. -/
theorem ofText_wholeParts :
    Clause.ofText "PRIMARY KEY (`tenant`, `id`)" =
        .ok (.constraint (.primaryKey ["tenant", "id"] "PRIMARY KEY (`tenant`, `id`)")) ∧
      ∀ table, ((Edit.addConstraint (.primaryKey ["tenant", "id"]
          "PRIMARY KEY (`tenant`, `id`)")).line table).text =
        "ALTER TABLE " ++ quoteName table ++ " ADD PRIMARY KEY (`tenant`, `id`);" := by
  have hclause : keyPartsClause wholeParts = "PRIMARY KEY (`tenant`, `id`)" := by decide +kernel
  have hcolumns : columnsRead wholeParts = ["tenant".toList, "id".toList] := by decide +kernel
  have hne : wholeParts ≠ [] := by decide
  have hnames : ∀ part ∈ wholeParts, IsName part.name := by decide +kernel
  obtain ⟨hread, -, hline⟩ := ofText_keyPartsClause hne hnames
  rw [hclause, hcolumns] at hread hline
  refine ⟨hread, fun table => ?_⟩
  have htext := (hline table).2 (by decide +kernel)
  rw [htext]
  simp

/-- A part with a length in front of one without. -/
def mixedParts : List KeyPart := [⟨"a", some 10⟩, ⟨"b", none⟩]

/-- They are read as one column that has the length in its name, and the statement that adds the key
is over that column. -/
theorem not_readInFull_mixedParts :
    keyPartsClause mixedParts = "PRIMARY KEY (`a`(10), `b`)" ∧
      Clause.ofText "PRIMARY KEY (`a`(10), `b`)" =
        .ok (.constraint (.primaryKey ["a(10"] "PRIMARY KEY (`a`(10), `b`)")) ∧
      ((Edit.addConstraint (.primaryKey ["a(10"] "PRIMARY KEY (`a`(10), `b`)")).line "t").text =
        "ALTER TABLE `t` ADD PRIMARY KEY (`a(10`);" := by
  decide +kernel

end Dump

end SchemaDelta
