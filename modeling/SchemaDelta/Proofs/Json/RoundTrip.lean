import Mathlib.Tactic.SplitIfs
import SchemaDelta.Json.Printer
import SchemaDelta.Json.Reader
import SchemaDelta.Proofs.Text.Pieces

/-!
# Reading what was printed

A printed value is read back whatever text comes behind it, as each of the forms tells by its
own characters where it ends: a string by a quotation mark, since the ones inside are escaped,
an array and an object by the closing bracket. This is shown form by form, for values made up of
values of which it is known. Numbers are left out: their literals are kept as written and can be
anything, and only what comes behind decides where a literal ends.
-/

namespace SchemaDelta.Json

open Reader

/-! ## Strings -/

section Strings

variable {c : Char} (rest : Text)

/-- A backslash and a letter stand for one character. -/
theorem stringUnits_letter {e : Char} (he : e ≠ 'u') (h : escaped? e = some c) :
    stringUnits ('\\' :: e :: rest) =
      (stringUnits rest).map fun found => (.char c :: found.1, found.2) := by
  rw [stringUnits]
  · rw [h]
    cases stringUnits rest <;> rfl
  · exact fun _ _ _ _ _ heq => absurd heq he

/-- The four digits of a code stand for one character if it is no half of a pair. -/
theorem stringUnits_code {a b d e : Char} {code : Nat} (h : hexNumber? [a, b, d, e] = some code)
    (hcode : StringUnit.ofCode code = .char c) :
    stringUnits ('\\' :: 'u' :: a :: b :: d :: e :: rest) =
      (stringUnits rest).map fun found => (.char c :: found.1, found.2) := by
  rw [stringUnits, h]
  cases stringUnits rest with
  | none => rfl
  | some found => simp [hcode]

/-- Any other character stands for itself. -/
theorem stringUnits_self (hquote : c ≠ '\x22') (hslash : c ≠ '\\') (hcontrol : ¬c.toNat < 0x20) :
    stringUnits (c :: rest) =
      (stringUnits rest).map fun found => (.char c :: found.1, found.2) := by
  rw [stringUnits]
  · rw [if_neg hquote, if_neg hcontrol]
    cases stringUnits rest <;> rfl
  · exact fun heq => absurd heq hslash
  · exact fun _ _ _ _ _ heq => absurd heq hslash
  · exact fun _ _ heq => absurd heq hslash

/-- The code of a control character is that of the character. -/
theorem hexNumber?_control {n : Nat} (h : n < 0x20) :
    hexNumber? ['0', '0', Nat.digitChar (n / 16), Nat.digitChar (n % 16)] = some n := by
  revert n
  decide

/-- A character as a string shows it is read as the character. -/
theorem stringUnits_escapeChar (c : Char) (rest : Text) :
    stringUnits (escapeChar c ++ rest) =
      (stringUnits rest).map fun found => (.char c :: found.1, found.2) := by
  unfold escapeChar
  split_ifs with hquote hslash hfeed hreturn htab hback hform hcontrol
  · exact stringUnits_letter rest (by decide) (by rw [hquote]; rfl)
  · exact stringUnits_letter rest (by decide) (by rw [hslash]; rfl)
  · exact stringUnits_letter rest (by decide) (by rw [hfeed]; rfl)
  · exact stringUnits_letter rest (by decide) (by rw [hreturn]; rfl)
  · exact stringUnits_letter rest (by decide) (by rw [htab]; rfl)
  · exact stringUnits_letter rest (by decide) (by rw [hback]; rfl)
  · exact stringUnits_letter rest (by decide) (by rw [hform]; rfl)
  · refine stringUnits_code rest (hexNumber?_control hcontrol) ?_
    rw [StringUnit.ofCode, if_neg (by omega), Char.ofNat_toNat]
  · exact stringUnits_self rest hquote hslash hcontrol

/-- A text behind an opening quotation mark is read up to the closing one, character by
character. -/
theorem stringUnits_flatMap (t rest : Text) :
    stringUnits (t.flatMap escapeChar ++ '\x22' :: rest) = some (t.map .char, rest) := by
  induction t with
  | nil => rfl
  | cons c t ih =>
      rw [List.flatMap_cons, List.append_assoc, stringUnits_escapeChar, ih]
      rfl

/-- Characters spell the text that they make up. -/
theorem textOfUnits_map_char (t : Text) : textOfUnits (t.map .char) = some t := by
  induction t with
  | nil => rfl
  | cons c t ih =>
      rw [List.map_cons, textOfUnits, ih]
      rfl

/-- A printed text is read as the text. -/
theorem stringBody_flatMap (t rest : Text) :
    stringBody (t.flatMap escapeChar ++ '\x22' :: rest) = some (some t, rest) := by
  rw [stringBody, stringUnits_flatMap]
  exact congrArg (fun found => some (found, rest)) (textOfUnits_map_char t)

theorem printString_append (t rest : Text) :
    printString t ++ rest = '\x22' :: (t.flatMap escapeChar ++ '\x22' :: rest) := by
  rw [printString, List.append_assoc, List.cons_append, List.singleton_append]

end Strings

/-! ## Blanks -/

/-- Blanks in front are passed over, but nothing else. -/
theorem skipBlanks_append {blanks : Text} (hblanks : ∀ c ∈ blanks, isBlank c) {c : Char}
    (hc : isBlank c = false) (rest : Text) : skipBlanks (blanks ++ c :: rest) = c :: rest := by
  rw [skipBlanks, List.dropWhile_append_of_pos hblanks, List.dropWhile_cons_of_neg (by simp [hc])]

theorem skipBlanks_cons {c : Char} (hc : isBlank c = false) (rest : Text) :
    skipBlanks (c :: rest) = c :: rest :=
  skipBlanks_append (List.forall_mem_nil _) hc rest

theorem printString_length (t : Text) : 0 < (printString t).length := by
  simp [printString]

theorem isBlank_of_mem_lineBreak {layout : Layout} {depth : Nat} {c : Char}
    (h : c ∈ layout.lineBreak depth) : isBlank c := by
  cases layout with
  | compact => simp [Layout.lineBreak] at h
  | pretty =>
      rcases List.mem_cons.1 h with rfl | h
      · rfl
      · obtain rfl := List.eq_of_mem_replicate h
        rfl

theorem skipBlanks_lineBreak_printString (layout : Layout) (depth : Nat) (key rest : Text) :
    skipBlanks (layout.lineBreak depth ++ (printString key ++ rest)) = printString key ++ rest := by
  rw [printString_append]
  exact skipBlanks_append (fun _ => isBlank_of_mem_lineBreak) rfl _

/-! ## Values -/

/-- Whatever follows a printed value, it is read as the value if there is fuel for each of its
characters. It starts neither with a blank nor like the end of an array. -/
structure Value.Reads (v : Value) : Prop where
  starts : ∀ layout depth, ∃ c,
    (v.print layout depth).head? = some c ∧ isBlank c = false ∧ c ≠ ']'
  read : ∀ layout depth fuel rest, (v.print layout depth).length ≤ fuel →
    value fuel (v.print layout depth ++ rest) = some (v, rest)

theorem Value.Reads.exists_cons {v : Value} (h : v.Reads) (layout : Layout) (depth : Nat) :
    ∃ c behind, v.print layout depth = c :: behind ∧ isBlank c = false ∧ c ≠ ']' := by
  obtain ⟨c, hhead, hc⟩ := h.starts layout depth
  obtain ⟨behind, heq⟩ := List.head?_eq_some_iff.1 hhead
  exact ⟨c, behind, heq, hc⟩

theorem Value.Reads.skipBlanks_append {v : Value} (h : v.Reads) {blanks : Text}
    (hblanks : ∀ c ∈ blanks, isBlank c) (layout : Layout) (depth : Nat) (rest : Text) :
    skipBlanks (blanks ++ (v.print layout depth ++ rest)) = v.print layout depth ++ rest := by
  obtain ⟨c, behind, heq, hc, -⟩ := h.exists_cons layout depth
  rw [heq]
  exact Json.skipBlanks_append hblanks hc _

/-- A word is read as what it stands for. -/
theorem Value.reads_word {v : Value} {c : Char} {word : Text}
    (hprint : ∀ layout depth, v.print layout depth = c :: word) (hc : isBlank c = false)
    (hother : c ≠ '\x22' ∧ c ≠ '[' ∧ c ≠ ']' ∧ c ≠ '\x7b')
    (hrun : ∀ rest, scalar.run (c :: word ++ rest) = some (v, rest)) : v.Reads where
  starts layout depth := ⟨c, by rw [hprint]; rfl, hc, hother.2.2.1⟩
  read layout depth fuel rest hfuel := by
    rw [hprint] at hfuel ⊢
    cases fuel with
    | zero => simp at hfuel
    | succ fuel =>
      rw [List.cons_append, value]
      · exact hrun rest
      · exact fun _ heq => absurd (List.cons.inj heq).1 hother.1
      · exact fun _ heq => absurd (List.cons.inj heq).1 hother.2.1
      · exact fun _ heq => absurd (List.cons.inj heq).1 hother.2.2.2

theorem Value.reads_null : Value.null.Reads :=
  reads_word (fun _ _ => Value.print.eq_1 _ _) rfl (by decide) fun _ => rfl

theorem Value.reads_bool (b : Bool) : (Value.bool b).Reads := by
  cases b with
  | true => exact reads_word (fun _ _ => Value.print.eq_2 _ _) rfl (by decide) fun _ => rfl
  | false => exact reads_word (fun _ _ => Value.print.eq_3 _ _) rfl (by decide) fun _ => rfl

/-- A text is read as a string. -/
theorem Value.reads_string (t : Text) : (Value.string t).Reads where
  starts layout depth := ⟨'\x22', by rw [Value.print]; rfl, rfl, by decide⟩
  read layout depth fuel rest hfuel := by
    rw [Value.print] at hfuel ⊢
    cases fuel with
    | zero => simp [printString] at hfuel
    | succ fuel => rw [printString_append, value, stringBody_flatMap, Option.map_some]

/-! ## Arrays -/

/-- The items behind one are read up to the closing bracket. -/
theorem moreItems_printItems {items : List Value} (h : ∀ item ∈ items, item.Reads)
    {layout : Layout} {depth fuel : Nat} (hfuel : (printItems layout depth items).length ≤ fuel)
    {close : Text} (hclose : ∀ c ∈ close, isBlank c) (rest : Text) :
    moreItems fuel (skipBlanks (printItems layout depth items ++ (close ++ ']' :: rest))) =
      some (items, rest) := by
  induction items generalizing fuel with
  | nil =>
      rw [printItems, List.nil_append, skipBlanks_append hclose rfl]
      cases fuel <;> rw [moreItems]
  | cons item others ih =>
      have hitem := h item List.mem_cons_self
      rw [printItems] at hfuel ⊢
      simp only [List.cons_append, List.append_assoc, List.length_cons, List.length_append]
        at hfuel ⊢
      cases fuel with
      | zero => omega
      | succ fuel =>
        rw [skipBlanks_cons rfl, moreItems,
          hitem.skipBlanks_append fun _ => isBlank_of_mem_lineBreak,
          hitem.read _ _ _ _ (by omega)]
        show (moreItems fuel _).bind _ = _
        rw [ih (fun other hother => h other (List.mem_cons_of_mem _ hother)) (by omega)]
        rfl

/-- An array of what is read is read. -/
theorem Value.reads_array {items : List Value} (h : ∀ item ∈ items, item.Reads) :
    (Value.array items).Reads where
  starts layout depth := by
    cases items with
    | nil => exact ⟨'[', by rw [Value.print]; rfl, rfl, by decide⟩
    | cons item others => exact ⟨'[', by rw [Value.print]; rfl, rfl, by decide⟩
  read layout depth fuel rest hfuel := by
    cases items with
    | nil =>
        rw [Value.print] at hfuel ⊢
        cases fuel with
        | zero => simp at hfuel
        | succ fuel =>
          rw [List.cons_append, List.singleton_append, value, skipBlanks_cons rfl]
          rfl
    | cons item others =>
        have hitem := h item List.mem_cons_self
        obtain ⟨c, behind, heq, -, hc⟩ := hitem.exists_cons layout (depth + 1)
        rw [Value.print] at hfuel ⊢
        simp only [List.cons_append, List.append_assoc, List.length_cons, List.length_append,
          List.nil_append] at hfuel ⊢
        cases fuel with
        | zero => omega
        | succ fuel =>
          rw [value, hitem.skipBlanks_append fun _ => isBlank_of_mem_lineBreak]
          -- The first item does not start like the end of the array.
          split
          · next heq' =>
            rw [heq, List.cons_append] at heq'
            exact absurd (List.cons.inj heq').1 hc
          · rw [hitem.read _ _ _ _ (by omega)]
            show (moreItems fuel _).bind _ = _
            rw [moreItems_printItems (fun other hother => h other (List.mem_cons_of_mem _ hother))
              (by omega) fun _ => isBlank_of_mem_lineBreak]
            rfl

/-! ## Objects -/

/-- Members whose keys are texts make up an object. -/
theorem Value.ofMembers_map (members : List (Text × Value)) :
    Value.ofMembers (members.map fun entry => (some entry.1, entry.2)) = .object members := by
  have hmembers : (members.map fun entry => (some entry.1, entry.2)).mapM
      (fun member : Option Text × Value => member.1.map (·, member.2)) = some members :=
    mapM_map_self fun _ => rfl
  rw [Value.ofMembers, hmembers]

/-- A key, the colon and a value are read. -/
theorem member_print {v : Value} (h : v.Reads) (key : Text) {layout : Layout} {depth fuel : Nat}
    (hfuel : (v.print layout depth).length < fuel) (rest : Text) :
    member fuel (printString key ++ (layout.colon ++ (v.print layout depth ++ rest))) =
      some ((some key, v), rest) := by
  cases fuel with
  | zero => omega
  | succ fuel =>
    have hcolon : ∃ blanks : Text, layout.colon = ':' :: blanks ∧ ∀ c ∈ blanks, isBlank c := by
      cases layout with
      | compact => exact ⟨[], rfl, List.forall_mem_nil _⟩
      | pretty => exact ⟨[' '], rfl, List.forall_mem_singleton.2 rfl⟩
    obtain ⟨blanks, hcolon, hblanks⟩ := hcolon
    rw [printString_append, member, stringBody_flatMap, hcolon, List.cons_append]
    dsimp only [Option.bind_eq_bind, Option.bind_some]
    rw [skipBlanks_cons rfl]
    show (value fuel (skipBlanks _)).bind _ = _
    rw [h.skipBlanks_append hblanks, h.read _ _ _ _ (by omega)]
    rfl

/-- The members behind one are read up to the closing brace. -/
theorem moreMembers_printMembers {members : List (Text × Value)}
    (h : ∀ entry ∈ members, entry.2.Reads) {layout : Layout} {depth fuel : Nat}
    (hfuel : (printMembers layout depth members).length ≤ fuel) {close : Text}
    (hclose : ∀ c ∈ close, isBlank c) (rest : Text) :
    moreMembers fuel
        (skipBlanks (printMembers layout depth members ++ (close ++ '\x7d' :: rest))) =
      some (members.map fun entry => (some entry.1, entry.2), rest) := by
  induction members generalizing fuel with
  | nil =>
      rw [printMembers, List.nil_append, skipBlanks_append hclose rfl]
      cases fuel <;> rw [moreMembers] <;> rfl
  | cons entry others ih =>
      obtain ⟨key, v⟩ := entry
      have hv : v.Reads := h (key, v) List.mem_cons_self
      rw [printMembers] at hfuel ⊢
      simp only [List.cons_append, List.append_assoc, List.length_cons, List.length_append]
        at hfuel ⊢
      cases fuel with
      | zero => omega
      | succ fuel =>
        rw [skipBlanks_cons rfl, moreMembers, skipBlanks_lineBreak_printString,
          member_print hv key (by have := printString_length key; omega)]
        show (moreMembers fuel _).bind _ = _
        rw [ih (fun other hother => h other (List.mem_cons_of_mem _ hother)) (by omega)]
        rfl

/-- An object of what is read is read. -/
theorem Value.reads_object {members : List (Text × Value)}
    (h : ∀ entry ∈ members, entry.2.Reads) : (Value.object members).Reads where
  starts layout depth := by
    cases members with
    | nil => exact ⟨'\x7b', by rw [Value.print]; rfl, rfl, by decide⟩
    | cons entry others => exact ⟨'\x7b', by rw [Value.print]; rfl, rfl, by decide⟩
  read layout depth fuel rest hfuel := by
    cases members with
    | nil =>
        rw [Value.print] at hfuel ⊢
        cases fuel with
        | zero => simp at hfuel
        | succ fuel =>
          rw [List.cons_append, List.singleton_append, value, skipBlanks_cons rfl]
          rfl
    | cons entry others =>
        obtain ⟨key, v⟩ := entry
        have hv : v.Reads := h (key, v) List.mem_cons_self
        rw [Value.print] at hfuel ⊢
        simp only [List.cons_append, List.append_assoc, List.length_cons, List.length_append,
          List.nil_append] at hfuel ⊢
        cases fuel with
        | zero => omega
        | succ fuel =>
          rw [value, skipBlanks_lineBreak_printString]
          -- The first key starts with a quotation mark and not like the end of the object.
          split
          · next heq =>
            rw [printString_append] at heq
            exact absurd (List.cons.inj heq).1 (by decide)
          · rw [member_print hv key (by have := printString_length key; omega)]
            show (moreMembers fuel _).bind _ = _
            rw [moreMembers_printMembers
              (fun other hother => h other (List.mem_cons_of_mem _ hother)) (by omega)
              fun _ => isBlank_of_mem_lineBreak]
            exact congrArg (fun v => some (v, rest)) (ofMembers_map ((key, v) :: others))

/-! ## Texts -/

/-- The text of a value spells the value. -/
theorem read?_toText {v : Value} (h : v.Reads) (layout : Layout) :
    read? (v.toText layout) = some v := by
  have hskip : skipBlanks (v.toText layout) = v.toText layout := by
    have hskip := h.skipBlanks_append (List.forall_mem_nil _) layout 0 []
    rwa [List.nil_append, List.append_nil] at hskip
  have hread : value (2 * (v.toText layout).length + 1) (v.toText layout) = some (v, []) := by
    have hread := h.read layout 0 (2 * (v.toText layout).length + 1) [] (by
      rw [Value.toText]
      omega)
    rwa [List.append_nil] at hread
  rw [read?, hskip, hread]
  rfl

end SchemaDelta.Json
