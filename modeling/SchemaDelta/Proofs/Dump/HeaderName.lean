import Mathlib.Data.Bool.AllAny
import SchemaDelta.Proofs.Sql.Phrase
import SchemaDelta.Proofs.Sql.Spelled

/-!
# Names in headers

Headers of one kind are written in many ways: the keywords in any case and with any blanks between
them, some of them only in some headers, and the name with a qualifier and marks or without. A name
may also look like a keyword that could stand in front of it. `Heads` says which texts are headers
and which name is in them, without asking how they are read, and `captured_of_heads` that it is this
name that is read.
-/

namespace SchemaDelta.Dump

open Sql Text Reader HeaderPart

/-! ## Names as headers write them -/

/-- A name as a header writes it, behind a qualifier or without one. -/
structure ObjectName where
  qualifier : Option (NameStyle × Text)
  style : NameStyle
  name : Text
  deriving DecidableEq

namespace ObjectName

/-- The qualifier with the dot behind it. -/
def front (object : ObjectName) : Text :=
  object.qualifier.elim [] fun qualifier => qualifier.1.write qualifier.2 ++ ['.']

/-- The name as it is written. -/
def text (object : ObjectName) : Text := object.front ++ object.style.write object.name

/-- The name and the qualifier are names. -/
structure Lawful (object : ObjectName) : Prop where
  isName : IsName object.name
  isName_qualifier : ∀ qualifier ∈ object.qualifier, IsName qualifier.2

/-- A name in name marks, without a qualifier. -/
def quoted (name : Text) : ObjectName := ⟨none, .inNameMarks, name⟩

theorem text_quoted (name : Text) : (quoted name).text = quoteName name := rfl

theorem lawful_quoted {name : Text} (hname : IsName name) : (quoted name).Lawful :=
  ⟨hname, by simp [quoted]⟩

end ObjectName

/-- The text goes on with what cannot belong to a name, its marks or a qualifier. -/
def EndsName (t : Text) : Prop := ∀ c ∈ t.head?, ¬isWord c ∧ c ∉ '.' :: nameMarks

/-- A parenthesis opens in front of the text or behind blanks. -/
def OpensBody (t : Text) : Prop := (trimStart t).head? = some '('

variable {object : ObjectName} {name rest : Text}

/-- What begins with a blank ends a name. -/
theorem endsName_of_blank (h : rest.head?.any isBlank) : EndsName rest := by
  intro c hc
  have hblank : isBlank c := by simpa [Option.mem_def.1 hc] using h
  refine ⟨by simp [isWord_eq_false_of_isBlank hblank], ?_⟩
  rw [List.mem_cons, not_or]
  refine ⟨fun hdot => ?_, not_mem_nameMarks_of_isBlank hblank⟩
  subst hdot
  exact absurd hblank (by decide)

/-- A body opens at once or behind a blank. -/
theorem OpensBody.exists_cons (h : OpensBody rest) :
    ∃ c others, rest = c :: others ∧ (c = '(' ∨ isBlank c) := by
  cases rest with
  | nil => simp [OpensBody, trimStart] at h
  | cons c others =>
      refine ⟨c, others, rfl, ?_⟩
      by_cases hc : isBlank c
      · exact .inr hc
      · rw [OpensBody, trimStart, List.dropWhile_cons_of_neg hc] at h
        exact .inl (by simpa using h)

theorem OpensBody.endsName (h : OpensBody rest) : EndsName rest := by
  obtain ⟨c, others, rfl, rfl | hblank⟩ := h.exists_cons
  · intro d hd
    obtain rfl : '(' = d := by simpa using hd
    decide
  · exact endsName_of_blank (by simpa using hblank)

/-- Behind a name without a dot no qualifier is read. -/
theorem run_qualifier_eq_none (style : NameStyle) (hname : IsName name) (hrest : EndsName rest) :
    qualifier.run (style.write name ++ rest) = none := by
  have hnotMark : ∀ c ∈ rest.head?, c ∉ nameMarks := fun c hc hmem =>
    (hrest c hc).2 (List.mem_cons_of_mem '.' hmem)
  have hdot : (char '.').run rest = none := by
    cases hcons : rest with
    | nil => rfl
    | cons c others =>
        have hc : c ≠ '.' := fun heq => (hrest c (by simp [hcons])).2 (heq ▸ List.mem_cons_self)
        simp [char, StateT.run, hc]
  unfold qualifier
  have hend : ∀ c ∈ (style.mark ++ rest).head?, ¬isWord c :=
    style.head?_mark_append fun c hc => (hrest c hc).1
  rw [StateT.run_bind, run_markedName style hname hend]
  show (mark nameMarks >>= fun _ => char '.').run (style.mark ++ rest) = none
  rw [StateT.run_bind, style.run_mark hnotMark]
  exact hdot

/-- A qualifier is taken with the dot behind it. -/
theorem run_qualifier (style : NameStyle) (hname : IsName name) (rest : Text) :
    qualifier.run (style.write name ++ '.' :: rest) = some ((), rest) := by
  have hdot : ∀ c ∈ (style.mark ++ '.' :: rest).head?, ¬isWord c :=
    style.head?_mark_append (by simp; decide)
  have hnotMark : ∀ c ∈ ('.' :: rest).head?, c ∉ nameMarks := by simp; decide
  refine run_bind_eq_some_iff.2 ⟨_, _, run_markedName style hname hdot, ?_⟩
  refine run_bind_eq_some_iff.2 ⟨_, _, style.run_mark hnotMark, ?_⟩
  exact run_char_self '.' rest

/-- The name of a table is read without its qualifier. -/
theorem run_tableName (hobject : object.Lawful) (hrest : EndsName rest) :
    tableName.run (object.text ++ rest) = some (object.name, object.style.mark ++ rest) := by
  obtain ⟨qualified, style, name⟩ := object
  have hname : markedName.run (style.write name ++ rest) = some (name, style.mark ++ rest) :=
    run_markedName style hobject.isName (style.head?_mark_append fun c hc => (hrest c hc).1)
  cases qualified with
  | none =>
      have hnone : (do qualifier; markedName : Reader Text).run (style.write name ++ rest) =
          none := by
        rw [StateT.run_bind, run_qualifier_eq_none style hobject.isName hrest]
        rfl
      show (tableName).run (style.write name ++ rest) = _
      rw [tableName, run_orElse, hnone, hname]
      rfl
  | some qualified =>
      obtain ⟨outer, qualifierName⟩ := qualified
      have htext : (⟨some (outer, qualifierName), style, name⟩ : ObjectName).text ++ rest =
          outer.write qualifierName ++ '.' :: (style.write name ++ rest) := by
        simp [ObjectName.text, ObjectName.front]
      have hqualified : (do qualifier; markedName : Reader Text).run
          (outer.write qualifierName ++ '.' :: (style.write name ++ rest)) =
            some (name, style.mark ++ rest) :=
        run_bind_eq_some_iff.2 ⟨(), _,
          run_qualifier outer (hobject.isName_qualifier _ rfl) _, hname⟩
      rw [htext, tableName, run_orElse, hqualified]
      rfl

/-- No blank stands in a name with its qualifier. -/
theorem ObjectName.Lawful.not_isBlank (h : object.Lawful) : ∀ c ∈ object.text, ¬isBlank c := by
  intro c hc
  rcases List.mem_append.1 hc with hc | hc
  · cases hqualifier : object.qualifier with
    | none => simp [ObjectName.front, hqualifier] at hc
    | some qualifier =>
        have hc' : c ∈ qualifier.1.write qualifier.2 ∨ c = '.' := by
          simpa [ObjectName.front, hqualifier] using hc
        rcases hc' with hc | rfl
        · exact qualifier.1.not_isBlank_write (h.isName_qualifier qualifier hqualifier) c hc
        · decide
  · exact object.style.not_isBlank_write h.isName c hc

/-- Nor in front of one. -/
theorem ObjectName.Lawful.head? (h : object.Lawful) (rest : Text) :
    ∀ c ∈ (object.text ++ rest).head?, ¬isBlank c := by
  have hne : object.text ≠ [] := by
    intro hnil
    have hwrite := (List.append_eq_nil_iff.1 hnil).2
    exact h.isName.ne_nil (by simpa [NameStyle.write] using congrArg (object.name <:+: ·) hwrite)
  obtain ⟨c, others, hcons⟩ := List.exists_cons_of_ne_nil hne
  have hc := h.not_isBlank c (by simp [hcons])
  simpa [hcons] using hc

/-! ## Keywords that are not there -/

/-- The words `IF NOT EXISTS` are not read from a name, even if it is called as the first of them,
since a body opens behind it. -/
theorem run_ifNotExists_eq_none {place : Text} (hplace : ∀ c ∈ place, ¬isBlank c)
    (hrest : OpensBody rest) : ifNotExists.run (place ++ rest) = none := by
  have hparenthesis : ∀ t : Text, (keyword "NOT").run ('(' :: t) = none := fun _ => rfl
  have hkeyword : IsKeyword "IF" := by decide
  rw [Option.eq_none_iff_forall_ne_some]
  rintro ⟨_, left⟩ hrun
  obtain ⟨_, behind, hif, hrun⟩ := run_bind_eq_some_iff.1 hrun
  obtain ⟨_, _, hgap, hrun⟩ := run_bind_eq_some_iff.1 hrun
  obtain ⟨_, _, hnot, -⟩ := run_bind_eq_some_iff.1 hrun
  obtain ⟨hblank, rfl⟩ := eq_trimStart_of_run_gap hgap
  obtain ⟨spelling, heq, hspelling⟩ := run_keyword_inv hif
  obtain ⟨blank, more, rfl⟩ : ∃ blank more, behind = blank :: more := by
    cases behind with
    | nil => simp at hblank
    | cons blank more => exact ⟨blank, more, rfl⟩
  replace hblank : isBlank blank := by simpa using hblank
  obtain ⟨c, others, rfl, rfl | hc⟩ := hrest.exists_cons
  · -- The blank behind the keyword would have to stand in the name.
    have hnotMem := hkeyword.not_mem_spelled (c := '(') (by decide) (by decide) hspelling hblank
    have hspoken : spelling ++ [blank] <+: place ++ '(' :: others :=
      ⟨more, by rw [heq]; simp⟩
    have hmem := (isPrefix_of_append_cons hspoken hnotMem).subset (by simp : blank ∈ _)
    exact hplace blank hmem hblank
  · have hfront : ∀ d ∈ spelling, ¬isBlank d := by
      intro d hd hblank'
      refine hkeyword.not_mem (isUpper_keywordFold_of_isBlank hblank') ?_
      exact hspelling ▸ List.mem_map_of_mem hd
    obtain rfl := eq_of_append_blank hplace hfront hc hblank heq
    obtain ⟨rfl, rfl⟩ := List.cons.inj (List.append_cancel_left heq)
    cases hbody : trimStart (c :: others) with
    | nil => simp [OpensBody, hbody] at hrest
    | cons d body =>
        obtain rfl : d = '(' := by simpa [OpensBody, hbody] using hrest
        rw [hbody, hparenthesis] at hnot
        simp at hnot

/-- The name is the word `ONLY`, in some case, without marks and without a qualifier. -/
def ObjectName.IsBareOnly (object : ObjectName) : Prop :=
  object.qualifier = none ∧ object.style = .bare ∧ sameCaseless object.name "ONLY"

/-- Only such a name spells the word. -/
theorem ObjectName.isBareOnly_of_spelling (h : object.text.map keywordFold = "ONLY") :
    object.IsBareOnly := by
  have hkeyword : IsKeyword "ONLY" := by decide
  have hnotMem : ∀ c, (keywordFold c).isUpper = false → c ∉ object.text := fun c hc hmem =>
    hkeyword.not_mem hc (h ▸ List.mem_map_of_mem hmem)
  have hqualifier : object.qualifier = none := by
    rw [Option.eq_none_iff_forall_ne_some]
    intro qualifier hsome
    refine hnotMem '.' (by decide) (List.mem_append_left _ ?_)
    simp [front, hsome]
  have hstyle : object.style = .bare := by
    by_contra hstyle
    obtain ⟨c, hmark, hc⟩ := NameStyle.exists_mem_mark hstyle
    refine hnotMem c hc (List.mem_append_right _ ?_)
    simp [NameStyle.write, hmark]
  have htext : object.text = object.name := by
    rw [text, front, hqualifier, hstyle, NameStyle.write_bare]
    rfl
  refine ⟨hqualifier, hstyle, ?_⟩
  rw [htext] at h
  rw [sameCaseless, upper_of_spelling (by decide) h]
  decide

/-- So the word `ONLY` is not read from any other name. -/
theorem run_only_eq_none (hobject : object.Lawful) (honly : ¬object.IsBareOnly)
    (hrest : rest.head?.any isBlank) {α : Type} (r : Reader α) :
    (do keyword "ONLY"; gap; r).run (object.text ++ rest) = none := by
  have hkeyword : IsKeyword "ONLY" := by decide
  cases rest with
  | nil => simp at hrest
  | cons c others =>
      rw [← Option.not_isSome_iff_eq_none]
      intro hrun
      have hspelling := hkeyword.map_keywordFold_eq hobject.not_isBlank (by simpa using hrest) hrun
      exact honly (ObjectName.isBareOnly_of_spelling hspelling)

/-! ## Headers of tables -/

/-- What stands in front of the name of a table that is created. -/
def createTableParts (temporary guarded : Bool) : List HeaderPart :=
  .plain "CREATE" :: ((if temporary then [.plain "TEMPORARY"] else []) ++
    .plain "TABLE" :: if guarded then [.plain "IF", .plain "NOT", .plain "EXISTS"] else [])

/-- What stands in front of the name of a table that is altered. -/
def alterTableParts (only : Bool) : List HeaderPart :=
  .plain "ALTER" :: .plain "TABLE" :: if only then [.plain "ONLY"] else []

theorem lawful_createTableParts (temporary guarded : Bool) :
    ∀ part ∈ createTableParts temporary guarded, part.Lawful := by
  cases temporary <;> cases guarded <;> decide

theorem lawful_alterTableParts (only : Bool) : ∀ part ∈ alterTableParts only, part.Lawful := by
  cases only <;> decide

theorem spelled_createTable : Spelled (createTableParts false false) "CREATE TABLE " :=
  .cons_space "CREATE" (by decide) (.cons_space "TABLE" (by decide) .nil)

theorem spelled_alterTable : Spelled (alterTableParts false) "ALTER TABLE " :=
  .cons_space "ALTER" (by decide) (.cons_space "TABLE" (by decide) .nil)

variable {front : Text}

/-- The words `IF NOT EXISTS` are taken. -/
theorem run_ifNotExists {t back : Text}
    (h : Spelled [.plain "IF", .plain "NOT", .plain "EXISTS"] t)
    (hback : ∀ c ∈ back.head?, ¬isBlank c) : ifNotExists.run (t ++ back) = some ((), back) := by
  obtain ⟨_, h, hif⟩ := h.run_keyword_gap (by decide) hback
  obtain ⟨_, h, hnot⟩ := h.run_keyword_gap (by decide) hback
  obtain ⟨_, h, hexists⟩ := h.run_last_keyword_gap (by decide) hback
  cases h
  rw [ifNotExists, hif, hnot, hexists]
  rfl

/-- The name of a table that is created is read. -/
theorem run_createdTable {temporary guarded : Bool} (hobject : object.Lawful)
    (hfront : Spelled (createTableParts temporary guarded) front) (hrest : OpensBody rest) :
    createdTable.run (front ++ (object.text ++ rest)) =
      some (object.name, object.style.mark ++ rest) := by
  have hlawful := List.forall_mem_cons.1 (lawful_createTableParts temporary guarded)
  have hguard := (List.forall_mem_cons.1 (List.forall_mem_append.1 hlawful.2).2).2
  have hback := hobject.head? rest
  have htable := run_tableName hobject hrest.endsName
  obtain ⟨afterCreate, hafter, hcreate⟩ := hfront.run_keyword_gap hlawful.2 hback
  obtain ⟨table, hparts, htemporary⟩ : ∃ table, Spelled (.plain "TABLE" :: if guarded then
      [.plain "IF", .plain "NOT", .plain "EXISTS"] else []) table ∧
      (maybe do keyword "TEMPORARY"; gap).run (afterCreate ++ (object.text ++ rest)) =
        some ((), table ++ (object.text ++ rest)) := by
    cases temporary with
    | false => exact ⟨afterCreate, hafter, hafter.run_maybe_skip ⟨_, rfl, by decide⟩ _ gap⟩
    | true =>
        obtain ⟨table, hparts, hread⟩ := hafter.run_last_keyword_gap
          (List.forall_mem_append.1 hlawful.2).2 hback
        exact ⟨table, hparts, run_maybe_of_run hread⟩
  obtain ⟨afterTable, hafter, hread⟩ := hparts.run_keyword_gap hguard hback
  rw [createdTable, hcreate]
  refine run_bind_eq_some_iff.2 ⟨(), _, htemporary, ?_⟩
  rw [hread, run_orElse]
  cases guarded with
  | false =>
      cases hafter
      have hnone : (do ifNotExists; tableName : Reader Text).run (object.text ++ rest) = none := by
        rw [StateT.run_bind, run_ifNotExists_eq_none hobject.not_isBlank hrest]
        rfl
      rw [List.nil_append, hnone, htable]
      rfl
  | true =>
      have hsome : (do ifNotExists; tableName : Reader Text).run
          (afterTable ++ (object.text ++ rest)) = some (object.name, object.style.mark ++ rest) :=
        run_bind_eq_some_iff.2 ⟨(), _, run_ifNotExists hafter hback, htable⟩
      rw [hsome]
      rfl

/-- So is the name of a table that is altered. -/
theorem run_alteredTable {only : Bool} (hobject : object.Lawful)
    (honly : only = false → ¬object.IsBareOnly) (hfront : Spelled (alterTableParts only) front)
    (hrest : rest.head?.any isBlank) : alteredTable.run (front ++ (object.text ++ rest)) =
      some (object.name, object.style.mark ++ rest) := by
  have hlawful := List.forall_mem_cons.1 (lawful_alterTableParts only)
  have hback := hobject.head? rest
  have htable := run_tableName hobject (endsName_of_blank hrest)
  obtain ⟨afterAlter, hafter, halter⟩ := hfront.run_keyword_gap hlawful.2 hback
  obtain ⟨afterTable, hafter, hread⟩ := hafter.run_keyword_gap
    (List.forall_mem_cons.1 hlawful.2).2 hback
  rw [alteredTable, halter, hread, run_orElse]
  cases only with
  | false =>
      cases hafter
      have hnone : (do keyword "ONLY"; gap; tableName : Reader Text).run (object.text ++ rest) =
          none := run_only_eq_none hobject (honly rfl) hrest tableName
      rw [List.nil_append, hnone, htable]
      rfl
  | true =>
      obtain ⟨_, hafter, hread⟩ := hafter.run_keyword_gap (by simp) hback
      cases hafter
      rw [hread, List.nil_append, htable]
      rfl

/-! ## Headers of views -/

/-- The options of a view that is created. -/
structure ViewOptions where
  orReplace : Bool
  algorithm : Option Text
  definer : Option Text
  security : Option Text
  deriving DecidableEq

namespace ViewOptions

/-- What stands in front of the name of a view that is created, behind the word `CREATE`. -/
def parts (options : ViewOptions) : List HeaderPart :=
  (if options.orReplace then [.plain "OR", .plain "REPLACE"] else []) ++
    ((options.algorithm.elim [] fun word => [.setting "ALGORITHM" word]) ++
      ((options.definer.elim [] fun account => [.setting "DEFINER" account]) ++
        ((options.security.elim [] fun word =>
          [.plain "SQL", .plain "SECURITY", .value word]) ++ [.plain "VIEW"])))

/-- The algorithm and the security are words, and there is no blank in the definer. -/
structure Lawful (options : ViewOptions) : Prop where
  algorithm : ∀ word ∈ options.algorithm, IsName word
  definer : ∀ account ∈ options.definer, account ≠ [] ∧ ∀ c ∈ account, ¬isBlank c
  security : ∀ word ∈ options.security, IsName word

end ViewOptions

/-- A name mark is taken where one stands, and a bare name is left as it is. -/
theorem run_nameMark {style : NameStyle} (hstyle : style ≠ .inDoubleMarks) {t : Text}
    (h : ∀ c ∈ t.head?, c ∉ nameMarks) :
    (mark [nameMark]).run (style.mark ++ t) = some (style != .bare, t) := by
  cases style with
  | bare =>
      cases t with
      | nil => rfl
      | cons c others =>
          have hc : c ≠ nameMark := fun heq => h c rfl (heq ▸ List.mem_cons_self)
          simp [NameStyle.mark, mark, StateT.run, hc]
  | inNameMarks => exact run_mark_cons (by decide) t
  | inDoubleMarks => exact absurd rfl hstyle

/-- The name of a view is read without its marks. -/
theorem run_viewName {style : NameStyle} (hstyle : style ≠ .inDoubleMarks) (hname : IsName name)
    (hrest : ∀ c ∈ rest.head?, ¬isWord c) :
    viewName.run (style.write name ++ rest) = some (name, style.mark ++ rest) := by
  have hopen : ∀ c ∈ (name ++ (style.mark ++ rest)).head?, c ∉ nameMarks :=
    hname.head?_not_mem _ (by decide)
  rw [style.write_append]
  refine run_bind_eq_some_iff.2 ⟨_, _, run_nameMark hstyle hopen, ?_⟩
  exact run_many1_append hname.ne_nil hname.isWord (style.head?_mark_append hrest)

/-- What stands in front of the name is a list of parts. -/
theorem ViewOptions.Lawful.lawful_parts {options : ViewOptions} (h : options.Lawful) :
    ∀ part ∈ options.parts, part.Lawful := by
  obtain ⟨orReplace, algorithm, definer, security⟩ := options
  refine List.forall_mem_append.2 ⟨?_, List.forall_mem_append.2 ⟨?_,
    List.forall_mem_append.2 ⟨?_, List.forall_mem_append.2 ⟨?_, by decide⟩⟩⟩⟩
  · show ∀ part ∈ if orReplace then _ else _, HeaderPart.Lawful part
    cases orReplace <;> decide
  · cases algorithm with
    | none => simp
    | some word =>
        have hword := h.algorithm word rfl
        refine List.forall_mem_singleton.2 (lawful_setting (by decide) fun _ hc => ?_)
        exact hword.not_isBlank hc
  · cases definer with
    | none => simp
    | some account =>
        exact List.forall_mem_singleton.2 (lawful_setting (by decide) (h.definer account rfl).2)
  · cases security with
    | none => simp
    | some word =>
        refine List.forall_mem_cons.2 ⟨lawful_plain (by decide), List.forall_mem_cons.2 ⟨?_, ?_⟩⟩
        · exact lawful_plain (by decide)
        · exact List.forall_mem_singleton.2 (lawful_value (h.security word rfl))

variable {parts : List HeaderPart} {t back : Text}

/-- The words `OR REPLACE` may be missing. -/
theorem run_orReplace {orReplace : Bool}
    (h : Spelled ((if orReplace then [.plain "OR", .plain "REPLACE"] else []) ++ parts) t)
    (hparts : ∀ part ∈ parts, part.Lawful) (hback : ∀ c ∈ back.head?, ¬isBlank c)
    (hother : OpensOther "OR" parts) : ∃ rest, Spelled parts rest ∧
      (maybe do keyword "OR"; gap; keyword "REPLACE"; gap).run (t ++ back) =
        some ((), rest ++ back) := by
  cases orReplace with
  | false => exact ⟨t, h, h.run_maybe_skip hother back _⟩
  | true =>
      obtain ⟨_, h, hor⟩ := h.run_keyword_gap
        (List.forall_mem_cons.2 ⟨lawful_plain (by decide), hparts⟩) hback
      obtain ⟨rest, hrest, hreplace⟩ := h.run_last_keyword_gap hparts hback
      exact ⟨rest, hrest, run_maybe_of_run ((hor _).trans hreplace)⟩

/-- So may the words `SQL SECURITY` with a word behind them. -/
theorem run_security {security : Option Text}
    (h : Spelled (security.elim [] (fun word =>
      [.plain "SQL", .plain "SECURITY", .value word]) ++ [.plain "VIEW"]) t)
    (hsecurity : ∀ word ∈ security, IsName word) (hback : ∀ c ∈ back.head?, ¬isBlank c) :
    ∃ rest, Spelled [.plain "VIEW"] rest ∧
      (maybe do keyword "SQL"; gap; keyword "SECURITY"; gap; let _ ← word; gap).run (t ++ back) =
        some ((), rest ++ back) := by
  cases security with
  | none => exact ⟨t, h, h.run_maybe_skip ⟨_, rfl, by decide⟩ back _⟩
  | some word =>
      have hview : ∀ part ∈ [.plain "VIEW"], HeaderPart.Lawful part := by decide
      have hvalue := List.forall_mem_cons.2 ⟨lawful_value (hsecurity word rfl), hview⟩
      have hparts := List.forall_mem_cons.2 ⟨lawful_plain (k := "SECURITY") (by decide), hvalue⟩
      obtain ⟨_, h, hsql⟩ := h.run_keyword_gap hparts hback
      obtain ⟨_, h, hsecure⟩ := h.run_keyword_gap hvalue hback
      obtain ⟨rest, hrest, hword⟩ := h.run_word_gap hview hback (hsecurity word rfl)
      exact ⟨rest, hrest, run_maybe_of_run ((hsql _).trans ((hsecure _).trans hword))⟩

/-- The name of a view that is created is read behind its options. -/
theorem run_createdView {options : ViewOptions} (hoptions : options.Lawful) {style : NameStyle}
    (hstyle : style ≠ .inDoubleMarks) (hname : IsName name)
    (hfront : Spelled (.plain "CREATE" :: options.parts) front)
    (hrest : ∀ c ∈ rest.head?, ¬isWord c) :
    createdView.run (front ++ (style.write name ++ rest)) = some (name, style.mark ++ rest) := by
  have hlawful := hoptions.lawful_parts
  have hback : ∀ c ∈ (style.write name ++ rest).head?, ¬isBlank c := by
    have hobject : (⟨none, style, name⟩ : ObjectName).Lawful := ⟨hname, by simp⟩
    exact hobject.head? rest
  obtain ⟨orReplace, algorithm, definer, security⟩ := options
  have hbehindReplace := (List.forall_mem_append.1 hlawful).2
  have hbehindAlgorithm := (List.forall_mem_append.1 hbehindReplace).2
  have hbehindDefiner := (List.forall_mem_append.1 hbehindAlgorithm).2
  have hword : ∀ word ∈ algorithm, word ≠ [] ∧ ∀ c ∈ word, isWord c ∧ ¬isBlank c :=
    fun word hword => ⟨(hoptions.algorithm word hword).ne_nil, fun c hc =>
      ⟨(hoptions.algorithm word hword).isWord c hc, (hoptions.algorithm word hword).not_isBlank hc⟩⟩
  have haccount : ∀ account ∈ definer, account ≠ [] ∧ ∀ c ∈ account, !isBlank c ∧ ¬isBlank c := by
    simpa using hoptions.definer
  obtain ⟨afterCreate, hspelled, hcreate⟩ := hfront.run_keyword_gap hlawful hback
  obtain ⟨afterReplace, hspelled, hreplace⟩ := run_orReplace hspelled hbehindReplace hback
    (by cases algorithm <;> cases definer <;> cases security <;> exact ⟨_, rfl, by simp⟩)
  obtain ⟨afterAlgorithm, hspelled, halgorithm⟩ := hspelled.run_maybe_setting (p := isWord)
    hbehindAlgorithm hback hword (fun c hc => by simp [isWord_eq_false_of_isBlank hc])
    (by cases definer <;> cases security <;> exact ⟨_, rfl, by simp⟩)
  obtain ⟨afterDefiner, hspelled, hdefiner⟩ := hspelled.run_maybe_setting (p := (!isBlank ·))
    hbehindDefiner hback haccount (fun c hc => by simpa using hc)
    (by cases security <;> exact ⟨_, rfl, by simp⟩)
  obtain ⟨afterSecurity, hspelled, hsecurity⟩ := run_security hspelled hoptions.security hback
  obtain ⟨_, hspelled, hview⟩ := hspelled.run_keyword_gap (by decide) hback
  cases hspelled
  rw [createdView, hcreate]
  refine run_bind_eq_some_iff.2 ⟨(), _, hreplace, ?_⟩
  refine run_bind_eq_some_iff.2 ⟨(), _, halgorithm, ?_⟩
  refine run_bind_eq_some_iff.2 ⟨(), _, hdefiner, ?_⟩
  refine run_bind_eq_some_iff.2 ⟨(), _, hsecurity, ?_⟩
  rw [hview]
  exact run_viewName hstyle hname hrest

/-! ## Drops of views -/

/-- What stands in front of the name of a view that is dropped. -/
def dropViewParts (guarded : Bool) : List HeaderPart :=
  .plain "DROP" :: .plain "VIEW" :: if guarded then [.plain "IF", .plain "EXISTS"] else []

theorem lawful_dropViewParts (guarded : Bool) : ∀ part ∈ dropViewParts guarded, part.Lawful := by
  cases guarded <;> decide

theorem spelled_dropView : Spelled (dropViewParts true) "DROP VIEW IF EXISTS " :=
  .cons_space "DROP" (by decide) (.cons_space "VIEW" (by decide)
    (.cons_space "IF" (by decide) (.cons_space "EXISTS" (by decide) .nil)))

/-- A statement that opens with these words drops a view. -/
theorem dropsView_of_spelled {guarded : Bool} (hfront : Spelled (dropViewParts guarded) front)
    (hrest : ∀ c ∈ rest.head?, ¬isBlank c) : dropsView (front ++ rest) := by
  have hlawful := lawful_dropViewParts guarded
  have hhead := hfront.head? hlawful hrest
  obtain ⟨behind, hspelled, hdrop⟩ :=
    hfront.run_keyword_gap (List.forall_mem_cons.1 hlawful).2 hrest
  obtain ⟨left, hview, hend⟩ := hspelled.run_keyword rest
  have hobject : (do keyword "TABLE" <|> keyword "VIEW"; wordEnd : Reader Unit).run
      (behind ++ rest) = some ((), left) := by
    have htable : (keyword "TABLE").run (behind ++ rest) = none :=
      hspelled.run_keyword_of_other ⟨_, rfl, by decide⟩ rest
    refine run_bind_eq_some_iff.2 ⟨(), left, ?_, hend⟩
    rw [run_orElse, htable, hview]
    rfl
  have hopening : dropOpening.run (front ++ rest) = some ((), left) :=
    run_bind_eq_some_iff.2 ⟨(), _, run_blanks_of_head hhead, (hdrop _).trans hobject⟩
  have hbehind : behind ++ rest <:+ front ++ rest := by
    have hshortens : Shortens (do keyword "DROP"; gap; pure ()) := shortens_keyword_gap .pure
    exact hshortens (hdrop (pure ()))
  rw [dropsView, hopening]
  exact (opens_of_run_keyword (by decide) hview).contains hbehind (by decide)

/-- The words `IF EXISTS` are not read from a text without blanks. -/
theorem run_ifExists_eq_none (h : ∀ c ∈ rest, ¬isBlank c) {α : Type} (r : Reader α) :
    (do ifExists; r).run rest = none := by
  have hnone : ifExists.run rest = none :=
    Silent.run_eq_none (silent_of_not_isBlank h) List.suffix_rfl
  rw [StateT.run_bind, hnone]
  rfl

/-- The words `IF EXISTS` are taken. -/
theorem run_ifExists {t back : Text} (h : Spelled [.plain "IF", .plain "EXISTS"] t)
    (hback : ∀ c ∈ back.head?, ¬isBlank c) : ifExists.run (t ++ back) = some ((), back) := by
  obtain ⟨_, h, hif⟩ := h.run_keyword_gap (by decide) hback
  obtain ⟨_, h, hexists⟩ := h.run_last_keyword_gap (by decide) hback
  cases h
  exact (hif _).trans hexists

/-- Behind these words the name of the view is read. -/
theorem run_droppedView {guarded : Bool} (hfront : Spelled (dropViewParts guarded) front)
    (hrest : ∀ c ∈ rest, ¬isBlank c) {left : Text} (hname : viewName.run rest = some (name, left)) :
    droppedView.run (front ++ rest) = some (name, left) := by
  have hlawful := List.forall_mem_cons.1 (lawful_dropViewParts guarded)
  have hback : ∀ c ∈ rest.head?, ¬isBlank c := fun c hc => hrest c (List.mem_of_mem_head? hc)
  obtain ⟨behind, hspelled, hdrop⟩ := hfront.run_keyword_gap hlawful.2 hback
  have htable : (do keyword "TABLE"; gap; ifExists; viewName : Reader Text).run (behind ++ rest) =
      none := by
    rw [StateT.run_bind, hspelled.run_keyword_of_other ⟨_, rfl, by decide⟩ rest]
    rfl
  obtain ⟨place, hplace, hview⟩ :=
    hspelled.run_keyword_gap (List.forall_mem_cons.1 hlawful.2).2 hback
  rw [droppedView, hdrop, run_orElse, htable, run_orElse, hview, hview]
  cases guarded with
  | false =>
      cases hplace
      rw [List.nil_append, run_ifExists_eq_none hrest, hname]
      rfl
  | true =>
      have hguarded : (do ifExists; viewName : Reader Text).run (place ++ rest) =
          some (name, left) := run_bind_eq_some_iff.2 ⟨(), _, run_ifExists hplace hback, hname⟩
      rw [hguarded]
      rfl

/-- No view is created by a statement that drops one. -/
theorem first_createdView_eq_none {guarded : Bool} (hfront : Spelled (dropViewParts guarded) front)
    (hrest : ∀ c ∈ rest, ¬isBlank c) : first createdView (front ++ rest) = none := by
  have hparts : ∀ part ∈ dropViewParts guarded,
      IsKeyword part.keyword ∧ part.tail = [] ∧ ¬"CREATE".toList <:+ part.keyword := by
    cases guarded <;> decide
  exact (hfront.silent (by decide) hparts hrest).first_eq_none

/-- A statement that opens with another word does not drop a view. -/
theorem not_dropsView {parts : List HeaderPart} (hfront : Spelled parts front)
    (hparts : ∀ part ∈ parts, part.Lawful) (hother : OpensOther "DROP" parts)
    (hrest : ∀ c ∈ rest.head?, ¬isBlank c) : ¬dropsView (front ++ rest) := by
  have hopening : dropOpening.run (front ++ rest) = none := by
    rw [Option.eq_none_iff_forall_ne_some]
    rintro ⟨_, left⟩ hrun
    obtain ⟨_, place, hblanks, hrun⟩ := run_bind_eq_some_iff.1 hrun
    rw [run_blanks_of_head (hfront.head? hparts hrest)] at hblanks
    obtain ⟨-, rfl⟩ := Prod.mk.inj (Option.some.inj hblanks)
    obtain ⟨_, _, hdrop, -⟩ := run_bind_eq_some_iff.1 hrun
    rw [hfront.run_keyword_of_other hother rest] at hdrop
    simp at hdrop
  rw [dropsView, hopening]
  simp

/-! ## Every header -/

/-- The text is the header of a statement of this kind with this name in it, and what may stand
behind. Behind the name of a table that is created a body opens, and a blank follows the others. -/
inductive Heads : StatementKind → Text → Text → Prop
  | createTable (temporary guarded : Bool) (object : ObjectName) {front : Text} (rest : Text)
      (hfront : Spelled (createTableParts temporary guarded) front) (hobject : object.Lawful)
      (hrest : OpensBody rest) : Heads .createTable object.name (front ++ (object.text ++ rest))
  | alterTable (only : Bool) (object : ObjectName) {front : Text} (rest : Text)
      (hfront : Spelled (alterTableParts only) front) (hobject : object.Lawful)
      (honly : only = false → ¬object.IsBareOnly) (hrest : rest.head?.any isBlank) :
      Heads .alterTable object.name (front ++ (object.text ++ rest))
  | createView (options : ViewOptions) (style : NameStyle) {front name : Text} (rest : Text)
      (hfront : Spelled (.plain "CREATE" :: options.parts) front) (hoptions : options.Lawful)
      (hstyle : style ≠ .inDoubleMarks) (hname : IsName name) (hrest : rest.head?.any isBlank) :
      Heads .createView name (front ++ (style.write name ++ rest))

/-- The name that a statement of this kind is searched for. -/
def captured : StatementKind → Text → Option Text
  | .createView => first createdView
  | .dropView => first droppedView
  | .createTable => first createdTable
  | .alterTable => first alteredTable

/-- The name in a header is captured, and a statement that opens with the header of a view creates
a view, whatever follows. -/
theorem captured_of_heads {kind : StatementKind} {statement : Text}
    (h : Heads kind name statement) : captured kind statement = some name ∧
      (kind = .createView → StatementKind.ofStatement? statement = some .createView) := by
  cases h with
  | createTable _ _ _ _ hfront hobject hrest =>
      exact ⟨first_of_run (run_createdTable hobject hfront hrest), by simp⟩
  | alterTable _ _ _ hfront hobject honly hrest =>
      exact ⟨first_of_run (run_alteredTable hobject honly hfront hrest), by simp⟩
  | @createView _ style front _ rest hfront hoptions hstyle hname hrest =>
      have hcreated : first createdView (front ++ (style.write name ++ rest)) = some name :=
        first_of_run (run_createdView hoptions hstyle hname hfront fun c hc =>
          (endsName_of_blank hrest c hc).1)
      refine ⟨hcreated, fun _ => ?_⟩
      rw [StatementKind.ofStatement?, Header.ofStatement?, hcreated]
      rfl

/-- Names that look like the words in front of them, and a view with options. -/
theorem captured_of_overlapping_words :
    captured .createTable "Create\tTABLE if.`Exists`(a int)" = some "Exists" ∧
      captured .alterTable "alter table only \x22ONLY\x22 ADD b int" = some "ONLY" ∧
      captured .createView "CREATE DEFINER=`a`@`%` VIEW `view` AS SELECT 1" = some "view" ∧
      StatementKind.ofStatement? "CREATE DEFINER=`a`@`%` VIEW `view` AS SELECT 1" =
        some .createView := by
  have hcreateWords : Spelled (createTableParts false false) "Create\tTABLE " :=
    .cons "Create" "\t" (by decide) (by decide) (List.forall_mem_singleton.2 rfl)
      (.cons_space "TABLE" (by decide) .nil)
  have halterWords : Spelled (alterTableParts true) "alter table only " :=
    .cons_space "alter" (by decide) (.cons_space "table" (by decide)
      (.cons_space "only" (by decide) .nil))
  have hoptions : (⟨false, none, some "`a`@`%`", none⟩ : ViewOptions).Lawful := by
    refine ⟨by simp, ?_, by simp⟩
    rintro _ ⟨⟩
    exact ⟨by decide, List.all_iff_forall_prop.1 (by decide)⟩
  have hviewWords : Spelled (.plain "CREATE" :: ViewOptions.parts
      ⟨false, none, some "`a`@`%`", none⟩) "CREATE DEFINER=`a`@`%` VIEW " :=
    .cons_space "CREATE" (by decide) (.cons_space "DEFINER" (by decide)
      (.cons_space "VIEW" (by decide) .nil))
  have htable : Heads .createTable "Exists" "Create\tTABLE if.`Exists`(a int)" :=
    .createTable false false ⟨some (.bare, "if"), .inNameMarks, "Exists"⟩ "(a int)" hcreateWords
      ⟨by decide, by decide⟩ rfl
  have halter : Heads .alterTable "ONLY" "alter table only \x22ONLY\x22 ADD b int" :=
    .alterTable true ⟨none, .inDoubleMarks, "ONLY"⟩ " ADD b int" halterWords
      ⟨by decide, by decide⟩ (by simp) (by decide)
  have hview : Heads .createView "view" "CREATE DEFINER=`a`@`%` VIEW `view` AS SELECT 1" :=
    .createView _ .inNameMarks " AS SELECT 1" hviewWords hoptions (by decide) (by decide)
      (by decide)
  exact ⟨(captured_of_heads htable).1, (captured_of_heads halter).1,
    (captured_of_heads hview).1, (captured_of_heads hview).2 rfl⟩

end SchemaDelta.Dump
