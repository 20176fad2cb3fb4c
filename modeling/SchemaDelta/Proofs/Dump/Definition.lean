import SchemaDelta.Dump.Report
import SchemaDelta.Proofs.Dump.Clean
import SchemaDelta.Proofs.Dump.Declaration
import SchemaDelta.Proofs.Dump.Head
import SchemaDelta.Proofs.Dump.HeaderName
import SchemaDelta.Proofs.Dump.LastWrite
import SchemaDelta.Proofs.Sql.Body

/-!
# Table definitions written and read back

A table is written as the list of its declarations between parentheses, in any mixture and order.
Such a text is one clean statement, its header names the table, its body has the clauses that were
written, and each of them declares what it was written for. So reading it gives the table and
nothing else (`Definition.report_text`). What has to be shown of the text is put together from
what holds of its words, names and types: they are quiet (`Quiet`), so that cleaning and looking
for headers finds nothing in them, and they are closed, so that the scans see the parentheses that
were written.
-/

namespace SchemaDelta.Dump

open Sql Text Reader

/-! ## Quiet texts -/

/-- Nothing in the text opens a comment, ends a statement or speaks of creating, and its blanks
are single spaces. -/
structure Quiet (t : Text) : Prop extends SingleSpaced t where
  semicolon_not_mem : ';' ∉ t
  undashed : Undashed t
  unslashed : Apart '/' '*' t
  silent : Silent "CREATE" t

instance (t : Text) : Decidable (Quiet t) :=
  decidable_of_iff
    (SingleSpaced t ∧ ';' ∉ t ∧ Undashed t ∧ Apart '/' '*' t ∧ Silent "CREATE" t)
    ⟨fun ⟨hspaced, hsemicolon, hdash, hslash, hsilent⟩ =>
        ⟨hspaced, hsemicolon, hdash, hslash, hsilent⟩,
      fun h => ⟨h.toSingleSpaced, h.semicolon_not_mem, h.undashed, h.unslashed, h.silent⟩⟩

/-- The fixed words of a table definition are quiet behind its first letter. -/
theorem quiet_words : ∀ words ∈ (["PRIMARY KEY ", "UNIQUE KEY ", "KEY ", "CONSTRAINT ",
    " FOREIGN KEY ", " REFERENCES ", "REATE TABLE "] : List String), Quiet words := by
  decide +kernel

/-- Names are quiet, and marks and single spaces keep texts quiet. -/
theorem woven_quiet : Woven Quiet where
  nil := by decide +kernel
  name hname := by
    refine ⟨(tidy_of_not_isBlank fun _ hc => hname.not_isBlank hc).toSingleSpaced,
      hname.not_mem (by decide), apart_of_not_mem (hname.not_mem (by decide)),
      apart_of_not_mem (hname.not_mem (by decide)), ?_⟩
    exact (woven_silent (by decide)).name hname
  append_cons {a b c} ha hb hc := by
    have hmarks : ∀ d ∈ nameMark :: ",()".toList, !isBlank d && d ∉ ";-/*".toList :=
      List.all_eq_true.1 (by decide)
    obtain ⟨hblank, hsemicolon, hdash, hslash, hstar⟩ :
        ¬isBlank c ∧ c ≠ ';' ∧ c ≠ '-' ∧ c ≠ '/' ∧ c ≠ '*' := by
      simpa using hmarks c hc
    refine ⟨ha.toSingleSpaced.append_cons hb.toSingleSpaced hblank, ?_,
      Apart.append_cons ha.undashed hb.undashed hdash hdash,
      ha.unslashed.append_cons hb.unslashed hslash hstar, ?_⟩
    · simp [ha.semicolon_not_mem, hb.semicolon_not_mem, hsemicolon.symm]
    · exact (woven_silent (by decide)).append_cons ha.silent hb.silent hc
  space {t} h hhead := by
    refine ⟨h.toSingleSpaced.cons_space hhead, ?_,
      Apart.append_cons (a := []) .nil h.undashed (by decide) (by decide),
      Apart.append_cons (a := []) .nil h.unslashed (by decide) (by decide), ?_⟩
    · simp [h.semicolon_not_mem]
    · exact (woven_silent (by decide)).space h.silent hhead

/-- Types are quiet. -/
theorem IsType.quiet {type : Text} (h : IsType type) : Quiet type where
  toSingleSpaced := h.toSingleSpaced
  semicolon_not_mem := h.semicolon_not_mem
  undashed := apart_of_not_occursIn h.undashed
  unslashed := apart_of_not_occursIn h.unslashed
  silent := silent_of_not_contains (by decide) (by decide) h.uncreated

/-! ## Clauses of declarations -/

namespace Declaration

variable {declaration : Declaration}

/-- Clauses are quiet. -/
theorem Lawful.quiet (h : declaration.Lawful) : Quiet declaration.text := by
  cases declaration with
  | column name type =>
      exact woven_quiet.quoteName h.1 woven_quiet.nil (woven_quiet.space h.2.quiet h.2.head)
  | primaryKey columns =>
      have hlist := woven_quiet.nameList h.isName (quiet_words "PRIMARY KEY " (by simp))
        woven_quiet.nil
      rwa [List.append_nil] at hlist
  | uniqueKey name columns =>
      exact woven_keyClause woven_quiet (quiet_words "UNIQUE KEY " (by simp)) h.1 h.2
  | index name columns =>
      exact woven_keyClause woven_quiet (quiet_words "KEY " (by simp)) h.1 h.2
  | foreignKey name columns table referenced =>
      obtain ⟨hname, hcolumns, htable, hreferenced⟩ := h
      exact woven_foreignKeyClause woven_quiet
        ⟨quiet_words "CONSTRAINT " (by simp), quiet_words " FOREIGN KEY " (by simp),
          quiet_words " REFERENCES " (by simp)⟩ hname hcolumns htable hreferenced

/-- The clause of a key closes what it opens. -/
theorem closed_keyClause {words name : Text} {columns : List Text} (hwords : Closed words)
    (hname : IsName name) (hcolumns : IsNameList columns) :
    Closed (keyClause words name columns) := by
  have hblank : Closed [' '] := by decide
  exact hwords.append ((closed_quoteName hname).append
    (hblank.append (closed_nameList hcolumns.isName)))

/-- Clauses close what they open. -/
theorem Lawful.closed (h : declaration.Lawful) : Closed declaration.text := by
  have hblank : Closed [' '] := by decide
  cases declaration with
  | column name type => exact (closed_quoteName h.1).append (hblank.append h.2.closed)
  | primaryKey columns =>
      have hwords : Closed "PRIMARY KEY " := by decide
      exact hwords.append (closed_nameList h.isName)
  | uniqueKey name columns => exact closed_keyClause (by decide) h.1 h.2
  | index name columns => exact closed_keyClause (by decide) h.1 h.2
  | foreignKey name columns table referenced =>
      obtain ⟨hname, hcolumns, htable, hreferenced⟩ := h
      have hconstraint : Closed "CONSTRAINT " := by decide
      have hforeign : Closed " FOREIGN KEY " := by decide
      exact hconstraint.append ((closed_quoteName hname).append (hforeign.append
        ((closed_nameList hcolumns.isName).append
          (closed_keyClause (by decide) htable hreferenced))))

/-- No clause starts with a blank. -/
theorem Lawful.head (h : declaration.Lawful) : ∀ c ∈ declaration.text.head?, ¬isBlank c := by
  have hhead : ∃ c, declaration.text.head? = some c ∧ ¬isBlank c := by
    cases declaration with
    | column name type => exact ⟨nameMark, rfl, by decide⟩
    | primaryKey columns => exact ⟨'P', rfl, by decide⟩
    | uniqueKey name columns => exact ⟨'U', rfl, by decide⟩
    | index name columns => exact ⟨'K', rfl, by decide⟩
    | foreignKey name columns table referenced => exact ⟨'C', rfl, by decide⟩
  obtain ⟨c, hc, hblank⟩ := hhead
  intro d hd
  rwa [← Option.some.inj (hc.symm.trans hd)]

/-- The clause of a key ends with its list of columns. -/
theorem suffix_keyClause (words name : Text) (columns : List Text) :
    nameList columns <:+ keyClause words name columns :=
  ((List.suffix_cons ' ' _).trans (List.suffix_append _ _)).trans (List.suffix_append _ _)

/-- No clause ends with a blank. -/
theorem Lawful.last (h : declaration.Lawful) : ∀ c ∈ declaration.text.getLast?, ¬isBlank c := by
  have hlist : ∀ (t : Text) (names : List Text), nameList names <:+ t →
      ∀ c ∈ t.getLast?, ¬isBlank c := by
    rintro - names ⟨front, rfl⟩ c hc
    rw [nameList, ← List.cons_append, ← List.append_assoc, List.getLast?_concat] at hc
    rw [← Option.some.inj hc]
    decide
  cases declaration with
  | column name type =>
      intro c hc
      have hne : type ≠ [] := by
        intro hnil
        have hword := h.2.startsWord
        rw [hnil] at hword
        exact absurd hword (by decide)
      rw [text, List.getLast?_append_of_ne_nil _ (by simp), List.getLast?_cons_of_ne_nil hne] at hc
      exact h.2.last c hc
  | primaryKey columns => exact hlist _ columns (List.suffix_append "PRIMARY KEY ".toList _)
  | uniqueKey name columns => exact hlist _ columns (suffix_keyClause _ name columns)
  | index name columns => exact hlist _ columns (suffix_keyClause _ name columns)
  | foreignKey name columns table referenced =>
      refine hlist _ referenced ((suffix_keyClause " REFERENCES " table referenced).trans ?_)
      exact (((List.suffix_append _ _).trans (List.suffix_append _ _)).trans
        (List.suffix_append _ _)).trans (List.suffix_append _ _)

/-- Clauses are tidy. -/
theorem Lawful.tidy (h : declaration.Lawful) : Tidy declaration.text :=
  { h.quiet with head := h.head, last := h.last }

end Declaration

/-! ## Tables made of what clauses declare -/

/-- The column that a clause declares, under its name. -/
def Clause.declaredColumn? : Clause → Option (Text × Column)
  | .column c => some (c.name, c)
  | _ => none

/-- The index that a clause declares, under its name. -/
def Clause.declaredIndex? : Clause → Option (Text × Index)
  | .index i => some (i.name, i)
  | _ => none

/-- The constraint that a clause declares, under its name. -/
def Clause.declaredConstraint? : Clause → Option (Text × Constraint)
  | .constraint c => some (c.name, c)
  | _ => none

/-- Clauses that declare parts of one sort under distinct new names put them at the end of their
map in order, whatever other clauses stand between them. -/
theorem entries_foldl_addTo {β : Type} (map : Table → OrderedMap β)
    (part? : Clause → Option (Text × β))
    (hmap : ∀ table declared, map (Clause.addTo table declared) =
      (part? declared).elim (map table) fun entry => (map table).insert entry.1 entry.2)
    {declared : List Clause} {table : Table}
    (hnodup : (((map table).entries ++ declared.filterMap part?).map Prod.fst).Nodup) :
    (map (declared.foldl Clause.addTo table)).entries =
      (map table).entries ++ declared.filterMap part? := by
  induction declared generalizing table with
  | nil => simp
  | cons first rest ih =>
      have hfirst := hmap table first
      cases hpart : part? first with
      | none =>
          rw [hpart] at hfirst
          rw [List.filterMap_cons_none hpart, List.foldl_cons, ih, hfirst, Option.elim_none]
          rw [List.filterMap_cons_none hpart] at hnodup
          rwa [hfirst]
      | some entry =>
          rw [hpart, Option.elim_some] at hfirst
          rw [List.filterMap_cons_some hpart] at hnodup
          -- The name is new, so its entry goes to the end of the map.
          have hnew : entry.1 ∉ (map table).keys := by
            intro hmem
            rw [List.map_append, List.nodup_append] at hnodup
            exact hnodup.2.2 _ hmem _ (by simp) rfl
          have hentries : (map (Clause.addTo table first)).entries =
              (map table).entries ++ [entry] := by
            rw [hfirst, OrderedMap.entries_insert_of_not_mem _ hnew]
          rw [List.filterMap_cons_some hpart, List.foldl_cons, ih, hentries, List.append_assoc]
          · rfl
          · rwa [hentries, List.append_assoc]

/-- In a table without parts of this sort declarations with distinct names make just their map. -/
theorem map_foldl_addTo {β : Type} (map : Table → OrderedMap β)
    (part? : Clause → Option (Text × β))
    (hmap : ∀ table declared, map (Clause.addTo table declared) =
      (part? declared).elim (map table) fun entry => (map table).insert entry.1 entry.2)
    {declarations : List Declaration} {table : Table} (hempty : map table = ∅)
    (hnodup : ((declarations.filterMap fun declaration => part? declaration.clause).map
      Prod.fst).Nodup) :
    map ((declarations.map Declaration.clause).foldl Clause.addTo table) = ⟨_, hnodup⟩ := by
  have hparts : (map table).entries ++ (declarations.map Declaration.clause).filterMap part? =
      declarations.filterMap fun declaration => part? declaration.clause := by
    rw [hempty, List.filterMap_map]
    rfl
  refine OrderedMap.eq_of_entries ?_
  rw [entries_foldl_addTo map part? hmap (hparts ▸ hnodup), hparts]

/-- A table as it is written: its name and its declarations in order, with distinct names for
columns, for indexes and for constraints. The constraint of a primary key has its fixed name. -/
structure Definition where
  name : Text
  declarations : List Declaration
  isName : IsName name
  lawful : ∀ declaration ∈ declarations, declaration.Lawful
  nodup_columns : ((declarations.filterMap (·.clause.declaredColumn?)).map Prod.fst).Nodup
  nodup_indexes : ((declarations.filterMap (·.clause.declaredIndex?)).map Prod.fst).Nodup
  nodup_constraints : ((declarations.filterMap (·.clause.declaredConstraint?)).map Prod.fst).Nodup

namespace Definition

variable (definition : Definition)

/-- The clauses of the declarations with commas between them. -/
def body : Text := join ", " (definition.declarations.map Declaration.text)

/-- The statement that creates the table. -/
def text : Text :=
  "CREATE TABLE " ++ quoteName definition.name ++ ' ' :: '(' :: (definition.body ++ [')'])

/-- The table that is written: in each of its maps what the declarations of that sort say, in
order, and the whole statement as its definition. -/
def table : Table where
  name := definition.name
  columns := ⟨_, definition.nodup_columns⟩
  indexes := ⟨_, definition.nodup_indexes⟩
  constraints := ⟨_, definition.nodup_constraints⟩
  definition := some definition.text
  alters := []

/-! ## The clauses are read -/

theorem forall_mem_texts {P : Text → Prop}
    (h : ∀ declaration : Declaration, declaration.Lawful → P declaration.text) :
    ∀ clause ∈ definition.declarations.map Declaration.text, P clause := by
  intro clause hclause
  obtain ⟨declaration, hdeclaration, rfl⟩ := List.mem_map.1 hclause
  exact h declaration (definition.lawful declaration hdeclaration)

/-- The clauses that are read are those that were written. -/
theorem clauses_body :
    clauses definition.body = definition.declarations.map Declaration.text := by
  refine clauses_join (definition.forall_mem_texts fun _ h => h.closed)
    (definition.forall_mem_texts fun _ h => h.tidy.trim_eq)
    (definition.forall_mem_texts fun _ h => ?_)
  exact ne_nil_of_ofText h.ofText_text

/-- Each clause declares what it was written for. -/
theorem filterMap_ofText :
    (definition.declarations.map Declaration.text).filterMap
        (fun clause => (Clause.ofText clause).toOption) =
      definition.declarations.map Declaration.clause := by
  rw [List.filterMap_map, ← List.filterMap_eq_map]
  refine List.filterMap_congr fun declaration hdeclaration => ?_
  rw [Function.comp_apply, (definition.lawful declaration hdeclaration).ofText_text]
  rfl

/-- Together they make the table. -/
theorem tableOfClauses_eq : tableOfClauses definition.name definition.text
    (definition.declarations.map Declaration.text) = definition.table := by
  rw [tableOfClauses, definition.filterMap_ofText]
  generalize hmade : (definition.declarations.map Declaration.clause).foldl Clause.addTo
    { Table.shell definition.name with definition := some definition.text } = made
  obtain ⟨hname, hdefinition, halters⟩ :=
    foldl_addTo_frame (definition.declarations.map Declaration.clause)
      { Table.shell definition.name with definition := some definition.text }
  rw [hmade] at hname hdefinition halters
  have hcolumns : made.columns = definition.table.columns := by
    rw [← hmade]
    refine map_foldl_addTo Table.columns Clause.declaredColumn? ?_ rfl definition.nodup_columns
    intro table declared
    cases declared <;> rfl
  have hindexes : made.indexes = definition.table.indexes := by
    rw [← hmade]
    refine map_foldl_addTo Table.indexes Clause.declaredIndex? ?_ rfl definition.nodup_indexes
    intro table declared
    cases declared <;> rfl
  have hconstraints : made.constraints = definition.table.constraints := by
    rw [← hmade]
    refine map_foldl_addTo Table.constraints Clause.declaredConstraint? ?_ rfl
      definition.nodup_constraints
    intro table declared
    cases declared <;> rfl
  calc made
    _ = ⟨made.name, made.columns, made.indexes, made.constraints, made.definition,
          made.alters⟩ := rfl
    _ = definition.table := by
        rw [hname, hcolumns, hindexes, hconstraints, hdefinition, halters]
        rfl

/-- No clause is left out. -/
theorem filterMap_skippedClause? :
    (definition.declarations.map Declaration.text).filterMap (skippedClause? definition.name) =
      [] := by
  refine List.filterMap_eq_nil_iff.2 (definition.forall_mem_texts fun declaration h => ?_)
  rw [skippedClause?, h.ofText_text]

/-! ## The statement is read -/

/-- The statement behind its first letter. -/
def tail : Text :=
  "REATE TABLE " ++ (quoteName definition.name ++ ' ' :: '(' :: (definition.body ++ [')']))

theorem text_eq : definition.text = 'C' :: definition.tail := by
  unfold Definition.text Definition.tail
  rw [List.append_assoc]
  rfl

/-- Behind its first letter the statement is quiet. -/
theorem quiet_tail : Quiet definition.tail := by
  have hbody : Quiet definition.body :=
    woven_quiet.list (definition.forall_mem_texts fun _ h => h.quiet)
      (definition.forall_mem_texts fun _ h => h.head)
  have hclosed : Quiet (definition.body ++ [')']) :=
    woven_quiet.append_cons hbody woven_quiet.nil (by decide)
  have hopen : Quiet ('(' :: (definition.body ++ [')'])) :=
    woven_quiet.append_cons woven_quiet.nil hclosed (by decide)
  exact woven_quiet.quoteName definition.isName (quiet_words "REATE TABLE " (by simp))
    (woven_quiet.space hopen (by simp; decide))

/-- The statement is clean. -/
theorem clean_text : clean definition.text = definition.text := by
  have hquiet := definition.quiet_tail
  have hlast : definition.text.getLast? = some ')' := by
    unfold Definition.text
    rw [List.getLast?_append_of_ne_nil _ (by simp), ← List.cons_append, ← List.cons_append,
      List.getLast?_concat]
  rw [text_eq] at hlast ⊢
  have hspaced := SingleSpaced.nil.append_cons (c := 'C') hquiet.toSingleSpaced (by decide)
  refine clean_eq_self ⟨hspaced, by simp; decide, fun c hc => ?_⟩
    (Apart.append_cons (a := []) .nil hquiet.undashed (by decide) (by decide))
    (Apart.append_cons (a := []) .nil hquiet.unslashed (by decide) (by decide))
  rw [hlast] at hc
  rw [← Option.some.inj hc]
  decide

/-- The parentheses of the statement balance. -/
theorem parenBalance_text : parenBalance definition.text = 0 := by
  have hwords : Closed "CREATE TABLE " := by decide
  have hfront := (hwords.append (closed_quoteName definition.isName)).parenBalance_eq
  have hbody : parenBalance definition.body = 0 := by
    rw [Definition.body, parenBalance_join rfl]
    exact balanceOf_eq_zero (definition.forall_mem_texts fun _ h => h.closed.parenBalance_eq)
  have hparens : parenBalance (' ' :: '(' :: (definition.body ++ [')'])) =
      parenBalance [' ', '('] + (parenBalance definition.body + parenBalance [')']) := by
    rw [← parenBalance_append, ← parenBalance_append]
    rfl
  have hopen : parenBalance [' ', '('] = 1 := rfl
  have hclose : parenBalance [')'] = -1 := rfl
  unfold Definition.text
  rw [parenBalance_append, hfront, hparens, hbody, hopen, hclose]
  rfl

/-- The statement word by word. -/
theorem text_eq_words : definition.text = "CREATE".toList ++ ' ' :: ("TABLE".toList ++ ' ' ::
    (quoteName definition.name ++ ' ' :: '(' :: (definition.body ++ [')']))) := by
  unfold Definition.text
  rw [List.append_assoc]
  rfl

/-- No view is created in the statement. -/
theorem first_createdView_text : first createdView definition.text = none := by
  have hview : createdView.run definition.text = none := by
    rw [text_eq_words]
    unfold createdView
    rw [run_keyword_gap (by decide) (by simp; decide)]
    rfl
  rw [text_eq] at hview ⊢
  rw [first_cons_of_none hview]
  exact definition.quiet_tail.silent.first_eq_none

/-- The table is, at the start of the statement. -/
theorem run_createdTable_text :
    ∃ left, createdTable.run definition.text = some (definition.name, left) := by
  have hrest : OpensBody (' ' :: '(' :: (definition.body ++ [')'])) := rfl
  have htable := run_createdTable (ObjectName.lawful_quoted definition.isName)
    spelled_createTable hrest
  exact ⟨_, definition.text_eq_words ▸ htable⟩

/-- The header of the statement names the table. -/
theorem header_text :
    Header.ofStatement? definition.text = some (.createTable definition.name) := by
  have hnoDrop : dropsView definition.text = false := by
    rw [text_eq]
    rfl
  obtain ⟨left, htable⟩ := definition.run_createdTable_text
  rw [Header.ofStatement?, first_createdView_text]
  simp only [hnoDrop, first_of_run htable, Bool.false_eq_true, if_false]

/-- The dump that the statement makes up has just this statement. -/
theorem statements_text : statements definition.text = [definition.text] := by
  have hsemicolon : ';' ∉ definition.text := by
    rw [text_eq, List.mem_cons, not_or]
    exact ⟨by decide, definition.quiet_tail.semicolon_not_mem⟩
  have htable : containsCaseless definition.text "CREATE TABLE" := by
    refine containsCaseless_iff.2 ⟨"CREATE TABLE", List.IsPrefix.isInfix ?_, rfl⟩
    rw [text_eq]
    exact ⟨' ' :: (quoteName definition.name ++ ' ' :: '(' :: (definition.body ++ [')'])), rfl⟩
  exact statements_of_head definition.clean_text hsemicolon (head_eq_createTable_iff.2 htable)
    fun _ => definition.parenBalance_text

/-- The statement is read as the table, and no clause of it is left out. -/
theorem entry_text : Entry.ofStatement definition.text = .ok (.table definition.table []) := by
  have hfront : '(' ∉ "CREATE TABLE " ++ quoteName definition.name ++ [' '] := by
    have hname : '(' ∉ definition.name := definition.isName.not_mem (by decide)
    simp [quoteName, nameMark, hname]
  have hbody : tableBody definition.text = some definition.body := by
    have hclosed := tableBody_eq hfront (definition.forall_mem_texts fun _ h => h.closed)
    rwa [← List.append_cons] at hclosed
  rw [Entry.ofStatement, definition.header_text]
  simp only [hbody, definition.clauses_body, definition.tableOfClauses_eq,
    definition.filterMap_skippedClause?]

/-- A table that is written is read back: the dump that its statement makes up has one statement,
which gives the table, and nothing is left out. -/
theorem report_text :
    Report.ofText definition.text = ⟨(∅ : Schema).addTable definition.table, 1, []⟩ := by
  have hschema : schemaOfStatements [definition.text] = (∅ : Schema).addTable definition.table := by
    rw [schemaOfStatements, List.filterMap_cons, definition.entry_text]
    rfl
  have hskipped : [definition.text].flatMap skippedIn = [] := by
    rw [List.flatMap_singleton, skippedIn, definition.entry_text]
  rw [Report.ofText, definition.statements_text, Report.ofStatements, hschema, hskipped]
  rfl

/-- A table with clauses of all sorts. -/
def orders : Definition where
  name := "orders"
  declarations := [.column "id" "int(11) NOT NULL", .uniqueKey "u" ["state", "id"],
    .column "state" "enum('new','a, b') DEFAULT 'new'", .primaryKey ["id"], .index "k" ["state"],
    .foreignKey "f" ["id"] "parts" ["number"]]
  isName := by decide
  lawful := by decide +kernel
  nodup_columns := by decide +kernel
  nodup_indexes := by decide +kernel
  nodup_constraints := by decide +kernel

/-- Its statement. -/
def ordersText : Text :=
  "CREATE TABLE `orders` (`id` int(11) NOT NULL, UNIQUE KEY `u` (`state`, `id`), " ++
    "`state` enum('new','a, b') DEFAULT 'new', PRIMARY KEY (`id`), KEY `k` (`state`), " ++
    "CONSTRAINT `f` FOREIGN KEY (`id`) REFERENCES `parts` (`number`))"

/-- It is read back from its statement. -/
theorem report_orders :
    Report.ofText ordersText = ⟨(∅ : Schema).addTable orders.table, 1, []⟩ := by
  have htext : orders.text = ordersText := by decide +kernel
  rw [← htext]
  exact orders.report_text

end Definition

end SchemaDelta.Dump
