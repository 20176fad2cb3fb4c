import Mathlib.Data.List.Infix
import SchemaDelta.Proofs.Dump.Head
import SchemaDelta.Proofs.Sql.Body
import SchemaDelta.Proofs.Text.Words

/-!
# Blocks of fragments

The fragments of a dump fall into blocks of neighbours. A blank fragment and one without a head
are blocks that give nothing, a fragment whose head does not define a table is a statement, and
a fragment that starts to define a table takes as many behind it as balance its parentheses. There
is just one way to cut the fragments like this, and the statements of the dump are those of its
blocks in order (`unique_grouping`).
-/

namespace SchemaDelta.Dump

open Sql Text

/-- Neighbouring fragments that belong together. -/
inductive Block where
  /-- A blank fragment. -/
  | blank (fragment : Text)
  /-- A fragment without a head. -/
  | headless (fragment : Text)
  /-- A fragment that is a statement by its head. -/
  | single (fragment : Text)
  /-- The fragments of a table definition. -/
  | table (first : Text) (others : List Text)
  /-- The fragments of a table definition that is never complete. -/
  | unclosed (first : Text) (others : List Text)

/-- The fragment starts to define a table. -/
def StartsTable (fragment : Text) : Prop :=
  Head.ofFragment? (trim fragment) = some .createTable

namespace Block

/-- The fragment that opens a block. -/
def first : Block → Text
  | .blank fragment | .headless fragment | .single fragment => fragment
  | .table first _ | .unclosed first _ => first

/-- The fragments of a block behind the first. -/
def others : Block → List Text
  | .blank _ | .headless _ | .single _ => []
  | .table _ others | .unclosed _ others => others

/-- The fragments of a block. -/
def fragments (block : Block) : List Text := block.first :: block.others

/-- The statement that a block gives. -/
def statement? : Block → Option Text
  | .single fragment => some (trim fragment)
  | .table first others => some (trim (join ";" (trim first :: others)))
  | .blank _ | .headless _ | .unclosed _ _ => none

/-- The block is what its name says. A table definition takes no more fragments than balance its
parentheses, and one that is never complete has no start that does. -/
def Lawful : Block → Prop
  | .blank fragment => trim fragment = []
  | .headless fragment => trim fragment ≠ [] ∧ Head.ofFragment? (trim fragment) = none
  | .single fragment =>
    ∃ head, Head.ofFragment? (trim fragment) = some head ∧ head ≠ .createTable
  | .table first others => StartsTable first ∧ balanceOf (first :: others) = 0 ∧
    ∀ front, front <+: first :: others → front ≠ [] → front ≠ first :: others →
      balanceOf front ≠ 0
  | .unclosed first others => StartsTable first ∧
    ∀ front, front <+: first :: others → front ≠ [] → balanceOf front ≠ 0

/-- Whether the block is complete before the fragments end. -/
def IsClosed : Block → Prop
  | .unclosed _ _ => False
  | _ => True

end Block

/-- The blocks are made of the fragments in order, each is what its name says, and only the last
one may be left open. -/
structure Grouping (fragments : List Text) (blocks : List Block) : Prop where
  flatMap_fragments : blocks.flatMap Block.fragments = fragments
  lawful : ∀ block ∈ blocks, block.Lawful
  closed : blocks.Pairwise fun earlier _ => earlier.IsClosed

variable {fragments : List Text} {blocks : List Block}

theorem grouping_nil : Grouping [] [] := ⟨rfl, by simp, .nil⟩

/-- A complete block may stand in front of blocks. -/
theorem Grouping.cons (h : Grouping fragments blocks) {block : Block} (hlawful : block.Lawful)
    (hclosed : block.IsClosed) : Grouping (block.fragments ++ fragments) (block :: blocks) :=
  ⟨by rw [List.flatMap_cons, h.flatMap_fragments], List.forall_mem_cons.2 ⟨hlawful, h.lawful⟩,
    .cons (fun _ _ => hclosed) h.closed⟩

/-! ## There is a grouping -/

/-- The open definition is made of these fragments, and no start of them balances. -/
structure OpenTable.MadeOf (table : OpenTable) (first : Text) (others : List Text) : Prop where
  starts : StartsTable first
  statement_eq : table.statement = join ";" (trim first :: others)
  balance_eq : table.balance = balanceOf (first :: others)
  unbalanced : ∀ front, front <+: first :: others → front ≠ [] → balanceOf front ≠ 0

section Pending

variable {table : OpenTable} {first fragment : Text} {others : List Text}

/-- One more fragment makes the open definition longer. -/
theorem OpenTable.MadeOf.statement_extend (h : table.MadeOf first others) (fragment : Text) :
    (table.extend fragment).statement = join ";" (trim first :: (others ++ [fragment])) := by
  show table.statement ++ ';' :: fragment = _
  rw [h.statement_eq, ← List.cons_append, join_append ";" (List.cons_ne_nil _ _) (by simp),
    join_singleton]
  simp

theorem OpenTable.MadeOf.balance_extend (h : table.MadeOf first others) (fragment : Text) :
    (table.extend fragment).balance = balanceOf (first :: (others ++ [fragment])) := by
  show table.balance + parenBalance fragment = _
  rw [h.balance_eq, ← List.cons_append, balanceOf_append, balanceOf_singleton]

/-- It is still open if its parentheses do not balance. -/
theorem OpenTable.MadeOf.extend (h : table.MadeOf first others)
    (hbalance : (table.extend fragment).balance ≠ 0) :
    (table.extend fragment).MadeOf first (others ++ [fragment]) := by
  refine ⟨h.starts, h.statement_extend fragment, h.balance_extend fragment, ?_⟩
  intro front hfront hne
  rw [← List.cons_append, List.prefix_concat_iff] at hfront
  rcases hfront with rfl | hfront
  · rwa [h.balance_extend fragment] at hbalance
  · exact h.unbalanced front hfront hne

/-- If they do, its fragments are a block. -/
theorem OpenTable.MadeOf.lawful_table (h : table.MadeOf first others)
    (hbalance : (table.extend fragment).balance = 0) :
    (Block.table first (others ++ [fragment])).Lawful := by
  refine ⟨h.starts, (h.balance_extend fragment).symm.trans hbalance, ?_⟩
  intro front hfront hne hproper
  rw [← List.cons_append, List.prefix_concat_iff] at hfront
  exact h.unbalanced front (hfront.resolve_left hproper) hne

/-- A definition that is opened is made of the fragment that opens it. -/
theorem madeOf_of_opening (hstarts : StartsTable fragment)
    (hbalance : parenBalance (trim fragment) ≠ 0) :
    OpenTable.MadeOf ⟨trim fragment, parenBalance (trim fragment)⟩ fragment [] := by
  refine ⟨hstarts, (join_singleton _ _).symm, ?_, ?_⟩
  · rw [balanceOf_singleton, parenBalance_trim]
  · intro front hfront hne
    rw [List.prefix_cons_iff] at hfront
    rcases hfront with rfl | ⟨others, rfl, hothers⟩
    · exact absurd rfl hne
    · obtain rfl := List.prefix_nil.1 hothers
      rwa [balanceOf_singleton, ← parenBalance_trim]

/-- A fragment that defines a table and balances its parentheses is a block. -/
theorem lawful_table_singleton (hstarts : StartsTable fragment)
    (hbalance : parenBalance (trim fragment) = 0) : (Block.table fragment []).Lawful := by
  refine ⟨hstarts, ?_, ?_⟩
  · rw [balanceOf_singleton, ← parenBalance_trim, hbalance]
  · intro front hfront hne hproper
    rw [List.prefix_cons_iff] at hfront
    rcases hfront with rfl | ⟨others, rfl, hothers⟩
    · exact absurd rfl hne
    · exact absurd (by rw [List.prefix_nil.1 hothers]) hproper

/-- A definition that stays open is a grouping of what it is made of. -/
theorem OpenTable.MadeOf.grouping (h : table.MadeOf first others) :
    Grouping (first :: others) [.unclosed first others] := by
  refine ⟨?_, ?_, by simp⟩
  · rw [List.flatMap_singleton]
    rfl
  · intro block hblock
    rw [List.mem_singleton.1 hblock]
    exact ⟨h.starts, h.unbalanced⟩

end Pending

/-- The fragments have a grouping that gives the statements of the outcomes. -/
def Grouped (fragments : List Text) (outcomes : List Outcome) : Prop :=
  ∃ blocks, Grouping fragments blocks ∧
    outcomes.filterMap Outcome.statement? = blocks.filterMap Block.statement?

/-- A complete block in front gives its statement first. -/
theorem Grouped.cons {outcomes : List Outcome} (h : Grouped fragments outcomes) (block : Block)
    (made : List Outcome) (hlawful : block.Lawful) (hclosed : block.IsClosed)
    (hmade : made.filterMap Outcome.statement? = block.statement?.toList) :
    Grouped (block.fragments ++ fragments) (made ++ outcomes) := by
  obtain ⟨blocks, hgrouping, hstatements⟩ := h
  refine ⟨block :: blocks, hgrouping.cons hlawful hclosed, ?_⟩
  rw [List.filterMap_append, hmade, hstatements, List.filterMap_cons]
  cases block.statement? <;> rfl

/-- What a walk makes of fragments has a grouping, and so it has behind the fragments of a
definition that is open. -/
theorem grouped_walk (fragments : List Text) : Grouped fragments (walk none fragments) ∧
    ∀ table first others, OpenTable.MadeOf table first others →
      Grouped (first :: (others ++ fragments)) (walk (some table) fragments) := by
  induction fragments with
  | nil =>
      refine ⟨⟨[], grouping_nil, rfl⟩, fun table first others h => ?_⟩
      rw [List.append_nil]
      exact ⟨[.unclosed first others], h.grouping, rfl⟩
  | cons fragment rest ih =>
      -- A definition that this fragment opens is closed by a later one, so both parts are needed.
      obtain ⟨hclosed, hopen⟩ := ih
      constructor
      · obtain ⟨made, left, h⟩ := exists_step none fragment
        rw [h.walk_eq]
        cases h with
        | blank hnil => exact hclosed.cons (.blank fragment) [] hnil trivial rfl
        | headless hne hhead =>
            exact hclosed.cons (.headless fragment) [_] ⟨hne, hhead⟩ trivial rfl
        | @complete _ head hhead hbalance =>
            by_cases htable : head = .createTable
            · subst htable
              refine hclosed.cons (.table fragment []) [_]
                (lawful_table_singleton hhead (hbalance rfl)) trivial ?_
              show [trim fragment] = [trim (join ";" [trim fragment])]
              rw [join_singleton, trim_trim]
            · exact hclosed.cons (.single fragment) [_] ⟨head, hhead, htable⟩ trivial rfl
        | opening hhead hbalance =>
            exact hopen _ fragment [] (madeOf_of_opening hhead hbalance)
      · intro table first others hmade
        rw [List.append_cons, ← List.cons_append]
        obtain ⟨made, left, h⟩ := exists_step (some table) fragment
        rw [h.walk_eq]
        cases h with
        | closing hbalance =>
            rw [hmade.statement_extend]
            exact hclosed.cons (.table first (others ++ [fragment])) [_]
              (hmade.lawful_table hbalance) trivial rfl
        | extending hbalance => exact hopen _ first (others ++ [fragment]) (hmade.extend hbalance)

/-! ## There is only one -/

/-- How a fragment opens a block. -/
inductive Opening where
  | blank
  | headless
  | single
  | table
  deriving DecidableEq

/-- A fragment opens just one sort of block. -/
def Opening.ofFragment (fragment : Text) : Opening :=
  if trim fragment = [] then .blank
  else match Head.ofFragment? (trim fragment) with
    | none => .headless
    | some .createTable => .table
    | some _ => .single

namespace Block

variable {block other : Block} {start : Text}

/-- How the first fragment of a block opens it. -/
def opening : Block → Opening
  | .blank _ => .blank
  | .headless _ => .headless
  | .single _ => .single
  | .table _ _ | .unclosed _ _ => .table

/-- The first fragment of a block tells how it is opened. -/
theorem Lawful.opening_eq (h : block.Lawful) :
    Opening.ofFragment block.first = block.opening := by
  cases block with
  | blank fragment => exact if_pos h
  | headless fragment =>
      obtain ⟨hne, hhead⟩ := h
      simp only [Opening.ofFragment, first, if_neg hne, hhead, opening]
  | single fragment =>
      obtain ⟨head, hhead, htable⟩ := h
      simp only [Opening.ofFragment, first, if_neg (trim_ne_nil_of_head hhead), hhead, opening]
  | table fragment others | unclosed fragment others =>
      have hhead : Head.ofFragment? (trim fragment) = some .createTable := h.1
      simp only [Opening.ofFragment, first, if_neg (trim_ne_nil_of_head hhead), hhead, opening]

/-- A table definition that is complete does not start another one. -/
theorem Lawful.eq_of_prefix {front back : List Text} (h : (Block.table start front).Lawful)
    (h' : (Block.table start back).Lawful) (hfront : front <+: back) : front = back := by
  by_contra hne
  exact h'.2.2 _ ((List.prefix_cons_inj start).2 hfront) (by simp) (by simpa using hne) h.2.1

/-- Nor does it start one that is never complete. -/
theorem Lawful.not_prefix {front back : List Text} (h : (Block.table start front).Lawful)
    (h' : (Block.unclosed start back).Lawful) : ¬front <+: back := fun hfront =>
  h'.2 _ ((List.prefix_cons_inj start).2 hfront) (by simp) h.2.1

/-- Where the same fragments follow, two blocks are the same, if the fragments end where a block
is left open. -/
theorem Lawful.eq_of_append {rest rest' : List Text} (h : block.Lawful) (h' : other.Lawful)
    (heq : block.fragments ++ rest = other.fragments ++ rest')
    (hrest : ¬block.IsClosed → rest = []) (hrest' : ¬other.IsClosed → rest' = []) :
    block = other := by
  rw [fragments, fragments, List.cons_append, List.cons_append, List.cons.injEq] at heq
  obtain ⟨hfirst, hothers⟩ := heq
  have hopening : block.opening = other.opening := by
    rw [← h.opening_eq, ← h'.opening_eq, hfirst]
  cases block with
  | blank fragment | headless fragment | single fragment =>
      cases other <;> simp_all [opening, first]
  | table fragment front =>
      cases other with
      | blank | headless | single => simp [opening] at hopening
      | table _ back =>
          obtain rfl : fragment = _ := hfirst
          have hfront : front <+: back ∨ back <+: front :=
            List.prefix_or_prefix_of_prefix ⟨rest, hothers⟩ ⟨rest', rfl⟩
          -- The fragments of the one start with those of the other, whichever is shorter.
          rcases hfront with hfront | hfront
          · rw [h.eq_of_prefix h' hfront]
          · rw [h'.eq_of_prefix h hfront]
      | unclosed _ back =>
          obtain rfl : fragment = _ := hfirst
          obtain rfl := hrest' not_false
          exact absurd ⟨rest, by simpa [Block.others] using hothers⟩ (h.not_prefix h')
  | unclosed fragment front =>
      obtain rfl := hrest not_false
      cases other with
      | blank | headless | single => simp [opening] at hopening
      | table _ back =>
          obtain rfl : fragment = _ := hfirst
          exact absurd ⟨rest', by simpa [Block.others] using hothers.symm⟩ (h'.not_prefix h)
      | unclosed _ back =>
          obtain rfl : fragment = _ := hfirst
          obtain rfl := hrest' not_false
          simpa [Block.others] using hothers

end Block

/-- Behind a block the others are a grouping of what is left, and behind one that is left open
nothing is. -/
theorem Grouping.uncons {block : Block} (h : Grouping fragments (block :: blocks)) :
    block.Lawful ∧ (¬block.IsClosed → blocks = []) ∧
      Grouping (blocks.flatMap Block.fragments) blocks := by
  obtain ⟨hfirst, hrest⟩ := List.pairwise_cons.1 h.closed
  obtain ⟨hlawful, hothers⟩ := List.forall_mem_cons.1 h.lawful
  refine ⟨hlawful, fun hopen => ?_, rfl, hothers, hrest⟩
  cases blocks with
  | nil => rfl
  | cons next others => exact absurd (hfirst next (by simp)) hopen

/-- Fragments have only one grouping. -/
theorem Grouping.eq {blocks' : List Block} (h : Grouping fragments blocks)
    (h' : Grouping fragments blocks') : blocks = blocks' := by
  induction blocks generalizing fragments blocks' with
  | nil =>
      cases blocks' with
      | nil => rfl
      | cons other _ =>
          have hflat := h.flatMap_fragments.trans h'.flatMap_fragments.symm
          simp [Block.fragments] at hflat
  | cons block rest ih =>
      cases blocks' with
      | nil =>
          have hflat := h.flatMap_fragments.trans h'.flatMap_fragments.symm
          simp [Block.fragments] at hflat
      | cons other rest' =>
          obtain ⟨hlawful, hopen, hrest⟩ := h.uncons
          obtain ⟨hlawful', hopen', hrest'⟩ := h'.uncons
          have hflat := h.flatMap_fragments.trans h'.flatMap_fragments.symm
          rw [List.flatMap_cons, List.flatMap_cons] at hflat
          obtain rfl : block = other := by
            refine hlawful.eq_of_append hlawful' hflat (fun hnot => ?_) fun hnot => ?_
            · rw [hopen hnot, List.flatMap_nil]
            · rw [hopen' hnot, List.flatMap_nil]
          rw [ih hrest (List.append_cancel_left hflat ▸ hrest')]

/-! ## What a block gives -/

/-- A table definition starts with the fragment that opens it. -/
theorem isInfix_trim_join (fragment : Text) (others : List Text) :
    trim fragment <:+: trim (join ";" (trim fragment :: others)) := by
  cases others with
  | nil => rw [join_singleton, trim_trim]
  | cons second others =>
      have hjoin : join ";" (trim fragment :: second :: others) =
          trim fragment ++ ';' :: join ";" (second :: others) :=
        join_char_cons ';' _ (by simp)
      rw [hjoin, trim_append_cons (head?_trim fragment) (by decide)]
      exact (List.prefix_append _ _).isInfix

/-- A statement that creates a table balances its parentheses, and any other holds no
semicolon. -/
def Sound (statement : Text) : Prop :=
  if containsCaseless statement "CREATE TABLE" then parenBalance statement = 0
  else ';' ∉ statement

/-- What a block gives is sound. -/
theorem Block.Lawful.sound {block : Block} (h : block.Lawful)
    (hsemicolon : ∀ fragment ∈ block.fragments, ';' ∉ fragment) {statement : Text}
    (hstatement : block.statement? = some statement) : Sound statement := by
  cases block with
  | single fragment =>
      obtain rfl := Option.some.inj hstatement
      obtain ⟨head, hhead, htable⟩ := h
      have hsilent : ¬containsCaseless (trim fragment) "CREATE TABLE" := by
        intro hspeaks
        rw [head_eq_createTable_iff.2 hspeaks] at hhead
        exact htable (Option.some.inj hhead).symm
      rw [Sound, if_neg hsilent]
      intro hmem
      exact hsemicolon fragment (List.mem_cons_self) ((trim_isInfix fragment).subset hmem)
  | table fragment others =>
      obtain rfl := Option.some.inj hstatement
      obtain ⟨hstarts, hbalance, -⟩ := h
      have hspeaks := containsCaseless_of_part (head_eq_createTable_iff.1 hstarts)
        (isInfix_trim_join fragment others)
      rw [Sound, if_pos hspeaks, parenBalance_trim, parenBalance_join rfl, balanceOf,
        parenBalance_trim]
      exact hbalance
  | blank | headless | unclosed => simp [Block.statement?] at hstatement

/-- The fragments of every dump have just one grouping. The statements of the dump are what its
blocks give, in order, and they are sound. -/
theorem unique_grouping (text : Text) :
    ∃ blocks, Grouping (Dump.fragments text) blocks ∧
      (∀ blocks', Grouping (Dump.fragments text) blocks' → blocks' = blocks) ∧
      statements text = blocks.filterMap Block.statement? ∧
      ∀ statement ∈ statements text, Sound statement := by
  obtain ⟨blocks, hgrouping, hstatements⟩ := (grouped_walk (Dump.fragments text)).1
  refine ⟨blocks, hgrouping, fun blocks' h => h.eq hgrouping, hstatements, ?_⟩
  intro statement hmem
  rw [show statements text = _ from hstatements] at hmem
  obtain ⟨block, hblock, hstatement⟩ := List.mem_filterMap.1 hmem
  refine (hgrouping.lawful block hblock).sound (fun fragment hfragment hsemicolon => ?_) hstatement
  have hpiece : fragment ∈ Dump.fragments text := by
    rw [← hgrouping.flatMap_fragments]
    exact List.mem_flatMap.2 ⟨block, hblock, hfragment⟩
  exact not_of_mem_pieces hpiece hsemicolon (by simp)

end SchemaDelta.Dump
