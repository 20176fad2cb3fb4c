import SchemaDelta.Proofs.Change.Edit
import SchemaDelta.Proofs.Change.Mirror

/-!
# The phases of a change

The edits of a table are run in four phases: constraints are dropped, columns are changed, then
indexes, and last constraints are added. A block of edits arranges a change if it has all of them,
each phase in the order in which it was computed and one phase after the other. There is one such
block and it is the one that is run (`arranges_iff`): a block in phases is known by its phases
(`Phased.eq_of_filter_eq`), and constraints are edited by drops and additions only
(`phase_of_mem_constraintEdits`). What differs is dropped in it before it is added again.
-/

namespace SchemaDelta

/-- What edits of one phase do. -/
inductive Phase where
  | constraintDrops
  | columns
  | indexes
  | constraintAdditions
  deriving DecidableEq

namespace Phase

/-- The phases in the order in which they are run. -/
def all : List Phase := [.constraintDrops, .columns, .indexes, .constraintAdditions]

/-- How many phases are run before. -/
def rank : Phase → Nat
  | .constraintDrops => 0
  | .columns => 1
  | .indexes => 2
  | .constraintAdditions => 3

theorem eq_of_rank_eq {phase other : Phase} (h : phase.rank = other.rank) : phase = other := by
  cases phase <;> cases other <;> simp [rank] at h ⊢

end Phase

/-- The phase in which an edit is run. -/
def Edit.phase : Edit → Phase
  | .addColumn .. => .columns
  | .suggestDropColumn .. => .columns
  | .modifyColumn .. => .columns
  | .addIndex .. => .indexes
  | .dropIndex .. => .indexes
  | .addConstraint .. => .constraintAdditions
  | .dropConstraint .. => .constraintDrops

/-! ## Blocks in phases -/

/-- No edit stands in front of one of an earlier phase. -/
def Phased (block : List Edit) : Prop :=
  block.Pairwise fun earlier later => earlier.phase.rank ≤ later.phase.rank

/-- The first edit of a block in phases is of the earliest phase in it. -/
theorem Phased.rank_head_le {first edit : Edit} {rest : List Edit} (h : Phased (first :: rest))
    (hedit : edit ∈ first :: rest) : first.phase.rank ≤ edit.phase.rank := by
  rcases List.mem_cons.1 hedit with rfl | hrest
  · exact Nat.le_refl _
  · exact List.rel_of_pairwise_cons h hrest

/-- Blocks with the same phases have the same edits. -/
theorem mem_iff_of_filter_eq {a b : List Edit}
    (h : ∀ phase, a.filter (·.phase = phase) = b.filter (·.phase = phase)) (edit : Edit) :
    edit ∈ a ↔ edit ∈ b := by
  have hphase : edit ∈ a.filter (·.phase = edit.phase) ↔
      edit ∈ b.filter (·.phase = edit.phase) := by rw [h edit.phase]
  simpa using hphase

/-- Blocks in phases are the same if each phase is the same in them. -/
theorem Phased.eq_of_filter_eq {a b : List Edit} (ha : Phased a) (hb : Phased b)
    (h : ∀ phase, a.filter (·.phase = phase) = b.filter (·.phase = phase)) : a = b := by
  induction a generalizing b with
  | nil =>
      cases b with
      | nil => rfl
      | cons y b => simpa using mem_iff_of_filter_eq h y
  | cons x a ih =>
      cases b with
      | nil => simpa using mem_iff_of_filter_eq h x
      | cons y b =>
          -- Both first edits are of the earliest phase, so they are the first edits of that phase.
          have hle := ha.rank_head_le ((mem_iff_of_filter_eq h _).2 List.mem_cons_self)
          have hge := hb.rank_head_le ((mem_iff_of_filter_eq h _).1 List.mem_cons_self)
          have hphase : x.phase = y.phase := Phase.eq_of_rank_eq (Nat.le_antisymm hle hge)
          have hfirst := h x.phase
          rw [List.filter_cons_of_pos (by simp), List.filter_cons_of_pos (by simp [hphase])]
            at hfirst
          obtain ⟨rfl, hsame⟩ := List.cons.inj hfirst
          have hrest : ∀ phase, a.filter (·.phase = phase) = b.filter (·.phase = phase) := by
            intro phase
            by_cases hx : x.phase = phase
            · subst hx
              exact hsame
            · have hother := h phase
              rwa [List.filter_cons_of_neg (by simpa using hx),
                List.filter_cons_of_neg (by simpa using hx)] at hother
          rw [ih (List.Pairwise.of_cons ha) (List.Pairwise.of_cons hb) hrest]

/-! ## The phases of edits -/

section Edits

variable {edit : Edit}

theorem phase_of_mem_columnEdits {current target : OrderedMap Column}
    (h : edit ∈ columnEdits current target) : edit.phase = .columns := by
  rcases of_mem_columnEdits h with ⟨_, _, -, rfl | rfl⟩ | ⟨_, _, -, rfl⟩ <;> rfl

theorem phase_of_mem_indexEdits {current target : OrderedMap Index}
    (h : edit ∈ indexEdits current target) : edit.phase = .indexes := by
  rcases of_mem_indexEdits h with ⟨_, _, -, -, rfl⟩ | ⟨_, _, -, rfl⟩ <;> rfl

/-- Constraints are dropped and added, and nothing else is done to them. -/
theorem phase_of_mem_constraintEdits {current target : OrderedMap Constraint}
    (h : edit ∈ constraintEdits current target) :
    (edit.action = .drop ∧ edit.phase = .constraintDrops) ∨
      (edit.action = .add ∧ edit.phase = .constraintAdditions) := by
  rcases of_mem_constraintEdits h with ⟨_, _, -, -, rfl⟩ | ⟨_, _, -, rfl⟩
  · exact .inr ⟨rfl, rfl⟩
  · exact .inl ⟨rfl, rfl⟩

end Edits

/-- What is done under one key where an entry that differs is dropped and added again. -/
theorem filter_key_rebuildEdits {α : Type} {add drop : Text × α → Edit} {differ : α → α → Bool}
    {current target : OrderedMap α} (hcurrent : EditsOf add drop current)
    (htarget : EditsOf add drop target) (key : Text) :
    (rebuildEdits add drop differ current target).filter (·.key = key) =
      match current.get? key, target.get? key with
      | none, none => []
      | none, some new => [add (key, new)]
      | some old, none => [drop (key, old)]
      | some old, some new => if differ old new then [drop (key, old), add (key, new)] else [] := by
  have hadd : ∀ {other new}, target.get? other = some new → (add (other, new)).key = other :=
    fun hnew => htarget.key_add _ (OrderedMap.get?_eq_some_iff.1 hnew)
  have hdrop : ∀ {other old}, current.get? other = some old → (drop (other, old)).key = other :=
    fun hold => hcurrent.key_drop _ (OrderedMap.get?_eq_some_iff.1 hold)
  rw [← List.flatMap_singleton' ((rebuildEdits add drop differ current target).filter _),
    flatMap_filter, rebuildEdits, List.flatMap_append, List.flatMap_append, List.flatMap_map,
    List.flatMap_map, List.flatMap_assoc]
  rw [OrderedMap.flatMap_compare key (fun _ _ hnew hne => by simp [hadd hnew, hne])
    (fun _ _ hold hne => by simp [hdrop hold, hne])
    (fun _ _ _ hold hnew hne => by simp [hadd hnew, hdrop hold, hne])]
  cases hold : current.get? key with
  | none =>
      cases hnew : target.get? key with
      | none => rfl
      | some new => simp [hadd hnew]
  | some old =>
      cases hnew : target.get? key with
      | none => simp [hdrop hold]
      | some new => simp [hadd hnew, hdrop hold]

namespace TableChange

/-- The edits of a phase in the order in which they were computed. -/
def inPhase (change : TableChange) : Phase → List Edit
  | .constraintDrops => change.constraints.filter (·.action = .drop)
  | .columns => change.columns
  | .indexes => change.indexes
  | .constraintAdditions => change.constraints.filter (·.action = .add)

/-- The block has every edit of the change as often as it was computed, the edits of each phase in
the order in which they were computed, and one phase after the other. -/
structure Arranges (change : TableChange) (block : List Edit) : Prop where
  perm : block.Perm (change.columns ++ change.indexes ++ change.constraints)
  filter_phase : ∀ phase, block.filter (·.phase = phase) = change.inPhase phase
  phased : Phased block

/-- What both forms have and what differs is dropped before it is added again. The two are all
that is done to an index of this name. -/
structure Rebuilds (change : TableChange) (block : List Edit) : Prop where
  indexes : ∀ key old new, change.current.indexes.get? key = some old →
    change.target.indexes.get? key = some new → old.definition ≠ new.definition →
    block.filter (fun edit => edit.phase = .indexes ∧ edit.key = key) =
      [.dropIndex key, .addIndex key new.definition]
  constraints : ∀ key old new, change.current.constraints.get? key = some old →
    change.target.constraints.get? key = some new → old.definition ≠ new.definition →
    [.dropConstraint old, .addConstraint new].Sublist block

/-- The two forms have the same columns, indexes and constraints with equal definitions, and no
statement of the target is to be replayed. -/
structure Settled (change : TableChange) : Prop where
  columns : OrderedMap.Agree Column.definition change.current.columns change.target.columns
  indexes : OrderedMap.Agree Index.definition change.current.indexes change.target.indexes
  constraints :
    OrderedMap.Agree Constraint.definition change.current.constraints change.target.constraints
  alters : change.target.alters = []

variable (change : TableChange)

theorem phase_of_mem_inPhase {phase : Phase} {edit : Edit} (h : edit ∈ change.inPhase phase) :
    edit.phase = phase := by
  cases phase with
  | columns => exact phase_of_mem_columnEdits h
  | indexes => exact phase_of_mem_indexEdits h
  | constraintDrops =>
      obtain ⟨hmem, haction⟩ := List.mem_filter.1 h
      rcases phase_of_mem_constraintEdits hmem with ⟨-, hphase⟩ | ⟨hadd, -⟩
      · exact hphase
      · simp [hadd] at haction
  | constraintAdditions =>
      obtain ⟨hmem, haction⟩ := List.mem_filter.1 h
      rcases phase_of_mem_constraintEdits hmem with ⟨hdrop, -⟩ | ⟨-, hphase⟩
      · simp [hdrop] at haction
      · exact hphase

/-- The edits are run phase by phase. -/
theorem ordered_eq_flatMap : change.ordered = Phase.all.flatMap change.inPhase := by
  simp [ordered, Phase.all, inPhase]

theorem filter_phase_ordered (phase : Phase) :
    change.ordered.filter (·.phase = phase) = change.inPhase phase := by
  have hfilter : ∀ other, (change.inPhase other).filter (·.phase = phase) =
      if other = phase then change.inPhase phase else [] := by
    intro other
    split
    · next heq =>
      subst heq
      exact List.filter_eq_self.2 fun edit hedit => by
        simpa using change.phase_of_mem_inPhase hedit
    · next hne =>
      refine List.filter_eq_nil_iff.2 fun edit hedit => ?_
      rw [change.phase_of_mem_inPhase hedit]
      simpa using hne
  rw [ordered_eq_flatMap, List.filter_flatMap, List.flatMap_congr fun other _ => hfilter other]
  cases phase <;> simp [Phase.all]

theorem phased_ordered : Phased change.ordered := by
  have hrank : Phase.all.Pairwise fun a b => a.rank < b.rank := by decide
  rw [ordered_eq_flatMap, Phased, List.pairwise_flatMap]
  refine ⟨fun phase _ => List.pairwise_of_forall_mem_list fun a ha b hb => ?_,
    hrank.imp fun hlt a ha b hb => ?_⟩
  · rw [change.phase_of_mem_inPhase ha, change.phase_of_mem_inPhase hb]
  · rw [change.phase_of_mem_inPhase ha, change.phase_of_mem_inPhase hb]
    exact Nat.le_of_lt hlt

/-- Every edit of a constraint is a drop or an addition, so none is lost. -/
theorem perm_constraints : (change.inPhase .constraintDrops ++
    change.inPhase .constraintAdditions).Perm change.constraints := by
  have hadd : change.inPhase .constraintAdditions =
      change.constraints.filter fun edit => !decide (edit.action = .drop) := by
    refine List.filter_congr fun edit hedit => ?_
    rcases phase_of_mem_constraintEdits hedit with ⟨haction, -⟩ | ⟨haction, -⟩ <;>
      simp [haction]
  rw [hadd]
  exact List.filter_append_perm _ _

/-- No edit is lost and none is run twice. -/
theorem perm_ordered :
    change.ordered.Perm (change.columns ++ change.indexes ++ change.constraints) := by
  have hphases : change.ordered = change.inPhase .constraintDrops ++
      (change.columns ++ change.indexes) ++ change.inPhase .constraintAdditions := by
    simp [ordered, inPhase]
  rw [hphases]
  refine (List.perm_append_comm.append_right _).trans ?_
  rw [List.append_assoc]
  exact change.perm_constraints.append_left _

theorem arranges_ordered : change.Arranges change.ordered :=
  ⟨change.perm_ordered, change.filter_phase_ordered, change.phased_ordered⟩

theorem rebuilds_ordered : change.Rebuilds change.ordered where
  indexes key old new hold hnew hdiffer := by
    have hedits : ∀ m : OrderedMap Index, EditsOf
        (fun entry => .addIndex entry.1 entry.2.definition) (fun entry => .dropIndex entry.1) m :=
      fun _ => ⟨fun _ => rfl, fun _ => rfl, fun _ _ => rfl, fun _ _ => rfl⟩
    have hphase : change.ordered.filter (fun edit => edit.phase = .indexes ∧ edit.key = key) =
        change.indexes.filter (·.key = key) := by
      rw [show change.indexes = change.inPhase .indexes from rfl, ← filter_phase_ordered,
        List.filter_filter]
      simp [and_comm]
    rw [hphase, indexes, indexEdits_eq_rebuildEdits,
      filter_key_rebuildEdits (hedits _) (hedits _), hold, hnew]
    simp [hdiffer]
  constraints key old new hold hnew hdiffer := by
    have hchanged : (key, old, new) ∈ OrderedMap.changed
        (fun old new => old.definition ≠ new.definition) change.current.constraints
        change.target.constraints :=
      OrderedMap.mem_changed_iff.2
        ⟨OrderedMap.get?_eq_some_iff.1 hnew, hold, decide_eq_true hdiffer⟩
    have hmem : ∀ edit ∈ [Edit.dropConstraint old, .addConstraint new],
        edit ∈ change.constraints := fun edit hedit =>
      List.mem_append_right _ (List.mem_flatMap.2 ⟨_, hchanged, hedit⟩)
    have hdrop : Edit.dropConstraint old ∈ change.inPhase .constraintDrops :=
      List.mem_filter.2 ⟨hmem _ (by simp), rfl⟩
    have hadd : Edit.addConstraint new ∈ change.inPhase .constraintAdditions :=
      List.mem_filter.2 ⟨hmem _ (by simp), rfl⟩
    have hdrops := (List.singleton_sublist.2 hdrop).trans
      (List.sublist_append_left _ (change.columns ++ change.indexes))
    rw [← List.append_assoc] at hdrops
    exact hdrops.append (List.singleton_sublist.2 hadd)

/-- There is nothing to run exactly where nothing is edited. -/
theorem ordered_eq_nil_iff : change.ordered = [] ↔
    change.columns = [] ∧ change.indexes = [] ∧ change.constraints = [] := by
  rw [← List.perm_nil, change.perm_ordered.congr_left, List.perm_nil, List.append_eq_nil_iff,
    List.append_eq_nil_iff, and_assoc]

/-- There is nothing to run, to suggest or to replay exactly if a change is settled. -/
theorem settled_iff : change.ordered = [] ∧ ¬change.hasChanges ↔ change.Settled := by
  have hconstraints : change.constraints = [] ↔ OrderedMap.Agree Constraint.definition
      change.current.constraints change.target.constraints :=
    rebuildEdits_eq_nil_iff (by simp)
  have hchanges : ¬change.hasChanges ↔ change.columns = [] ∧ change.indexes = [] ∧
      change.constraints = [] ∧ change.target.alters = [] := by
    simp [hasChanges, replayed, and_assoc]
  rw [ordered_eq_nil_iff, hchanges, columns, columnEdits_eq_nil_iff, indexes,
    indexEdits_eq_nil_iff, hconstraints]
  constructor
  · rintro ⟨-, hcolumns, hindexes, hconstraints, halters⟩
    exact ⟨hcolumns, hindexes, hconstraints, halters⟩
  · rintro ⟨hcolumns, hindexes, hconstraints, halters⟩
    exact ⟨⟨hcolumns, hindexes, hconstraints⟩, hcolumns, hindexes, hconstraints, halters⟩

/-- The block that is run is the only one that has each edit of a change once, drops constraints
first, then edits columns, then indexes, and adds constraints last, all in the order in which they
were computed. In it whatever both forms have and differs is dropped before it is added again. It
is empty, and there are no changes, exactly if the two forms have the same keys with equal
definitions and the target has no statements to replay. -/
theorem arranges_iff :
    (∀ block, change.Arranges block ↔ block = change.ordered) ∧
      change.Rebuilds change.ordered ∧
      (change.ordered = [] ∧ ¬change.hasChanges ↔ change.Settled) := by
  refine ⟨fun block => ⟨fun h => ?_, fun h => ?_⟩, change.rebuilds_ordered, change.settled_iff⟩
  · have hphases : ∀ phase, block.filter (·.phase = phase) =
        change.ordered.filter (·.phase = phase) := by
      intro phase
      rw [h.filter_phase, filter_phase_ordered]
    exact h.phased.eq_of_filter_eq change.phased_ordered hphases
  · rw [h]
    exact change.arranges_ordered

end TableChange

end SchemaDelta
