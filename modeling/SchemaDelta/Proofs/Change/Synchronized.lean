import SchemaDelta.Proofs.Change.Delta
import SchemaDelta.Proofs.Change.Rebuild
import SchemaDelta.Script

/-!
# Schemas that need nothing done

A delta is empty exactly when its two schemas agree in every table and every view, whatever the
order of their maps, and no statement of the target waits to be replayed
(`Delta.isEmpty_iff`). The last line of a script says which of the two is the case
(`synchronized_iff`).
-/

namespace SchemaDelta

open Sql Text

/-- The two tables have the same columns and indexes with equal definitions, and the same
constraints with equal kinds, columns and definitions. -/
structure Table.Agrees (a b : Table) : Prop where
  columns : OrderedMap.Agree Column.definition a.columns b.columns
  indexes : OrderedMap.Agree Index.definition a.indexes b.indexes
  constraints : OrderedMap.Agree (fun constraint =>
    (constraint.kind, constraint.columns, constraint.definition)) a.constraints b.constraints

/-- The two schemas have the same tables and views, which agree, and no table of the target is
altered by a statement of its own. -/
structure Delta.Synchronized (delta : Delta) : Prop where
  tableKeys : ∀ key, key ∈ delta.current.tables.keys ↔ key ∈ delta.target.tables.keys
  tables : ∀ key old new, delta.current.tables.get? key = some old →
    delta.target.tables.get? key = some new → old.Agrees new
  alters : ∀ entry ∈ delta.target.tables.entries, entry.2.alters = []
  views : OrderedMap.Agree View.definition delta.current.views delta.target.views

variable {statements targetStatements : List Text}

/-- There is no edit of columns exactly when the columns agree. -/
theorem columnEdits_eq_nil_iff {current target : OrderedMap Column} :
    columnEdits current target = [] ↔ OrderedMap.Agree Column.definition current target := by
  rw [OrderedMap.agree_iff (fun old new => old.definition ≠ new.definition) (by simp),
    columnEdits, List.append_eq_nil_iff, List.append_eq_nil_iff, List.map_eq_nil_iff,
    List.map_eq_nil_iff, List.map_eq_nil_iff, and_assoc]

/-- There is no edit of indexes exactly when the indexes agree. -/
theorem indexEdits_eq_nil_iff {current target : OrderedMap Index} :
    indexEdits current target = [] ↔ OrderedMap.Agree Index.definition current target := by
  rw [indexEdits_eq_rebuildEdits]
  exact rebuildEdits_eq_nil_iff (by simp)

/-- There is no edit of constraints exactly when the constraints agree: of declared constraints
the definition says the kind and the columns. -/
theorem constraintEdits_eq_nil_iff {current target : OrderedMap Constraint}
    (hcurrent : current.Holds fun _ constraint => constraint.Declared)
    (htarget : target.Holds fun _ constraint => constraint.Declared) :
    constraintEdits current target = [] ↔
      OrderedMap.Agree (fun constraint =>
        (constraint.kind, constraint.columns, constraint.definition)) current target := by
  rw [constraintEdits_eq_rebuildEdits]
  refine rebuildEdits_eq_nil_iff fun key old new hold hnew => ?_
  rw [decide_eq_true_eq, not_iff_not]
  constructor
  · intro h
    rw [(hcurrent.of_get? hold).eq_of_definition_eq (htarget.of_get? hnew) h]
  · intro h
    exact (Prod.mk.inj (Prod.mk.inj h).2).2

/-- A table of both schemas has changes unless the two forms agree and nothing is replayed. -/
theorem TableChange.hasChanges_iff {change : TableChange}
    (hcurrent : change.current.constraints.Holds fun _ constraint => constraint.Declared)
    (htarget : change.target.constraints.Holds fun _ constraint => constraint.Declared) :
    ¬change.hasChanges ↔ change.current.Agrees change.target ∧ change.target.alters = [] := by
  have hedits : ¬change.hasChanges ↔ change.columns = [] ∧ change.indexes = [] ∧
      change.constraints = [] ∧ change.replayed = [] := by
    simp [hasChanges, and_assoc]
  rw [hedits, columns, columnEdits_eq_nil_iff, indexes, indexEdits_eq_nil_iff, constraints,
    constraintEdits_eq_nil_iff hcurrent htarget]
  constructor
  · rintro ⟨hcolumns, hindexes, hconstraints, halters⟩
    exact ⟨⟨hcolumns, hindexes, hconstraints⟩, halters⟩
  · rintro ⟨⟨hcolumns, hindexes, hconstraints⟩, halters⟩
    exact ⟨hcolumns, hindexes, hconstraints, halters⟩

/-- Of recorded views the definitions are compared as they are: a definition is a statement, so
it is tidy and not empty. -/
theorem View.Recorded.differs_iff {a b : Text} {key : Text} {old new : View}
    (hold : old.Recorded (Dump.statements a) key) (hnew : new.Recorded (Dump.statements b) key) :
    old.differs new ↔ old.definition ≠ new.definition := by
  have hnormal : ∀ {text : Text} {view : View}, view.Recorded (Dump.statements text) key →
      view.normalizedDefinition = view.definition.getD [] ∧ view.definition ≠ some [] := by
    intro text view hview
    constructor
    · rw [View.normalizedDefinition]
      cases hdefinition : view.definition with
      | none => rfl
      | some sql =>
          exact (Dump.tidy_of_mem_statements
            (hview.definition sql hdefinition).1).normalizeBlanks_eq
    · exact fun hempty => ne_nil_of_header (hview.definition [] hempty).2 rfl
  obtain ⟨holdNormal, holdEmpty⟩ := hnormal hold
  obtain ⟨hnewNormal, hnewEmpty⟩ := hnormal hnew
  rw [View.differs, decide_eq_true_eq, holdNormal, hnewNormal, not_iff_not]
  refine ⟨fun h => ?_, fun h => h ▸ rfl⟩
  cases hdefinition : old.definition <;> cases hdefinition' : new.definition <;> simp_all

/-- Recorded views agree exactly when comparing them finds nothing. -/
theorem views_agree_iff {a b : Text} {current target : OrderedMap View}
    (hcurrent : current.Holds (View.Recorded (Dump.statements a)))
    (htarget : target.Holds (View.Recorded (Dump.statements b))) :
    OrderedMap.Agree View.definition current target ↔ OrderedMap.added current target = [] ∧
      OrderedMap.removed current target = [] ∧
      OrderedMap.changed View.differs current target = [] :=
  OrderedMap.agree_iff View.differs fun _ _ _ hold hnew =>
    (hcurrent.of_get? hold).differs_iff (htarget.of_get? hnew)

/-- A delta is empty exactly when each of the six comparisons finds nothing. -/
theorem Delta.isEmpty_iff_nil {delta : Delta} : delta.isEmpty ↔
    delta.created = [] ∧ delta.dropped = [] ∧ delta.altered = [] ∧
      OrderedMap.added delta.current.views delta.target.views = [] ∧
      OrderedMap.removed delta.current.views delta.target.views = [] ∧
      OrderedMap.changed View.differs delta.current.views delta.target.views = [] := by
  simp only [isEmpty, Summary.isSynchronized, decide_eq_true_eq, summary, Summary.zero,
    Summary.mk.injEq, List.length_eq_zero_iff]

/-- No table is to be created or could be dropped exactly when the keys are the same. -/
theorem Delta.created_dropped_eq_nil_iff {delta : Delta}
    (htarget : delta.target.Recorded statements) :
    delta.created = [] ∧ delta.dropped = [] ↔
      ∀ key, key ∈ delta.current.tables.keys ↔ key ∈ delta.target.tables.keys := by
  rw [created_eq htarget, dropped_eq, List.map_eq_nil_iff, List.map_eq_nil_iff,
    OrderedMap.eq_nil_iff_lookup, OrderedMap.eq_nil_iff_lookup, ← forall_and]
  refine forall_congr' fun key => ?_
  rw [OrderedMap.lookup_added, OrderedMap.lookup_removed, ← OrderedMap.contains_iff_mem_keys,
    ← OrderedMap.contains_iff_mem_keys, OrderedMap.contains, OrderedMap.contains]
  cases delta.current.tables.get? key <;> cases delta.target.tables.get? key <;> simp

/-- A delta of the schemas of two dumps is empty exactly when they are synchronized. -/
theorem Delta.isEmpty_iff {a b : Text} {delta : Delta}
    (hcurrent : delta.current.Recorded (Dump.statements a))
    (htarget : delta.target.Recorded (Dump.statements b)) :
    delta.isEmpty ↔ delta.Synchronized := by
  have hchanges : ∀ change ∈ delta.common, ¬change.hasChanges ↔
      change.current.Agrees change.target ∧ change.target.alters = [] := by
    intro change hchange
    obtain ⟨hold, hnew⟩ := mem_common_iff.1 hchange
    exact TableChange.hasChanges_iff
      (fun entry hentry => ((hcurrent.tables.of_get? hold).constraints entry hentry).2)
      (fun entry hentry => ((htarget.tables.of_get? hnew).constraints entry hentry).2)
  rw [isEmpty_iff_nil, ← views_agree_iff hcurrent.views htarget.views, ← and_assoc,
    created_dropped_eq_nil_iff htarget, altered, List.filter_eq_nil_iff]
  constructor
  · rintro ⟨hkeys, haltered, hviews⟩
    refine ⟨hkeys, fun key old new hold hnew => ?_, fun entry hentry => ?_, hviews⟩
    · have hcommon : (⟨key, old, new⟩ : TableChange) ∈ delta.common :=
        mem_common_iff.2 ⟨hold, hnew⟩
      exact ((hchanges _ hcommon).1 (haltered _ hcommon)).1
    · -- The key of the entry is in the current schema too, so the table is one of both.
      have hmem : entry.1 ∈ delta.target.tables.keys := List.mem_map_of_mem hentry
      obtain ⟨old, hold⟩ := Option.isSome_iff_exists.1
        (OrderedMap.contains_iff_mem_keys.2 ((hkeys entry.1).2 hmem))
      have hcommon : (⟨entry.1, old, entry.2⟩ : TableChange) ∈ delta.common :=
        mem_common_iff.2 ⟨hold, OrderedMap.get?_eq_some_iff.2 hentry⟩
      exact ((hchanges _ hcommon).1 (haltered _ hcommon)).2
  · intro h
    refine ⟨h.tableKeys, fun change hchange => ?_, h.views⟩
    obtain ⟨hold, hnew⟩ := mem_common_iff.1 hchange
    exact (hchanges change hchange).2 ⟨h.tables _ _ _ hold hnew,
      h.alters (change.name, change.target) (OrderedMap.get?_eq_some_iff.1 hnew)⟩

/-- A schema and itself are synchronized exactly when no table is altered by a statement of its
own. -/
theorem Delta.synchronized_self_iff {schema : Schema} :
    (⟨schema, schema⟩ : Delta).Synchronized ↔
      ∀ entry ∈ schema.tables.entries, entry.2.alters = [] := by
  refine ⟨fun h => h.alters, fun h => ⟨fun _ => Iff.rfl, ?_, h, fun _ => rfl⟩⟩
  intro key old new hold hnew
  obtain rfl : old = new := Option.some.inj (hold.symm.trans hnew)
  exact ⟨fun _ => rfl, fun _ => rfl, fun _ => rfl⟩

namespace Script

/-- A script ends with the line of synchronized schemas exactly when its delta is empty. -/
theorem synchronizedLine_suffix_iff {delta : Delta} :
    synchronizedLine.text <:+ ofDelta delta ↔ delta.isEmpty := by
  have hlast : (lines delta).getLast? =
      some (if delta.isEmpty then synchronizedLine else reviewLine) := by
    simp [lines, summary]
    rfl
  obtain ⟨front, hfront⟩ : (if delta.isEmpty then synchronizedLine else reviewLine).text <:+
      ofDelta delta := by
    rw [ofDelta, ← List.dropLast_append_getLast? _ hlast, List.map_append, List.map_singleton]
    exact isSuffix_join_concat _ _ _
  rw [← hfront]
  split
  · next hempty => exact ⟨fun _ => hempty, fun _ => List.suffix_append _ _⟩
  · next hempty =>
    refine ⟨fun hsuffix => ?_, fun h => absurd h hempty⟩
    have hboth := List.suffix_of_suffix_length_le hsuffix (List.suffix_append front _) (by decide)
    exact absurd hboth (by decide)

/-- Two dumps need nothing done exactly when their schemas are synchronized, which the last line
of the script says; and a dump compared with itself needs nothing done exactly when no table is
altered by a statement of its own. -/
theorem synchronized_iff (current target : Text) :
    ((Delta.ofTexts current target).isEmpty ↔ (Delta.ofTexts current target).Synchronized) ∧
    (synchronizedLine.text <:+ ofTexts current target ↔
      (Delta.ofTexts current target).Synchronized) ∧
    (synchronizedLine.text <:+ ofTexts current current ↔
      ∀ entry ∈ (Dump.schemaOfText current).tables.entries, entry.2.alters = []) := by
  have hempty : ∀ a b : Text,
      (Delta.ofTexts a b).isEmpty ↔ (Delta.ofTexts a b).Synchronized := fun a b =>
    Delta.isEmpty_iff (Delta.recorded_current a b) (Delta.recorded_target a b)
  have hsuffix : ∀ a b : Text,
      synchronizedLine.text <:+ ofTexts a b ↔ (Delta.ofTexts a b).Synchronized := fun a b =>
    synchronizedLine_suffix_iff.trans (hempty a b)
  exact ⟨hempty current target, hsuffix current target,
    (hsuffix current current).trans Delta.synchronized_self_iff⟩

end Script

end SchemaDelta
