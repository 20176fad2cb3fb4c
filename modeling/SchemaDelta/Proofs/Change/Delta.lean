import SchemaDelta.Change.Delta
import SchemaDelta.Proofs.Dump.Schema

/-!
# The parts of a delta

The tables of a delta fall into three classes by their keys. Where every table of the target
stands under its own name, the tables to create are those whose key the current schema does not
have (`created_eq`); the others come from comparing the keys (`dropped_eq`, `mem_common_iff`).
What happens to the views is told by names and by statements of the target
(`recorded_of_mem_viewChanges`).
-/

namespace SchemaDelta

/-- The change is told by a name, and by a statement among the given ones whose header creates
the view of that name. -/
def ViewChange.Recorded (statements : List Text) : ViewChange → Prop
  | .create name sql | .replace name sql =>
    Sql.IsName name ∧ sql ∈ statements ∧ Sql.Header.ofStatement? sql = some (.createView name)
  | .remove name => Sql.IsName name

namespace Delta

/-- The delta of the schemas of two dumps. -/
def ofTexts (current target : Text) : Delta :=
  ⟨Dump.schemaOfText current, Dump.schemaOfText target⟩

@[simp] theorem current_ofTexts (current target : Text) :
    (ofTexts current target).current = Dump.schemaOfText current := by
  rw [ofTexts]

@[simp] theorem target_ofTexts (current target : Text) :
    (ofTexts current target).target = Dump.schemaOfText target := by
  rw [ofTexts]

theorem recorded_current (current target : Text) :
    (ofTexts current target).current.Recorded (Dump.statements current) := by
  rw [current_ofTexts]
  exact Dump.recorded_schemaOfText current

theorem recorded_target (current target : Text) :
    (ofTexts current target).target.Recorded (Dump.statements target) := by
  rw [target_ofTexts]
  exact Dump.recorded_schemaOfText target

variable {delta : Delta}

/-- Where tables stand under their names, those to create are those that only the target has. -/
theorem created_eq {statements : List Text} (h : delta.target.Recorded statements) :
    delta.created =
      (OrderedMap.added delta.current.tables delta.target.tables).map Prod.snd := by
  rw [created, OrderedMap.values, List.filter_map, OrderedMap.added]
  congr 1
  refine List.filter_congr fun entry hentry => ?_
  rw [Function.comp_apply, (h.tables entry hentry).name_eq]

/-- The tables that could be dropped are those that only the current schema has. -/
theorem dropped_eq : delta.dropped =
    (OrderedMap.removed delta.current.tables delta.target.tables).map Prod.fst := by
  rw [dropped, OrderedMap.keys, List.filter_map]
  rfl

/-- A table of both schemas is one that both have under the same key. -/
theorem mem_common_iff {change : TableChange} : change ∈ delta.common ↔
    delta.current.tables.get? change.name = some change.current ∧
      delta.target.tables.get? change.name = some change.target := by
  obtain ⟨name, old, new⟩ := change
  rw [common, List.mem_filterMap]
  constructor
  · rintro ⟨⟨key, table⟩, hentry, hchange⟩
    obtain ⟨current, hcurrent, heq⟩ := Option.map_eq_some_iff.1 hchange
    obtain ⟨rfl, rfl, rfl⟩ : key = name ∧ current = old ∧ table = new := by simpa using heq
    exact ⟨hcurrent, OrderedMap.get?_eq_some_iff.2 hentry⟩
  · rintro ⟨hold, hnew⟩
    exact ⟨(name, new), OrderedMap.get?_eq_some_iff.1 hnew, by rw [hold]; rfl⟩

/-- A view is created or replaced by its definition in the target, and one that is removed is a
view of the current schema. -/
theorem of_mem_viewChanges {change : ViewChange} (h : change ∈ delta.viewChanges) :
    (∃ name sql view, (change = .create name sql ∨ change = .replace name sql) ∧
      delta.target.views.get? name = some view ∧ view.definition = some sql) ∨
    ∃ name view, change = .remove name ∧ delta.current.views.get? name = some view := by
  rcases List.mem_append.1 h with h | h
  · rcases List.mem_append.1 h with h | h
    · obtain ⟨⟨name, view⟩, hentry, hchange⟩ := List.mem_filterMap.1 h
      obtain ⟨sql, hsql, rfl⟩ := Option.map_eq_some_iff.1 hchange
      exact .inl ⟨name, sql, view, .inl rfl, OrderedMap.get?_of_mem_added hentry, hsql⟩
    · obtain ⟨⟨name, view⟩, hentry, rfl⟩ := List.mem_map.1 h
      exact .inr ⟨name, view, rfl, OrderedMap.get?_of_mem_removed hentry⟩
  · obtain ⟨⟨name, old, view⟩, hentry, hchange⟩ := List.mem_filterMap.1 h
    obtain ⟨sql, hsql, rfl⟩ := Option.map_eq_some_iff.1 hchange
    have hnew := (OrderedMap.get?_of_mem_changed hentry).2.1
    exact .inl ⟨name, sql, view, .inr rfl, hnew, hsql⟩

/-- The changes between recorded views are recorded from the statements of the target. -/
theorem recorded_of_mem_viewChanges {statements targetStatements : List Text}
    (hcurrent : delta.current.Recorded statements)
    (htarget : delta.target.Recorded targetStatements) {change : ViewChange}
    (h : change ∈ delta.viewChanges) : change.Recorded targetStatements := by
  rcases of_mem_viewChanges h with
    ⟨name, sql, view, rfl | rfl, hget, hsql⟩ | ⟨name, view, rfl, hget⟩
  · have hview := htarget.views.of_get? hget
    exact ⟨hview.isName, hview.definition sql hsql⟩
  · have hview := htarget.views.of_get? hget
    exact ⟨hview.isName, hview.definition sql hsql⟩
  · exact (hcurrent.views.of_get? hget).isName

end Delta

end SchemaDelta
