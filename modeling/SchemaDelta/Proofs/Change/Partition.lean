import SchemaDelta.Proofs.Change.Synchronized

/-!
# Tables by their keys

The keys of two schemas fall into three classes: tables to create, tables that could be dropped,
and tables of both. Two of the classes go by the keys alone, whatever is under them
(`dropped_eq_filter`, `map_name_common`). The tables to create are found by their own names, so
the classes part the keys exactly when the current schema has the name of a table of the target
just where it has its key (`partitioned_iff`). This is so of the schemas of dumps
(`partitioned_ofTexts`) but need not be of schemas that were put together otherwise.
-/

namespace SchemaDelta

/-- What can become of a key: its table is created, could be dropped, or is compared. -/
inductive TableClass where
  | created
  | dropped
  | compared
  deriving DecidableEq

namespace Delta

variable {delta : Delta} {key : Text}

/-- The delta has the key in the class. -/
def Puts (delta : Delta) (key : Text) : TableClass → Prop
  | .created => ∃ table ∈ delta.created, delta.target.tables.get? key = some table
  | .dropped => key ∈ delta.dropped
  | .compared => ∃ change ∈ delta.common, change.name = key

/-- The classes go by the keys: created are the tables under keys that only the target has,
dropped are the keys that only the current schema has, compared are the keys of both, and every
key is in just one class. -/
structure Partitioned (delta : Delta) : Prop where
  created : delta.created = (delta.target.tables.entries.filter fun entry =>
    entry.1 ∉ delta.current.tables.keys).map Prod.snd
  dropped : delta.dropped =
    delta.current.tables.keys.filter fun key => key ∉ delta.target.tables.keys
  compared : delta.common.map TableChange.name =
    delta.target.tables.keys.filter fun key => key ∈ delta.current.tables.keys
  existsUnique : ∀ key, key ∈ delta.current.tables.keys ∨ key ∈ delta.target.tables.keys →
    ∃! place, delta.Puts key place

/-! ## The classes that go by the keys -/

/-- The tables that could be dropped are under the keys that only the current schema has. -/
theorem dropped_eq_filter (delta : Delta) : delta.dropped =
    delta.current.tables.keys.filter fun key => key ∉ delta.target.tables.keys := by
  rw [dropped]
  refine List.filter_congr fun key _ => ?_
  simp [← OrderedMap.contains_iff_mem_keys]

/-- The tables that are compared are under the keys of both schemas, in the order of the
target. -/
theorem map_name_common (delta : Delta) : delta.common.map TableChange.name =
    delta.target.tables.keys.filter fun key => key ∈ delta.current.tables.keys := by
  show _ = (delta.target.tables.entries.map Prod.fst).filter _
  rw [common, List.map_filterMap, List.filter_map, ← List.filterMap_eq_filter, List.map_filterMap]
  refine List.filterMap_congr fun entry _ => ?_
  have hmem : entry.1 ∈ delta.current.tables.keys ↔
      (delta.current.tables.get? entry.1).isSome := OrderedMap.contains_iff_mem_keys.symm
  cases hget : delta.current.tables.get? entry.1 <;> simp_all [Option.guard]

theorem puts_dropped_iff : delta.Puts key .dropped ↔
    key ∈ delta.current.tables.keys ∧ key ∉ delta.target.tables.keys := by
  rw [Puts, dropped_eq_filter, List.mem_filter, decide_eq_true_iff]

theorem puts_compared_iff : delta.Puts key .compared ↔
    key ∈ delta.target.tables.keys ∧ key ∈ delta.current.tables.keys := by
  rw [Puts, ← List.mem_map, map_name_common, List.mem_filter, decide_eq_true_iff]

/-! ## The class that goes by the names -/

theorem mem_created_iff {table : Table} : table ∈ delta.created ↔
    table ∈ delta.target.tables.values ∧ table.name ∉ delta.current.tables.keys := by
  rw [created, List.mem_filter, ← OrderedMap.contains_iff_mem_keys, Bool.not_eq_true',
    Bool.not_eq_true]

/-- A key of the target is in the class of what is created if the current schema does not have
the name of its table. -/
theorem puts_created_iff {table : Table} (hget : delta.target.tables.get? key = some table) :
    delta.Puts key .created ↔ table.name ∉ delta.current.tables.keys := by
  have hvalue : table ∈ delta.target.tables.values :=
    List.mem_map_of_mem (OrderedMap.get?_eq_some_iff.1 hget)
  constructor
  · rintro ⟨other, hcreated, hother⟩
    rw [hget] at hother
    obtain rfl := Option.some.inj hother
    exact (mem_created_iff.1 hcreated).2
  · exact fun hname => ⟨table, mem_created_iff.2 ⟨hvalue, hname⟩, hget⟩

/-- Nothing is created under a key that the target does not have. -/
theorem not_puts_created (hkey : key ∉ delta.target.tables.keys) : ¬delta.Puts key .created := by
  rintro ⟨table, -, hget⟩
  rw [OrderedMap.get?_eq_none_iff.2 hkey] at hget
  simp at hget

/-- The current schema has the name of a table of the target just where it has its key. -/
def NamedAlike (delta : Delta) : Prop :=
  ∀ entry ∈ delta.target.tables.entries,
    entry.2.name ∈ delta.current.tables.keys ↔ entry.1 ∈ delta.current.tables.keys

/-- Then every key is in just one class. -/
theorem NamedAlike.existsUnique (h : delta.NamedAlike)
    (hkey : key ∈ delta.current.tables.keys ∨ key ∈ delta.target.tables.keys) :
    ∃! place, delta.Puts key place := by
  have hdropped : delta.Puts key .dropped ↔ _ := puts_dropped_iff
  have hcompared : delta.Puts key .compared ↔ _ := puts_compared_iff
  by_cases htarget : key ∈ delta.target.tables.keys
  · obtain ⟨table, hget⟩ := Option.isSome_iff_exists.1
      (OrderedMap.contains_iff_mem_keys.2 htarget)
    have hcreated := puts_created_iff hget
    rw [h (key, table) (OrderedMap.get?_eq_some_iff.1 hget)] at hcreated
    by_cases hcurrent : key ∈ delta.current.tables.keys
    · refine ⟨.compared, hcompared.2 ⟨htarget, hcurrent⟩, fun other hother => ?_⟩
      cases other <;> simp_all
    · refine ⟨.created, hcreated.2 hcurrent, fun other hother => ?_⟩
      cases other <;> simp_all
  · have hcreated := not_puts_created htarget
    refine ⟨.dropped, hdropped.2 ⟨hkey.resolve_right htarget, htarget⟩, fun other hother => ?_⟩
    cases other <;> simp_all

/-- And the classes go by the keys. -/
theorem NamedAlike.partitioned (h : delta.NamedAlike) : delta.Partitioned where
  created := by
    rw [created, OrderedMap.values, List.filter_map]
    congr 1
    refine List.filter_congr fun entry hentry => ?_
    have hname := h entry hentry
    rw [← OrderedMap.contains_iff_mem_keys] at hname
    rw [Function.comp_apply, decide_not, Bool.not_inj_iff, Bool.eq_iff_iff, decide_eq_true_iff]
    exact hname
  dropped := dropped_eq_filter delta
  compared := map_name_common delta
  existsUnique _ hkey := h.existsUnique hkey

/-- If every key is in just one class, the current schema has names just where it has keys. -/
theorem Partitioned.namedAlike (h : delta.Partitioned) : delta.NamedAlike := by
  intro entry hentry
  have htarget : entry.1 ∈ delta.target.tables.keys := List.mem_map_of_mem hentry
  have hcreated := puts_created_iff (OrderedMap.get?_eq_some_iff.2 hentry)
  obtain ⟨place, hplace, hunique⟩ := h.existsUnique entry.1 (.inr htarget)
  constructor
  · intro hname
    -- The table is not created, and its key is in the target, so its class is the third.
    cases place with
    | created => exact absurd hname (hcreated.1 hplace)
    | dropped => exact absurd htarget (puts_dropped_iff.1 hplace).2
    | compared => exact (puts_compared_iff.1 hplace).2
  · intro hcurrent
    by_contra hname
    have hfirst := hunique _ (hcreated.2 hname)
    have hsecond := hunique _ (puts_compared_iff.2 ⟨htarget, hcurrent⟩)
    rw [← hsecond] at hfirst
    simp at hfirst

/-- The tables of two dumps are classed by their keys. -/
theorem partitioned_ofTexts (current target : Text) : (ofTexts current target).Partitioned := by
  refine NamedAlike.partitioned fun entry hentry => ?_
  rw [((recorded_target current target).tables entry hentry).name_eq]

/-! ## A schema and itself -/

/-- There is no edit between constraints and themselves. -/
theorem constraintEdits_self (constraints : OrderedMap Constraint) :
    constraintEdits constraints constraints = [] := by
  rw [constraintEdits, OrderedMap.added_self, OrderedMap.removed_self,
    OrderedMap.changed_self (by simp)]
  rfl

/-- A table and itself have changes exactly when it is altered by a statement of its own. -/
theorem hasChanges_self_iff (name : Text) (table : Table) :
    (⟨name, table, table⟩ : TableChange).hasChanges ↔ table.alters ≠ [] := by
  have hcolumns : columnEdits table.columns table.columns = [] :=
    columnEdits_eq_nil_iff.2 fun _ => rfl
  have hindexes : indexEdits table.indexes table.indexes = [] :=
    indexEdits_eq_nil_iff.2 fun _ => rfl
  simp [TableChange.hasChanges, TableChange.columns, TableChange.indexes, TableChange.constraints,
    TableChange.replayed, hcolumns, hindexes, constraintEdits_self]

/-- The tables that a schema has in common with itself are its tables. -/
theorem common_self (schema : Schema) : (⟨schema, schema⟩ : Delta).common =
    schema.tables.entries.map fun entry => ⟨entry.1, entry.2, entry.2⟩ := by
  rw [common, ← List.filterMap_eq_map]
  refine List.filterMap_congr fun entry hentry => ?_
  rw [OrderedMap.get?_eq_some_iff.2 hentry]
  rfl

/-- No table is altered between a schema and itself exactly when none is altered by a statement
of its own. -/
theorem altered_self_eq_nil_iff {schema : Schema} : (⟨schema, schema⟩ : Delta).altered = [] ↔
    ∀ entry ∈ schema.tables.entries, entry.2.alters = [] := by
  rw [altered, common_self, List.filter_eq_nil_iff, List.forall_mem_map]
  refine forall₂_congr fun entry _ => ?_
  rw [hasChanges_self_iff, not_not]

/-- No table is created between a schema and itself exactly when the name of every table is one
of its keys. -/
theorem created_self_eq_nil_iff {schema : Schema} : (⟨schema, schema⟩ : Delta).created = [] ↔
    ∀ entry ∈ schema.tables.entries, entry.2.name ∈ schema.tables.keys := by
  rw [created, List.filter_eq_nil_iff, OrderedMap.values, List.forall_mem_map]
  refine forall₂_congr fun entry _ => ?_
  rw [← OrderedMap.contains_iff_mem_keys]
  simp

/-- A schema and itself need nothing done exactly when no table is altered by a statement of its
own and the name of every table is one of its keys. -/
theorem isEmpty_self_iff {schema : Schema} : (⟨schema, schema⟩ : Delta).isEmpty ↔
    (∀ entry ∈ schema.tables.entries, entry.2.alters = []) ∧
      ∀ entry ∈ schema.tables.entries, entry.2.name ∈ schema.tables.keys := by
  have hdiffers : ∀ view : View, ¬view.differs view := fun view => by simp [View.differs]
  rw [isEmpty_iff_nil, created_self_eq_nil_iff, altered_self_eq_nil_iff, dropped_eq]
  simp only [OrderedMap.added_self, OrderedMap.removed_self, OrderedMap.changed_self hdiffers,
    List.map_nil, and_true, true_and]
  exact and_comm

/-- Whatever the schemas are, the tables that could be dropped and those that are compared go by
the keys. All classes do, and every key is in just one of them, exactly when the current schema
has the name of a table of the target just where it has its key; and a schema needs nothing done
to become itself exactly when no table is altered by a statement of its own and every table has
a name that is a key. -/
theorem partitioned_iff (delta : Delta) (schema : Schema) :
    delta.dropped =
        (delta.current.tables.keys.filter fun key => key ∉ delta.target.tables.keys) ∧
      delta.common.map TableChange.name =
        (delta.target.tables.keys.filter fun key => key ∈ delta.current.tables.keys) ∧
      (delta.Partitioned ↔ ∀ entry ∈ delta.target.tables.entries,
        entry.2.name ∈ delta.current.tables.keys ↔ entry.1 ∈ delta.current.tables.keys) ∧
      ((⟨schema, schema⟩ : Delta).isEmpty ↔
        (∀ entry ∈ schema.tables.entries, entry.2.alters = []) ∧
          ∀ entry ∈ schema.tables.entries, entry.2.name ∈ schema.tables.keys) :=
  ⟨dropped_eq_filter delta, map_name_common delta,
    ⟨Partitioned.namedAlike, NamedAlike.partitioned⟩, isEmpty_self_iff⟩

/-- A schema with one table, which stands under a key that is not its name. -/
def misfiled : Schema := ⟨⟨[("a", .shell "b")], by decide⟩, ∅⟩

/-- The key of the table is in two classes, and the schema is to become itself by creating the
table, which no statement alters. -/
theorem not_partitioned_of_misfiled :
    ¬(⟨misfiled, misfiled⟩ : Delta).Partitioned ∧
      (⟨misfiled, misfiled⟩ : Delta).created = [.shell "b"] ∧
      ¬(⟨misfiled, misfiled⟩ : Delta).isEmpty ∧
      ∀ entry ∈ misfiled.tables.entries, entry.2.alters = [] := by
  refine ⟨fun h => ?_, by decide, by decide, by decide⟩
  have hcreated : (⟨misfiled, misfiled⟩ : Delta).Puts "a" .created :=
    ⟨.shell "b", by decide, by decide⟩
  have hcompared : (⟨misfiled, misfiled⟩ : Delta).Puts "a" .compared :=
    ⟨⟨"a", .shell "b", .shell "b"⟩, by decide, rfl⟩
  have hclass := (h.existsUnique "a" (.inl (by decide))).unique hcreated hcompared
  simp at hclass

end Delta

end SchemaDelta
