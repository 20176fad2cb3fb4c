import Mathlib.Data.List.Perm.Basic
import SchemaDelta.Proofs.Change.Rebuild
import SchemaDelta.Proofs.Change.Synchronized

/-!
# The way back

A delta with its sides swapped is the way back from the target. What one way creates the other
could drop, the columns that one way adds the other suggests to drop, and an index or constraint
that one way only adds the other only drops; what both sides have and what differs between them
is the same both ways (`mirrors_ofTexts`). All of it comes from the comparison of two maps, whose
first two lists trade places when the maps do (`perm_changed_swap` is about the third).
-/

namespace SchemaDelta

/-! ## Comparing two maps the other way round -/

namespace OrderedMap

variable {α : Type} {current target : OrderedMap α} {differ : α → α → Bool} {key : Text}

/-- The comparison finds the key among those whose values differ. -/
theorem mem_keys_changed_iff : key ∈ (changed differ current target).map Prod.fst ↔
    ∃ old new, current.get? key = some old ∧ target.get? key = some new ∧ differ old new := by
  constructor
  · intro h
    obtain ⟨⟨_, old, new⟩, hchange, rfl⟩ := List.mem_map.1 h
    exact ⟨old, new, get?_of_mem_changed hchange⟩
  · rintro ⟨old, new, hold, hnew, hdiffer⟩
    have hchange := mem_changed_iff.2 ⟨get?_eq_some_iff.1 hnew, hold, hdiffer⟩
    exact List.mem_map.2 ⟨(key, old, new), hchange, rfl⟩

/-- The same keys have values that differ both ways, although in the order of either map. -/
theorem perm_changed_swap (hdiffer : ∀ key old new, current.get? key = some old →
    target.get? key = some new → (differ old new ↔ differ new old)) :
    ((changed differ current target).map Prod.fst).Perm
      ((changed differ target current).map Prod.fst) := by
  refine (List.perm_ext_iff_of_nodup nodup_changed nodup_changed).2 fun key => ?_
  rw [mem_keys_changed_iff, mem_keys_changed_iff]
  constructor
  · rintro ⟨old, new, hold, hnew, h⟩
    exact ⟨new, old, hnew, hold, (hdiffer key old new hold hnew).1 h⟩
  · rintro ⟨new, old, hnew, hold, h⟩
    exact ⟨old, new, hold, hnew, (hdiffer key old new hold hnew).2 h⟩

/-- As many keys have values that differ one way as the other. -/
theorem length_changed_swap (hdiffer : ∀ key old new, current.get? key = some old →
    target.get? key = some new → (differ old new ↔ differ new old)) :
    (changed differ current target).length = (changed differ target current).length := by
  simpa using (perm_changed_swap hdiffer).length_eq

/-- Values that look different one way do so the other. -/
theorem differ_comm (view : α → Text) (old new : α) :
    decide (view old ≠ view new) ↔ decide (view new ≠ view old) := by
  rw [decide_eq_true_iff, decide_eq_true_iff, ne_comm]

/-- Maps that agree one way agree the other. -/
theorem Agree.symm {β : Type} {view : α → β} {a b : OrderedMap α} (h : Agree view a b) :
    Agree view b a :=
  fun key => (h key).symm

end OrderedMap

theorem Table.Agrees.symm {a b : Table} (h : a.Agrees b) : b.Agrees a :=
  ⟨h.columns.symm, h.indexes.symm, h.constraints.symm⟩

/-! ## What edits do to which key -/

/-- The key of the column, index or constraint that an edit is about. -/
def Edit.key : Edit → Text
  | .addColumn name _ => name
  | .suggestDropColumn name => name
  | .modifyColumn name _ => name
  | .addIndex key _ => key
  | .dropIndex key => key
  | .addConstraint constraint => constraint.name
  | .dropConstraint constraint => constraint.name

/-- The keys to which the edits do this, in order. -/
def keysOf (action : Edit.Action) (edits : List Edit) : List Text :=
  (edits.filter (·.action = action)).map Edit.key

/-- The keys of what the edits add and do not drop. -/
def onlyAdded (edits : List Edit) : List Text :=
  (keysOf .add edits).filter fun key => !(keysOf .drop edits).contains key

/-- The keys of what the edits drop and do not add. -/
def onlyDropped (edits : List Edit) : List Text :=
  (keysOf .drop edits).filter fun key => !(keysOf .add edits).contains key

/-- The keys of what the edits drop and add again. -/
def rebuilt (edits : List Edit) : List Text :=
  (keysOf .add edits).filter fun key => (keysOf .drop edits).contains key

theorem keysOf_append (action : Edit.Action) (front back : List Edit) :
    keysOf action (front ++ back) = keysOf action front ++ keysOf action back := by
  rw [keysOf, List.filter_append, List.map_append, keysOf, keysOf]

/-- Edits that come in groups, each of which does this to its own key only. -/
theorem keysOf_flatMap {β : Type} {action : Edit.Action} {groups : List β} {f : β → List Edit}
    {k : β → Text} (h : ∀ group ∈ groups, keysOf action (f group) = [k group]) :
    keysOf action (groups.flatMap f) = groups.map k := by
  induction groups with
  | nil => rfl
  | cons first rest ih =>
      rw [List.flatMap_cons, keysOf_append, h first List.mem_cons_self,
        ih fun group hgroup => h group (List.mem_cons_of_mem _ hgroup)]
      rfl

/-- Edits that each do this to their own key. -/
theorem keysOf_map {β : Type} {action : Edit.Action} {entries : List β} {f : β → Edit}
    {k : β → Text} (haction : ∀ entry ∈ entries, (f entry).action = action)
    (hkey : ∀ entry ∈ entries, (f entry).key = k entry) :
    keysOf action (entries.map f) = entries.map k := by
  rw [List.map_eq_flatMap, keysOf_flatMap fun entry hentry => ?_]
  simp [keysOf, haction entry hentry, hkey entry hentry]

/-- Edits that do something else. -/
theorem keysOf_map_of_ne {β : Type} {action : Edit.Action} {entries : List β} {f : β → Edit}
    (haction : ∀ entry ∈ entries, (f entry).action ≠ action) :
    keysOf action (entries.map f) = [] := by
  have hnone : (entries.map f).filter (·.action = action) = [] :=
    List.filter_eq_nil_iff.2 (List.forall_mem_map.2 fun entry hentry => by
      simpa using haction entry hentry)
  rw [keysOf, hnone, List.map_nil]

/-! ## Edits of columns -/

section Columns

variable (current target : OrderedMap Column)

/-- The columns that only the target has are added. -/
theorem keysOf_add_columnEdits : keysOf .add (columnEdits current target) =
    (OrderedMap.added current target).map Prod.fst := by
  rw [columnEdits, keysOf_append, keysOf_append, keysOf_map (k := Prod.fst), keysOf_map_of_ne,
    keysOf_map_of_ne, List.append_nil, List.append_nil] <;> simp [Edit.action, Edit.key]

/-- The columns that only the current form has are suggested to be dropped. -/
theorem keysOf_suggest_columnEdits : keysOf .suggest (columnEdits current target) =
    (OrderedMap.removed current target).map Prod.fst := by
  rw [columnEdits, keysOf_append, keysOf_append, keysOf_map_of_ne, keysOf_map (k := Prod.fst),
    keysOf_map_of_ne, List.append_nil, List.nil_append] <;> simp [Edit.action, Edit.key]

/-- The columns of both forms that differ are modified. -/
theorem keysOf_modify_columnEdits : keysOf .modify (columnEdits current target) =
    (OrderedMap.changed (fun old new => old.definition ≠ new.definition) current target).map
      Prod.fst := by
  rw [columnEdits, keysOf_append, keysOf_append, keysOf_map_of_ne, keysOf_map_of_ne,
    keysOf_map (k := Prod.fst), List.append_nil, List.nil_append] <;> simp [Edit.action, Edit.key]

end Columns

/-! ## Edits that rebuild what differs -/

section Rebuild

variable {α : Type} {add drop : Text × α → Edit} {differ : α → α → Bool}
  {current target : OrderedMap α}

/-- The two edits of an entry add and drop it, and do so under its key if the map has it. -/
structure EditsOf (add drop : Text × α → Edit) (m : OrderedMap α) : Prop where
  action_add : ∀ entry, (add entry).action = .add
  action_drop : ∀ entry, (drop entry).action = .drop
  key_add : ∀ entry ∈ m.entries, (add entry).key = entry.1
  key_drop : ∀ entry ∈ m.entries, (drop entry).key = entry.1

/-- What is added is what only the target has, and what is rebuilt. -/
theorem keysOf_add_rebuildEdits (h : EditsOf add drop target) :
    keysOf .add (rebuildEdits add drop differ current target) =
      (OrderedMap.added current target).map Prod.fst ++
        (OrderedMap.changed differ current target).map Prod.fst := by
  rw [rebuildEdits, keysOf_append, keysOf_append,
    keysOf_map (fun entry _ => h.action_add entry)
      (fun entry hentry => h.key_add entry (OrderedMap.mem_added_iff.1 hentry).1),
    keysOf_map_of_ne fun entry _ => by simp [h.action_drop], List.append_nil,
    keysOf_flatMap fun change hchange => ?_]
  have hkey := h.key_add _ (OrderedMap.mem_changed_iff.1 hchange).1
  simp [keysOf, h.action_add, h.action_drop, hkey]

/-- What is dropped is what only the current map has, and what is rebuilt. -/
theorem keysOf_drop_rebuildEdits (h : EditsOf add drop current) :
    keysOf .drop (rebuildEdits add drop differ current target) =
      (OrderedMap.removed current target).map Prod.fst ++
        (OrderedMap.changed differ current target).map Prod.fst := by
  rw [rebuildEdits, keysOf_append, keysOf_append,
    keysOf_map_of_ne fun entry _ => by simp [h.action_add],
    keysOf_map (fun entry _ => h.action_drop entry)
      (fun entry hentry => h.key_drop entry (OrderedMap.mem_removed_iff.1 hentry).1),
    List.nil_append, keysOf_flatMap fun change hchange => ?_]
  have hold := (OrderedMap.get?_of_mem_changed hchange).1
  have hkey := h.key_drop _ (OrderedMap.get?_eq_some_iff.1 hold)
  simp [keysOf, h.action_add, h.action_drop, hkey]

/-- Of distinct keys in three parts, the first and the last part lose the last part when the
other parts are taken away. -/
theorem filter_not_contains_of_nodup {first second last : List Text}
    (h : (first ++ (second ++ last)).Nodup) :
    ((first ++ last).filter fun key => !(second ++ last).contains key) = first := by
  rw [List.filter_append, List.filter_eq_self.2, List.filter_eq_nil_iff.2, List.append_nil]
  · intro key hkey
    simp [hkey]
  · intro key hkey
    rw [Bool.not_eq_true', ← Bool.not_eq_true, List.contains_iff_mem]
    exact fun hmem => (List.nodup_append.1 h).2.2 key hkey key hmem rfl

/-- And what they have in common with the other parts is the last part. -/
theorem filter_contains_of_nodup {first second last : List Text}
    (h : (first ++ (second ++ last)).Nodup) :
    ((first ++ last).filter fun key => (second ++ last).contains key) = last := by
  rw [List.filter_append, List.filter_eq_nil_iff.2, List.filter_eq_self.2, List.nil_append]
  · intro key hkey
    simp [hkey]
  · intro key hkey
    rw [List.contains_iff_mem]
    exact fun hmem => (List.nodup_append.1 h).2.2 key hkey key hmem rfl

variable (hcurrent : EditsOf add drop current) (htarget : EditsOf add drop target)

include hcurrent htarget

/-- What is only added is what only the target has. -/
theorem onlyAdded_rebuildEdits : onlyAdded (rebuildEdits add drop differ current target) =
    (OrderedMap.added current target).map Prod.fst := by
  rw [onlyAdded, keysOf_add_rebuildEdits htarget, keysOf_drop_rebuildEdits hcurrent]
  refine filter_not_contains_of_nodup ?_
  rw [← List.append_assoc]
  exact OrderedMap.nodup_compare differ current target

/-- What is only dropped is what only the current map has. -/
theorem onlyDropped_rebuildEdits : onlyDropped (rebuildEdits add drop differ current target) =
    (OrderedMap.removed current target).map Prod.fst := by
  rw [onlyDropped, keysOf_add_rebuildEdits htarget, keysOf_drop_rebuildEdits hcurrent]
  refine filter_not_contains_of_nodup ?_
  rw [← List.append_assoc]
  exact (OrderedMap.nodup_compare differ current target).perm
    (List.perm_append_comm.append_right _)

/-- What is rebuilt is what both have and what differs. -/
theorem rebuilt_rebuildEdits : rebuilt (rebuildEdits add drop differ current target) =
    (OrderedMap.changed differ current target).map Prod.fst := by
  rw [rebuilt, keysOf_add_rebuildEdits htarget, keysOf_drop_rebuildEdits hcurrent]
  refine filter_contains_of_nodup ?_
  rw [← List.append_assoc]
  exact OrderedMap.nodup_compare differ current target

end Rebuild

/-- The edits of one way and those of the way back: what one way only adds the other only drops,
and both rebuild the same. -/
structure MirrorEdits (edits back : List Edit) : Prop where
  added : onlyAdded edits = onlyDropped back
  dropped : onlyDropped edits = onlyAdded back
  rebuilt : (rebuilt edits).Perm (rebuilt back)

theorem mirror_rebuildEdits {α : Type} {add drop : Text × α → Edit} {differ : α → α → Bool}
    {current target : OrderedMap α} (hdiffer : ∀ old new, differ old new ↔ differ new old)
    (hcurrent : EditsOf add drop current) (htarget : EditsOf add drop target) :
    MirrorEdits (rebuildEdits add drop differ current target)
      (rebuildEdits add drop differ target current) where
  added := by
    rw [onlyAdded_rebuildEdits hcurrent htarget, onlyDropped_rebuildEdits htarget hcurrent]
    rfl
  dropped := by
    rw [onlyDropped_rebuildEdits hcurrent htarget, onlyAdded_rebuildEdits htarget hcurrent]
    rfl
  rebuilt := by
    rw [rebuilt_rebuildEdits hcurrent htarget, rebuilt_rebuildEdits htarget hcurrent]
    exact OrderedMap.perm_changed_swap fun _ old new _ _ => hdiffer old new

/-! ## Tables -/

namespace TableChange

/-- The way back. -/
def swap (change : TableChange) : TableChange := ⟨change.name, change.target, change.current⟩

/-- The edits of one change and those of the way back. -/
structure Mirrors (change back : TableChange) : Prop where
  addedColumns : keysOf .add change.columns = keysOf .suggest back.columns
  suggestedColumns : keysOf .suggest change.columns = keysOf .add back.columns
  modifiedColumns : (keysOf .modify change.columns).Perm (keysOf .modify back.columns)
  indexes : MirrorEdits change.indexes back.indexes
  constraints : MirrorEdits change.constraints back.constraints

theorem mirrorEdits_indexes (change : TableChange) :
    MirrorEdits change.indexes change.swap.indexes := by
  have hedits : ∀ m : OrderedMap Index, EditsOf
      (fun entry => .addIndex entry.1 entry.2.definition) (fun entry => .dropIndex entry.1) m :=
    fun _ => ⟨fun _ => rfl, fun _ => rfl, fun _ _ => rfl, fun _ _ => rfl⟩
  exact mirror_rebuildEdits (OrderedMap.differ_comm _) (hedits change.current.indexes)
    (hedits change.target.indexes)

/-- Constraints that stand under their names are edited by their keys. -/
theorem mirrorEdits_constraints {change : TableChange}
    (hcurrent : change.current.constraints.Holds fun key constraint => constraint.name = key)
    (htarget : change.target.constraints.Holds fun key constraint => constraint.name = key) :
    MirrorEdits change.constraints change.swap.constraints := by
  have hedits : ∀ m : OrderedMap Constraint, (m.Holds fun key constraint => constraint.name = key) →
      EditsOf (fun entry => .addConstraint entry.2) (fun entry => .dropConstraint entry.2) m :=
    fun _ h => ⟨fun _ => rfl, fun _ => rfl, h, h⟩
  exact mirror_rebuildEdits (OrderedMap.differ_comm _) (hedits _ hcurrent) (hedits _ htarget)

/-- The edits between two recorded tables mirror those of the way back. -/
theorem mirrors_swap {change : TableChange} {statements targetStatements : List Text} {key : Text}
    (hcurrent : change.current.Recorded statements key)
    (htarget : change.target.Recorded targetStatements key) : change.Mirrors change.swap where
  addedColumns := by
    rw [columns, keysOf_add_columnEdits, columns, keysOf_suggest_columnEdits]
    rfl
  suggestedColumns := by
    rw [columns, keysOf_suggest_columnEdits, columns, keysOf_add_columnEdits]
    rfl
  modifiedColumns := by
    rw [columns, keysOf_modify_columnEdits, columns, keysOf_modify_columnEdits]
    exact OrderedMap.perm_changed_swap fun _ old new _ _ => OrderedMap.differ_comm _ old new
  indexes := mirrorEdits_indexes change
  constraints := mirrorEdits_constraints (fun entry hentry => (hcurrent.constraints entry hentry).1)
    fun entry hentry => (htarget.constraints entry hentry).1

/-- Where no statement is replayed, there is something to do one way just if there is the
other. -/
theorem hasChanges_swap_iff {change : TableChange} {statements targetStatements : List Text}
    {key : Text} (hcurrent : change.current.Recorded statements key)
    (htarget : change.target.Recorded targetStatements key)
    (hcurrentAlters : change.current.alters = []) (htargetAlters : change.target.alters = []) :
    change.hasChanges ↔ change.swap.hasChanges := by
  have hdeclared : change.current.constraints.Holds fun _ constraint => constraint.Declared :=
    fun entry hentry => (hcurrent.constraints entry hentry).2
  have hdeclared' : change.target.constraints.Holds fun _ constraint => constraint.Declared :=
    fun entry hentry => (htarget.constraints entry hentry).2
  have hback : ¬change.swap.hasChanges ↔
      change.target.Agrees change.current ∧ change.current.alters = [] :=
    hasChanges_iff hdeclared' hdeclared
  rw [← not_iff_not, hasChanges_iff hdeclared hdeclared', hback, hcurrentAlters, htargetAlters]
  exact and_congr_left' ⟨Table.Agrees.symm, Table.Agrees.symm⟩

end TableChange

/-! ## Schemas -/

namespace Delta

/-- The way back. -/
def swap (delta : Delta) : Delta := ⟨delta.target, delta.current⟩

/-- What two ways between the same schemas have in common. -/
structure Mirrors (delta back : Delta) : Prop where
  created : delta.created.map Table.name = back.dropped
  newViews : delta.summary.newViews = back.summary.droppedViews
  modifiedViews : delta.summary.modifiedViews = back.summary.modifiedViews
  common : ∀ change ∈ delta.common, change.swap ∈ back.common ∧ change.Mirrors change.swap
  modifiedTables : (∀ entry ∈ delta.current.tables.entries, entry.2.alters = []) →
    (∀ entry ∈ delta.target.tables.entries, entry.2.alters = []) →
    delta.summary.modifiedTables = back.summary.modifiedTables

/-- The tables to alter are those that the comparison finds if tables with changes between them
count as different. -/
theorem altered_eq (delta : Delta) : delta.altered =
    (OrderedMap.changed (fun old new => (⟨[], old, new⟩ : TableChange).hasChanges)
      delta.current.tables delta.target.tables).map fun change =>
        ⟨change.1, change.2.1, change.2.2⟩ := by
  rw [altered, common, OrderedMap.changed, List.filter_filterMap, List.map_filterMap]
  refine List.filterMap_congr fun entry _ => ?_
  cases delta.current.tables.get? entry.1 with
  | none => rfl
  | some old =>
      have hname : (⟨entry.1, old, entry.2⟩ : TableChange).hasChanges =
          (⟨[], old, entry.2⟩ : TableChange).hasChanges := rfl
      rw [Option.map_some, Option.filter_some, hname]
      dsimp only
      split <;> rfl

section Swap

variable {delta : Delta} {statements targetStatements : List Text}
  (hcurrent : delta.current.Recorded statements) (htarget : delta.target.Recorded targetStatements)

include htarget in
/-- What one way creates the other could drop. -/
theorem map_name_created : delta.created.map Table.name = delta.swap.dropped := by
  rw [created_eq htarget, dropped_eq, List.map_map]
  exact List.map_congr_left fun entry hentry =>
    (htarget.tables entry (OrderedMap.mem_added_iff.1 hentry).1).name_eq

include hcurrent htarget in
/-- Without statements of their own, as many tables are to be altered one way as the other. -/
theorem length_altered_swap
    (hcurrentAlters : ∀ entry ∈ delta.current.tables.entries, entry.2.alters = [])
    (htargetAlters : ∀ entry ∈ delta.target.tables.entries, entry.2.alters = []) :
    delta.altered.length = delta.swap.altered.length := by
  rw [altered_eq, altered_eq, List.length_map, List.length_map]
  refine OrderedMap.length_changed_swap fun key old new hold hnew => ?_
  exact TableChange.hasChanges_swap_iff (hcurrent.tables.of_get? hold)
    (htarget.tables.of_get? hnew) (hcurrentAlters (key, old) (OrderedMap.get?_eq_some_iff.1 hold))
    (htargetAlters (key, new) (OrderedMap.get?_eq_some_iff.1 hnew))

include hcurrent htarget in
/-- A delta of recorded schemas and the way back mirror each other. -/
theorem mirrors_swap : delta.Mirrors delta.swap where
  created := map_name_created htarget
  newViews := rfl
  modifiedViews := OrderedMap.length_changed_swap fun _ old new _ _ =>
    OrderedMap.differ_comm View.normalizedDefinition old new
  common change hchange := by
    obtain ⟨hold, hnew⟩ := mem_common_iff.1 hchange
    exact ⟨mem_common_iff.2 ⟨hnew, hold⟩,
      TableChange.mirrors_swap (hcurrent.tables.of_get? hold) (htarget.tables.of_get? hnew)⟩
  modifiedTables := length_altered_swap hcurrent htarget

end Swap

/-- The deltas of two dumps, one way and the other, mirror each other. -/
theorem mirrors_ofTexts (current target : Text) :
    (ofTexts current target).Mirrors (ofTexts target current) :=
  mirrors_swap (recorded_current current target) (recorded_target current target)

end Delta

end SchemaDelta
