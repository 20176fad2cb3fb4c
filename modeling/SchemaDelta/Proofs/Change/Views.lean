import SchemaDelta.Proofs.Change.Synchronized

/-!
# Changes of views and their counts

A summary counts views by their keys and definitions, while a change needs a definition to run.
The two differ by the views of the target that have no definition: those that only the target has
(`undefinedViews`) and those that the current schema defines (`forgottenViews`). Each is counted
once and changed never, and apart from them the counts and the changes agree
(`viewChanges_summary`).
-/

namespace SchemaDelta

open Sql Text

namespace ViewChange

/-- What a change does to its view. -/
inductive Kind where
  | create
  | remove
  | replace
  deriving DecidableEq

/-- The kind of a change. -/
def kind : ViewChange → Kind
  | .create .. => .create
  | .remove .. => .remove
  | .replace .. => .replace

end ViewChange

namespace Delta

variable {delta : Delta}

/-- How many views are changed in this way. -/
def count (delta : Delta) (kind : ViewChange.Kind) : Nat :=
  delta.viewChanges.countP (·.kind = kind)

/-- The keys of the views that only the target has and does not define. -/
def undefinedViews (delta : Delta) : List Text :=
  (delta.target.views.entries.filter fun entry =>
    entry.1 ∉ delta.current.views.keys ∧ entry.2.definition = none).map Prod.fst

/-- The keys of the views that both schemas have and only the current one defines, by more than
blanks. -/
def forgottenViews (delta : Delta) : List Text :=
  (delta.target.views.entries.filter fun entry => entry.2.definition = none ∧
    (delta.current.views.get? entry.1).any (·.normalizedDefinition ≠ [])).map Prod.fst

end Delta

/-! ## The names of the changes -/

/-- No two changes are about the same view. -/
theorem nodup_name_viewChanges (current target : OrderedMap View) :
    ((viewChanges current target).map ViewChange.name).Nodup := by
  refine (OrderedMap.nodup_compare View.differs current target).sublist ?_
  rw [viewChanges, List.map_append, List.map_append]
  refine .append (.append ?_ ?_) ?_
  · refine OrderedMap.map_filterMap_sublist (fun entry change hchange => ?_) _
    obtain ⟨sql, -, rfl⟩ := Option.map_eq_some_iff.1 hchange
    rfl
  · rw [List.map_map]
    exact .refl _
  · refine OrderedMap.map_filterMap_sublist (fun entry change hchange => ?_) _
    obtain ⟨sql, -, rfl⟩ := Option.map_eq_some_iff.1 hchange
    rfl

/-- From a view without a definition another one differs unless its definition is blank. -/
theorem View.differs_undefined {old new : View} (h : new.definition = none) :
    old.differs new = decide (old.normalizedDefinition ≠ []) := by
  rw [View.differs, View.normalizedDefinition.eq_1 new, h]
  rfl

namespace Delta

/-! ## How many there are of each kind -/

/-- The definitions among the views give as many changes as there are definitions. -/
theorem countP_definitions {α : Type} {p : ViewChange → Bool} {b : Bool} {view : α → View}
    {change : α → Text → ViewChange} (h : ∀ a sql, p (change a sql) = b) (l : List α) :
    (l.filterMap fun a => (view a).definition.map (change a)).countP p =
      l.countP fun a => (view a).definition.isSome && b := by
  rw [List.countP_filterMap]
  refine List.countP_congr fun a _ => ?_
  cases (view a).definition <;> simp [h]

/-- The changes of a kind, counted among the views that are new, gone and different. -/
theorem count_eq (delta : Delta) (kind : ViewChange.Kind) : delta.count kind =
    (OrderedMap.added delta.current.views delta.target.views).countP
        (fun entry => entry.2.definition.isSome && decide (.create = kind)) +
      (OrderedMap.removed delta.current.views delta.target.views).countP
        (fun _ => decide (.remove = kind)) +
      (OrderedMap.changed View.differs delta.current.views delta.target.views).countP
        fun change => change.2.2.definition.isSome && decide (.replace = kind) := by
  rw [count, viewChanges, SchemaDelta.viewChanges, List.countP_append, List.countP_append,
    countP_definitions (b := decide (.create = kind)) (fun _ _ => by rfl),
    countP_definitions (b := decide (.replace = kind)) (fun _ _ => by rfl), List.countP_map]
  rfl

/-- Created are those of the new views that are defined. -/
theorem count_create (delta : Delta) : delta.count .create =
    (OrderedMap.added delta.current.views delta.target.views).countP
      fun entry => entry.2.definition.isSome := by
  simp [count_eq]

/-- Removed are the views that are gone. -/
theorem count_remove (delta : Delta) : delta.count .remove = delta.summary.droppedViews := by
  simp [count_eq, summary]

/-- Replaced are those of the views that differ which the target defines. -/
theorem count_replace (delta : Delta) : delta.count .replace =
    (OrderedMap.changed View.differs delta.current.views delta.target.views).countP
      fun change => change.2.2.definition.isSome := by
  simp [count_eq]

/-- The new views that are not defined make up the difference to the new views. -/
theorem length_undefinedViews (delta : Delta) : delta.undefinedViews.length =
    (OrderedMap.added delta.current.views delta.target.views).countP
      fun entry => entry.2.definition.isNone := by
  rw [undefinedViews, List.length_map, ← List.countP_eq_length_filter, OrderedMap.added,
    List.countP_filter]
  refine List.countP_congr fun entry _ => ?_
  rw [decide_eq_true_iff, ← OrderedMap.contains_iff_mem_keys]
  simp [and_comm]

/-- The views that differ and that the target does not define are the forgotten ones. -/
theorem length_forgottenViews (delta : Delta) : delta.forgottenViews.length =
    (OrderedMap.changed View.differs delta.current.views delta.target.views).countP
      fun change => change.2.2.definition.isNone := by
  rw [forgottenViews, List.length_map, ← List.countP_eq_length_filter, OrderedMap.changed,
    List.countP_filterMap]
  refine List.countP_congr fun entry _ => ?_
  cases hold : delta.current.views.get? entry.1 with
  | none => simp
  | some old =>
      cases hdefinition : entry.2.definition with
      | none => by_cases hblank : old.normalizedDefinition = [] <;>
          simp [View.differs_undefined hdefinition, hblank, hdefinition]
      | some sql => by_cases hdiffer : old.differs entry.2 <;> simp [hdiffer, hdefinition]

/-- A view is defined or not. -/
theorem countP_defined_add {α : Type} (view : α → View) (l : List α) :
    l.countP (fun a => (view a).definition.isSome) +
      l.countP (fun a => (view a).definition.isNone) = l.length := by
  rw [List.length_eq_countP_add_countP fun a => (view a).definition.isSome]
  congr 1
  refine List.countP_congr fun a _ => ?_
  cases (view a).definition <;> simp

/-! ## The counts and the changes -/

theorem create_add_undefined (delta : Delta) :
    delta.count .create + delta.undefinedViews.length = delta.summary.newViews := by
  rw [count_create, length_undefinedViews]
  exact countP_defined_add Prod.snd _

theorem replace_add_forgotten (delta : Delta) :
    delta.count .replace + delta.forgottenViews.length = delta.summary.modifiedViews := by
  rw [count_replace, length_forgottenViews]
  exact countP_defined_add (fun change : Text × View × View => change.2.2) _

variable {delta : Delta}

/-- No view changes exactly when there is no change of any kind. -/
theorem viewChanges_eq_nil_iff : delta.viewChanges = [] ↔
    delta.count .create = 0 ∧ delta.count .remove = 0 ∧ delta.count .replace = 0 := by
  have hkinds : (∀ kind, delta.count kind = 0) ↔
      delta.count .create = 0 ∧ delta.count .remove = 0 ∧ delta.count .replace = 0 := by
    refine ⟨fun h => ⟨h _, h _, h _⟩, fun ⟨hcreate, hremove, hreplace⟩ kind => ?_⟩
    cases kind <;> assumption
  rw [← hkinds, List.eq_nil_iff_forall_not_mem]
  simp only [count, List.countP_eq_zero, decide_eq_true_eq]
  exact ⟨fun h _ change hchange => absurd hchange (h change),
    fun h change hchange => h change.kind change hchange rfl⟩

/-- Nothing needs to be done exactly when nothing is done, and no view counts as new or modified
for want of a definition. -/
theorem isEmpty_iff_viewChanges : delta.isEmpty ↔ delta.created = [] ∧ delta.dropped = [] ∧
    delta.altered = [] ∧ delta.viewChanges = [] ∧ delta.undefinedViews = [] ∧
    delta.forgottenViews = [] := by
  have hcounts : delta.isEmpty ↔ delta.created = [] ∧ delta.dropped = [] ∧ delta.altered = [] ∧
      delta.summary.newViews = 0 ∧ delta.summary.droppedViews = 0 ∧
      delta.summary.modifiedViews = 0 := by
    rw [isEmpty_iff_nil]
    simp [summary]
  rw [hcounts, viewChanges_eq_nil_iff, ← create_add_undefined, ← replace_add_forgotten,
    ← count_remove, ← List.length_eq_zero_iff (l := delta.undefinedViews),
    ← List.length_eq_zero_iff (l := delta.forgottenViews), Nat.add_eq_zero_iff,
    Nat.add_eq_zero_iff]
  tauto

/-- The statements of a change as the script has them: the view is dropped, and unless it is
removed its definition in the target follows. -/
theorem texts_of_mem_viewChanges {change : ViewChange} (h : change ∈ delta.viewChanges) :
    (change.kind = .remove ∧ change.statements.map Line.text =
      ["DROP VIEW IF EXISTS " ++ quoteName change.name ++ ";"]) ∨
    (change.kind ≠ .remove ∧ ∃ view sql,
      delta.target.views.get? change.name = some view ∧ view.definition = some sql ∧
      change.statements.map Line.text =
        ["DROP VIEW IF EXISTS " ++ quoteName change.name ++ ";", sql ++ ";"]) := by
  rcases of_mem_viewChanges h with
    ⟨name, sql, view, rfl | rfl, hget, hsql⟩ | ⟨name, view, rfl, -⟩
  · exact .inr ⟨by simp [ViewChange.kind], view, sql, hget, hsql, rfl⟩
  · exact .inr ⟨by simp [ViewChange.kind], view, sql, hget, hsql, rfl⟩
  · exact .inl ⟨rfl, rfl⟩

/-- Each view has at most one change. There are as many views created as are new, but for those
that the target does not define, as many removed as are gone, and as many replaced as are
modified, but for those that the target does not define. A change drops its view, and creates it
again as the target defines it unless it is removed. Nothing needs to be done exactly when no
table is created, could be dropped or is altered, no view changes, and no view was left aside. -/
theorem viewChanges_summary (delta : Delta) :
    (delta.viewChanges.map ViewChange.name).Nodup ∧
      delta.count .create + delta.undefinedViews.length = delta.summary.newViews ∧
      delta.count .remove = delta.summary.droppedViews ∧
      delta.count .replace + delta.forgottenViews.length = delta.summary.modifiedViews ∧
      (∀ change ∈ delta.viewChanges,
        (change.kind = .remove ∧ change.statements.map Line.text =
          ["DROP VIEW IF EXISTS " ++ quoteName change.name ++ ";"]) ∨
        (change.kind ≠ .remove ∧ ∃ view sql,
          delta.target.views.get? change.name = some view ∧ view.definition = some sql ∧
          change.statements.map Line.text =
            ["DROP VIEW IF EXISTS " ++ quoteName change.name ++ ";", sql ++ ";"])) ∧
      (delta.isEmpty ↔ delta.created = [] ∧ delta.dropped = [] ∧ delta.altered = [] ∧
        delta.viewChanges = [] ∧ delta.undefinedViews = [] ∧ delta.forgottenViews = []) :=
  ⟨nodup_name_viewChanges _ _, delta.create_add_undefined, delta.count_remove,
    delta.replace_add_forgotten, fun _ => texts_of_mem_viewChanges, isEmpty_iff_viewChanges⟩

end Delta

end SchemaDelta
