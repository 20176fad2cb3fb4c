import SchemaDelta.Proofs.Json.RoundTrip
import SchemaDelta.Proofs.OrderedMap.Entries
import SchemaDelta.Schema.Json

/-!
# Schemas survive being written as JSON

What is written as JSON and read again is the same schema, in the same order at every level
(`Schema.read?_print`). A sort of data is carried by JSON if its values are written as JSON that
is read as printed and that stands for what was written (`Json.Carries`); lists, maps and records
carry what their parts carry.
-/

namespace SchemaDelta

open Json

namespace Json

variable {α : Type} {toJson : α → Value} {ofJson? : Value → Option α}

/-- What is written as JSON is read as printed, and stands for what was written. -/
structure Carries (toJson : α → Value) (ofJson? : Value → Option α) : Prop where
  reads : ∀ a, (toJson a).Reads
  ofJson?_toJson : ∀ a, ofJson? (toJson a) = some a

theorem carries_text : Carries Value.string Value.text? where
  reads := Value.reads_string
  ofJson?_toJson _ := rfl

/-- Lists carry what their elements carry. -/
theorem Carries.list (h : Carries toJson ofJson?) :
    Carries (fun l => Value.array (l.map toJson)) (Value.list? ofJson?) where
  reads l := Value.reads_array fun item hitem => by
    obtain ⟨a, -, rfl⟩ := List.mem_map.1 hitem
    exact h.reads a
  ofJson?_toJson _ := mapM_map_self h.ofJson?_toJson

theorem carries_texts : Carries Value.ofTexts (Value.list? Value.text?) := carries_text.list

/-- A text that may be missing is written in a field that may be null. -/
theorem carries_text? : Carries Value.ofText? fun v => Value.optional? Value.text? (some v) where
  reads
    | none => Value.reads_null
    | some t => Value.reads_string t
  ofJson?_toJson
    | none => rfl
    | some _ => rfl

/-- Maps carry what their values carry, in the same order. -/
theorem Carries.map (h : Carries toJson ofJson?) :
    Carries (OrderedMap.toJson toJson) (OrderedMap.ofJson? ofJson?) where
  reads m := Value.reads_object fun member hmember => by
    obtain ⟨entry, -, rfl⟩ := List.mem_map.1 hmember
    exact h.reads entry.2
  ofJson?_toJson m := by
    have hentry : ∀ entry : Text × α,
        (ofJson? (toJson entry.2)).map (entry.1, ·) = some entry := fun entry => by
      rw [h.ofJson?_toJson, Option.map_some]
    rw [OrderedMap.toJson, OrderedMap.ofJson?, mapM_map_self hentry]
    exact congrArg some (OrderedMap.ofList_entries m)

/-- A record of what is read is read. -/
theorem Value.reads_record {names : List Text} {values : List Value}
    (h : ∀ v ∈ values, v.Reads) : (Value.object (names.zip values)).Reads :=
  reads_object fun _ hmember => h _ (List.of_mem_zip hmember).2

/-- The fields of a record are the values that it was made of. -/
theorem Value.fields?_record {names : List Text} {values : List Value} (hnames : names.Nodup)
    (hlength : values.length = names.length) :
    (Value.object (names.zip values)).fields? names = some (values.map some) := by
  have hfst : (names.zip values).map Prod.fst = names := List.map_fst_zip hlength.ge
  have hsnd : (names.zip values).map Prod.snd = values := List.map_snd_zip hlength.le
  have hnodup : ((names.zip values).map Prod.fst).Nodup := hfst.symm ▸ hnames
  rw [Value.fields?]
  calc names.mapM _
    _ = ((names.zip values).map Prod.fst).mapM _ := by rw [hfst]
    _ = some ((names.zip values).map (some ·.2)) :=
      mapM_map_eq_some fun entry hentry => by rw [OrderedMap.filter_key_eq hnodup hentry]
    _ = some (values.map some) := by rw [← hsnd, List.map_map, hsnd]; rfl

end Json

theorem Column.carries : Carries Column.toJson Column.ofJson? where
  reads column := Value.reads_record (by
    simp only [List.forall_mem_cons]
    exact ⟨Value.reads_string _, Value.reads_string _, Value.reads_bool _, List.forall_mem_nil _⟩)
  ofJson?_toJson column := by
    rw [ofJson?, toJson, Value.fields?_record (by decide) rfl]
    rfl

theorem Index.carries : Carries Index.toJson Index.ofJson? where
  reads index := Value.reads_record (by
    simp only [List.forall_mem_cons]
    exact ⟨Value.reads_string _, Value.reads_string _, List.forall_mem_nil _⟩)
  ofJson?_toJson index := by
    rw [ofJson?, toJson, Value.fields?_record (by decide) rfl]
    rfl

/-- The words that name a kind of constraint name only this one. -/
theorem ConstraintKind.carries :
    Carries (fun kind => Value.string kind.label) ConstraintKind.ofJson? where
  reads kind := Value.reads_string kind.label
  ofJson?_toJson kind := by cases kind <;> decide

theorem Constraint.carries : Carries Constraint.toJson Constraint.ofJson? where
  reads constraint := Value.reads_record (by
    simp only [List.forall_mem_cons]
    exact ⟨Value.reads_string _, Value.reads_string _, carries_texts.reads _,
      Value.reads_string _, List.forall_mem_nil _⟩)
  ofJson?_toJson constraint := by
    rw [ofJson?, toJson, Value.fields?_record (by decide) rfl]
    simp only [List.map_cons, List.map_nil, Option.bind_eq_bind, Option.bind_some, Value.text?,
      ConstraintKind.carries.ofJson?_toJson, carries_texts.ofJson?_toJson]
    rfl

theorem Table.carries : Carries Table.toJson Table.ofJson? where
  reads table := Value.reads_record (by
    simp only [List.forall_mem_cons]
    exact ⟨Value.reads_string _, Column.carries.map.reads _, Index.carries.map.reads _,
      Constraint.carries.map.reads _, carries_text?.reads _, carries_texts.reads _,
      List.forall_mem_nil _⟩)
  ofJson?_toJson table := by
    rw [ofJson?, toJson, Value.fields?_record (by decide) rfl]
    simp only [List.map_cons, List.map_nil, Option.bind_eq_bind, Option.bind_some, Value.text?,
      Column.carries.map.ofJson?_toJson, Index.carries.map.ofJson?_toJson,
      Constraint.carries.map.ofJson?_toJson, carries_text?.ofJson?_toJson,
      carries_texts.ofJson?_toJson]
    rfl

theorem View.carries : Carries View.toJson View.ofJson? where
  reads view := Value.reads_record (by
    simp only [List.forall_mem_cons]
    exact ⟨Value.reads_string _, carries_text?.reads _, carries_text?.reads _,
      Value.reads_string _, List.forall_mem_nil _⟩)
  ofJson?_toJson view := by
    rw [ofJson?, toJson, Value.fields?_record (by decide) rfl]
    simp only [List.map_cons, List.map_nil, Option.bind_eq_bind, Option.bind_some, Value.text?,
      carries_text?.ofJson?_toJson]
    rfl

theorem Schema.carries : Carries Schema.toJson Schema.ofJson? where
  reads schema := Value.reads_record (by
    simp only [List.forall_mem_cons]
    exact ⟨Table.carries.map.reads _, View.carries.map.reads _, List.forall_mem_nil _⟩)
  ofJson?_toJson schema := by
    rw [ofJson?, toJson, Value.fields?_record (by decide) rfl]
    simp only [List.map_cons, List.map_nil, Option.bind_eq_bind, Option.bind_some,
      Table.carries.map.ofJson?_toJson, View.carries.map.ofJson?_toJson]
    rfl

/-- A schema written as JSON in either layout is read again as the same schema: the same tables
and views, with the same parts, in the same order at every level. -/
theorem Schema.read?_print (layout : Layout) (schema : Schema) :
    Schema.read? (schema.print layout) = some schema := by
  rw [Schema.read?, Schema.print, read?_toText (Schema.carries.reads schema), Option.bind_some,
    Schema.carries.ofJson?_toJson]

end SchemaDelta
