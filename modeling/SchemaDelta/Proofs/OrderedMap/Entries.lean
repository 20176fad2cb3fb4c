import SchemaDelta.OrderedMap.Compare

/-!
# Entries of ordered maps

What holds of every entry of a map still holds after an insertion (`Holds.insert`), and the entry
of a new key stands behind the others (`entries_insert_of_not_mem`), so a map is built from its
own entries (`ofList_entries`). The lists that compare two maps have distinct keys too, so what
they say of one key is a look-up (`lookup_added`, `lookup_removed`, `lookup_changed`), and maps
agree under a view of their values exactly when nothing is added, removed or different
(`agree_iff`).
-/

namespace SchemaDelta.OrderedMap

variable {α β : Type} {P : Text → α → Prop} {m : OrderedMap α}

/-- Every key of the map and its value satisfy `P`. -/
def Holds (P : Text → α → Prop) (m : OrderedMap α) : Prop :=
  ∀ entry ∈ m.entries, P entry.1 entry.2

theorem holds_empty : Holds P (empty : OrderedMap α) := by
  intro entry hentry
  simp [empty] at hentry

theorem Holds.of_mem (h : Holds P m) {key : Text} {value : α} (hmem : (key, value) ∈ m.entries) :
    P key value :=
  h (key, value) hmem

theorem Holds.of_get? (h : Holds P m) {key : Text} {value : α} (hget : m.get? key = some value) :
    P key value :=
  h.of_mem (get?_eq_some_iff.1 hget)

/-- A value is under a key exactly when the key is there and any default gives way to the
value. -/
theorem get?_eq_some_iff_getD {key : Text} {value : α} (default : α) :
    m.get? key = some value ↔ key ∈ m.keys ∧ (m.get? key).getD default = value := by
  rw [← contains_iff_mem_keys, contains]
  cases m.get? key <;> simp

/-- Nothing is under a key exactly when the key is not there. -/
theorem get?_eq_none_iff {key : Text} : m.get? key = none ↔ key ∉ m.keys := by
  rw [← contains_iff_mem_keys, contains, Option.not_isSome_iff_eq_none]

/-- After an insertion every entry is the new one or was there. -/
theorem eq_or_mem_of_mem_insertEntry {key : Text} {value : α} {entries : List (Text × α)}
    {entry : Text × α} (h : entry ∈ insertEntry key value entries) :
    entry = (key, value) ∨ entry ∈ entries := by
  induction entries with
  | nil => exact .inl (List.mem_singleton.1 h)
  | cons first rest ih =>
      obtain ⟨k, v⟩ := first
      rw [insertEntry] at h
      split at h
      · next hk =>
        subst hk
        exact (List.mem_cons.1 h).imp_right (List.mem_cons_of_mem _)
      · rcases List.mem_cons.1 h with rfl | h
        · exact .inr List.mem_cons_self
        · exact (ih h).imp_right (List.mem_cons_of_mem _)

/-- An insertion of a value that satisfies `P` keeps what holds of every entry. -/
theorem Holds.insert (h : Holds P m) {key : Text} {value : α} (hvalue : P key value) :
    Holds P (m.insert key value) := by
  intro entry hentry
  rcases eq_or_mem_of_mem_insertEntry hentry with rfl | hentry
  · exact hvalue
  · exact h entry hentry

/-- So does a change of the value under a key, if it makes a value that satisfies `P` of what is
there. -/
theorem Holds.alter (h : Holds P m) {key : Text} {f : Option α → α}
    (hf : (∀ value ∈ m.get? key, P key value) → P key (f (m.get? key))) :
    Holds P (m.alter key f) :=
  h.insert (hf fun _ hvalue => h.of_get? hvalue)

/-- Maps with the same entries are the same. -/
theorem eq_of_entries {a b : OrderedMap α} (h : a.entries = b.entries) : a = b := by
  cases a
  cases b
  subst h
  rfl

/-- An insertion passes over the entries in front that have other keys. -/
theorem insertEntry_append {front : List (Text × α)} {key : Text}
    (h : key ∉ front.map Prod.fst) (value : α) (rest : List (Text × α)) :
    insertEntry key value (front ++ rest) = front ++ insertEntry key value rest := by
  induction front with
  | nil => rfl
  | cons entry others ih =>
      obtain ⟨k, v⟩ := entry
      rw [List.map_cons, List.mem_cons, not_or] at h
      rw [List.cons_append, insertEntry, if_neg (Ne.symm h.1), ih h.2, List.cons_append]

/-- The entry of a new key stands behind those that are there. -/
theorem entries_insert_of_not_mem {key : Text} (value : α) (h : key ∉ m.keys) :
    (m.insert key value).entries = m.entries ++ [(key, value)] := by
  have happend := insertEntry_append h value []
  rwa [List.append_nil] at happend

/-- Entries with distinct keys that are not there are inserted one behind the other. -/
theorem entries_foldl_insert {entries : List (Text × α)} {m : OrderedMap α}
    (h : (m.keys ++ entries.map Prod.fst).Nodup) :
    (entries.foldl (fun m entry => m.insert entry.1 entry.2) m).entries =
      m.entries ++ entries := by
  induction entries generalizing m with
  | nil => exact (List.append_nil _).symm
  | cons entry rest ih =>
      obtain ⟨key, value⟩ := entry
      have hkey : key ∉ m.keys := fun hmem =>
        (List.nodup_append.1 h).2.2 key hmem key List.mem_cons_self rfl
      have hentries := entries_insert_of_not_mem value hkey
      have hrest : ((m.insert key value).keys ++ rest.map Prod.fst).Nodup := by
        rwa [keys, hentries, List.map_append, List.append_assoc]
      rw [List.foldl_cons, ih hrest, hentries, List.append_assoc]
      rfl

/-- A map is built by inserting its entries in order. -/
theorem ofList_entries (m : OrderedMap α) : ofList m.entries = m :=
  eq_of_entries (entries_foldl_insert m.nodup_keys)

/-- With distinct keys, a key picks out its entry. -/
theorem filter_key_eq {entries : List (Text × α)} (hnodup : (entries.map Prod.fst).Nodup)
    {entry : Text × α} (h : entry ∈ entries) :
    entries.filter (·.1 = entry.1) = [entry] := by
  induction entries with
  | nil => simp at h
  | cons first rest ih =>
      rw [List.map_cons, List.nodup_cons] at hnodup
      rcases List.mem_cons.1 h with rfl | hrest
      · rw [List.filter_cons_of_pos (by simp)]
        refine congrArg (entry :: ·) (List.filter_eq_nil_iff.2 fun other hother hkey => ?_)
        exact hnodup.1 (List.mem_map.2 ⟨other, hother, of_decide_eq_true hkey⟩)
      · have hne : first.1 ≠ entry.1 := fun heq =>
          hnodup.1 (heq ▸ List.mem_map_of_mem hrest)
        rw [List.filter_cons_of_neg (by simpa using hne), ih hnodup.2 hrest]

/-- The value of the last entry is set in its place. -/
theorem entries_insert_of_last {front : List (Text × α)} {key : Text} {old : α}
    (h : m.entries = front ++ [(key, old)]) (value : α) :
    (m.insert key value).entries = front ++ [(key, value)] := by
  have hnodup := m.nodup_keys
  rw [h, List.map_append, List.nodup_append] at hnodup
  have hkey : key ∉ front.map Prod.fst := fun hmem =>
    hnodup.2.2 key hmem key List.mem_cons_self rfl
  show insertEntry key value m.entries = front ++ [(key, value)]
  rw [h, insertEntry_append hkey, insertEntry, if_pos rfl]

/-- Where only the entry of one key contributes, a traversal gives what that entry gives. -/
theorem flatMap_of_key {entries : List (Text × α)} (hnodup : (entries.map Prod.fst).Nodup)
    {key : Text} {f : Text × α → List β} (hf : ∀ entry ∈ entries, entry.1 ≠ key → f entry = []) :
    entries.flatMap f = (lookup key entries).elim [] fun value => f (key, value) := by
  induction entries with
  | nil => rfl
  | cons entry rest ih =>
      obtain ⟨k, v⟩ := entry
      rw [List.map_cons, List.nodup_cons] at hnodup
      rw [List.flatMap_cons, lookup]
      by_cases hk : k = key
      · subst hk
        -- The key does not occur again.
        have hrest : rest.flatMap f = [] := by
          refine List.flatMap_eq_nil_iff.2 fun other hother => ?_
          refine hf other (List.mem_cons_of_mem _ hother) fun heq => hnodup.1 ?_
          exact List.mem_map.2 ⟨other, hother, heq⟩
        rw [if_pos rfl, hrest, List.append_nil]
        rfl
      · rw [if_neg hk, hf (k, v) List.mem_cons_self hk, List.nil_append]
        exact ih hnodup.2 fun other hother => hf other (List.mem_cons_of_mem _ hother)

section Compare

variable {current target : OrderedMap α} {differ : α → α → Bool} {key : Text}

@[simp] theorem added_empty (target : OrderedMap α) : added ∅ target = target.entries :=
  List.filter_eq_self.2 fun _ _ => rfl

@[simp] theorem removed_empty (target : OrderedMap α) : removed ∅ target = [] := rfl

@[simp] theorem changed_empty (differ : α → α → Bool) (target : OrderedMap α) :
    changed differ ∅ target = [] :=
  List.filterMap_eq_nil_iff.2 fun _ _ => rfl

@[simp] theorem added_self (m : OrderedMap α) : added m m = [] := by
  rw [added, List.filter_eq_nil_iff]
  intro entry hentry
  have hkey : m.contains entry.1 := contains_iff_mem_keys.2 (List.mem_map_of_mem hentry)
  simp [hkey]

@[simp] theorem removed_self (m : OrderedMap α) : removed m m = [] := added_self m

/-- Nothing differs between a map and itself. -/
theorem changed_self (hdiffer : ∀ value, ¬differ value value) (m : OrderedMap α) :
    changed differ m m = [] := by
  rw [changed, List.filterMap_eq_nil_iff]
  intro entry hentry
  rw [get?_eq_some_iff.2 hentry]
  exact if_neg (hdiffer entry.2)

theorem get?_of_mem_added {value : α} (h : (key, value) ∈ added current target) :
    target.get? key = some value :=
  get?_eq_some_iff.2 (mem_added_iff.1 h).1

theorem get?_eq_none_of_mem_added {value : α} (h : (key, value) ∈ added current target) :
    current.get? key = none :=
  get?_eq_none_iff.2 (mem_added_iff.1 h).2

theorem get?_of_mem_removed {value : α} (h : (key, value) ∈ removed current target) :
    current.get? key = some value :=
  get?_eq_some_iff.2 (mem_removed_iff.1 h).1

theorem get?_of_mem_changed {old new : α} (h : (key, old, new) ∈ changed differ current target) :
    current.get? key = some old ∧ target.get? key = some new ∧ differ old new := by
  obtain ⟨hnew, hold, hdiffer⟩ := mem_changed_iff.1 h
  exact ⟨hold, get?_eq_some_iff.2 hnew, hdiffer⟩

theorem nodup_added : ((added current target).map Prod.fst).Nodup :=
  target.nodup_keys.sublist (List.filter_sublist.map _)

theorem nodup_removed : ((removed current target).map Prod.fst).Nodup :=
  current.nodup_keys.sublist (List.filter_sublist.map _)

/-- What is made of some members of a list keeps their order under any view of them. -/
theorem map_filterMap_sublist {γ : Type} {f : α → Option β} {view : α → γ} {name : β → γ}
    (h : ∀ a b, f a = some b → name b = view a) (l : List α) :
    ((l.filterMap f).map name).Sublist (l.map view) := by
  induction l with
  | nil => exact .slnil
  | cons a rest ih =>
      cases hf : f a with
      | none =>
          rw [List.filterMap_cons_none hf, List.map_cons]
          exact ih.cons _
      | some b =>
          rw [List.filterMap_cons_some hf, List.map_cons, List.map_cons, h a b hf]
          exact ih.cons_cons _

theorem nodup_changed : ((changed differ current target).map Prod.fst).Nodup := by
  refine target.nodup_keys.sublist (map_filterMap_sublist (fun entry change hchange => ?_) _)
  split at hchange
  · simp at hchange
  · obtain ⟨-, heq⟩ := Option.ite_none_right_eq_some.1 hchange
    rw [← Option.some.inj heq]

/-- A comparison finds each key once, if at all. -/
theorem nodup_compare (differ : α → α → Bool) (current target : OrderedMap α) :
    ((added current target).map Prod.fst ++ (removed current target).map Prod.fst ++
      (changed differ current target).map Prod.fst).Nodup := by
  rw [List.append_assoc, List.nodup_append, List.nodup_append]
  refine ⟨nodup_added, ⟨nodup_removed, nodup_changed, ?_⟩, ?_⟩
  · intro key hremoved other hchanged heq
    obtain ⟨⟨_, old⟩, hold, rfl⟩ := List.mem_map.1 hremoved
    obtain ⟨⟨_, _, new⟩, hnew, rfl⟩ := List.mem_map.1 hchanged
    have hmem := List.mem_map_of_mem (f := Prod.fst) (mem_changed_iff.1 hnew).1
    exact (mem_removed_iff.1 hold).2 (heq ▸ hmem)
  · intro key hadded other hothers heq
    obtain ⟨⟨_, new⟩, hnew, rfl⟩ := List.mem_map.1 hadded
    have hnone := get?_eq_none_of_mem_added hnew
    rw [List.mem_append] at hothers
    rcases hothers with hremoved | hchanged
    · obtain ⟨⟨_, old⟩, hold, rfl⟩ := List.mem_map.1 hremoved
      have hsome := get?_of_mem_removed hold
      simp_all
    · obtain ⟨⟨_, old, _⟩, hold, rfl⟩ := List.mem_map.1 hchanged
      have hsome := (get?_of_mem_changed hold).1
      simp_all

/-- Under a key that only the target has stands what the target has there. -/
theorem lookup_added :
    lookup key (added current target) =
      if (current.get? key).isNone then target.get? key else none := by
  refine Option.ext fun value => ?_
  rw [lookup_eq_some_iff nodup_added, mem_added_iff, ← get?_eq_some_iff,
    ← contains_iff_mem_keys, contains]
  cases current.get? key <;> simp

/-- Under a key that only the current map has stands what the current map has there. -/
theorem lookup_removed :
    lookup key (removed current target) =
      if (target.get? key).isNone then current.get? key else none := by
  refine Option.ext fun value => ?_
  rw [lookup_eq_some_iff nodup_removed, mem_removed_iff, ← get?_eq_some_iff,
    ← contains_iff_mem_keys, contains]
  cases target.get? key <;> simp

/-- Under a key that both maps have stand the two values, if they differ. -/
theorem lookup_changed :
    lookup key (changed differ current target) =
      (current.get? key).bind fun old => (target.get? key).bind fun new =>
        if differ old new then some (old, new) else none := by
  refine Option.ext fun ⟨old, new⟩ => ?_
  rw [lookup_eq_some_iff nodup_changed, mem_changed_iff, ← get?_eq_some_iff]
  cases current.get? key <;> cases target.get? key <;> simp
  constructor
  · rintro ⟨rfl, rfl, hdiffer⟩
    exact ⟨hdiffer, rfl, rfl⟩
  · rintro ⟨hdiffer, rfl, rfl⟩
    exact ⟨rfl, rfl, hdiffer⟩

/-- What a comparison of two maps gives rise to at one key: what it makes of the value that only
the target or only the current map has there, or of two values that differ. -/
theorem flatMap_compare (key : Text) {ofAdded ofRemoved : Text × α → List β}
    {ofChanged : Text × α × α → List β}
    (hadded : ∀ other new, target.get? other = some new → other ≠ key →
      ofAdded (other, new) = [])
    (hremoved : ∀ other old, current.get? other = some old → other ≠ key →
      ofRemoved (other, old) = [])
    (hchanged : ∀ other old new, current.get? other = some old → target.get? other = some new →
      other ≠ key → ofChanged (other, old, new) = []) :
    (added current target).flatMap ofAdded ++ (removed current target).flatMap ofRemoved ++
        (changed differ current target).flatMap ofChanged =
      match current.get? key, target.get? key with
      | none, none => []
      | none, some new => ofAdded (key, new)
      | some old, none => ofRemoved (key, old)
      | some old, some new => if differ old new then ofChanged (key, old, new) else [] := by
  have hadded' : ∀ entry ∈ added current target, entry.1 ≠ key → ofAdded entry = [] :=
    fun entry hentry => hadded entry.1 entry.2 (get?_of_mem_added hentry)
  have hremoved' : ∀ entry ∈ removed current target, entry.1 ≠ key → ofRemoved entry = [] :=
    fun entry hentry => hremoved entry.1 entry.2 (get?_of_mem_removed hentry)
  have hchanged' : ∀ entry ∈ changed differ current target, entry.1 ≠ key →
      ofChanged entry = [] := by
    intro entry hentry
    obtain ⟨hold, hnew, -⟩ := get?_of_mem_changed hentry
    exact hchanged entry.1 entry.2.1 entry.2.2 hold hnew
  rw [flatMap_of_key nodup_added hadded', flatMap_of_key nodup_removed hremoved',
    flatMap_of_key nodup_changed hchanged', lookup_added, lookup_removed, lookup_changed]
  cases current.get? key with
  | none => cases target.get? key <;> simp
  | some old =>
      cases target.get? key with
      | none => simp
      | some new => by_cases hdiffer : differ old new <;> simp [hdiffer]

end Compare

/-- A list of entries is empty exactly when no key is found in it. -/
theorem eq_nil_iff_lookup {entries : List (Text × β)} :
    entries = [] ↔ ∀ key, lookup key entries = none := by
  constructor
  · rintro rfl key
    rfl
  · intro h
    cases entries with
    | nil => rfl
    | cons entry rest => simpa [lookup] using h entry.1

/-- The two maps have the same keys, with values that look the same under `view`. -/
def Agree (view : α → β) (a b : OrderedMap α) : Prop :=
  ∀ key, (a.get? key).map view = (b.get? key).map view

/-- Maps agree exactly when comparing them finds no key that only one of them has and no key
with values that look different. -/
theorem agree_iff {view : α → β} (differ : α → α → Bool) {a b : OrderedMap α}
    (hdiffer : ∀ key old new, a.get? key = some old → b.get? key = some new →
      (differ old new ↔ view old ≠ view new)) :
    Agree view a b ↔ added a b = [] ∧ removed a b = [] ∧ changed differ a b = [] := by
  rw [eq_nil_iff_lookup, eq_nil_iff_lookup, eq_nil_iff_lookup, ← forall_and, ← forall_and]
  refine forall_congr' fun key => ?_
  rw [lookup_added, lookup_removed, lookup_changed]
  cases hold : a.get? key with
  | none => cases b.get? key <;> simp
  | some old =>
      cases hnew : b.get? key with
      | none => simp
      | some new =>
          have hsame : view old = view new ↔ ¬differ old new :=
            Classical.not_not.symm.trans (not_congr (hdiffer key old new hold hnew).symm)
          simp [hsame]

end SchemaDelta.OrderedMap
