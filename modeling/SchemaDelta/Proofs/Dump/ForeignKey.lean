import SchemaDelta.Proofs.Dump.Declaration

/-!
# Foreign keys that are named in front

A foreign key that does not open with the word `CONSTRAINT` is written with its name in front of
its definition. What is put in front speaks of no key, so the clause still mentions what its
definition mentions (`mentions_namedClause`), and its name is the first that is read. So the
clause is a foreign key of the same name (`ofText_namedClause`).
-/

namespace SchemaDelta.Dump

open Sql Text Reader

variable {name definition : Text}

/-- A definition with the word `CONSTRAINT` and a name in front. -/
def namedClause (name definition : Text) : Text :=
  "CONSTRAINT " ++ (quoteName name ++ ' ' :: definition)

/-- A clause that declares a foreign key mentions one, and no other key that is asked for
before. -/
theorem foreignKey_inv {key : Constraint} (hkind : key.kind = .foreignKey)
    (h : Clause.ofText definition = .ok (.constraint key)) :
    mentions definition primaryKeyWords = false ∧ mentions definition uniqueKeyWords = false ∧
      mentions definition foreignKeyWords := by
  rw [Clause.ofText] at h
  split at h
  · simp at h
  · unfold Clause.ofKey at h
    simp only at h
    split at h
    · split at h
      · obtain rfl := Clause.constraint.inj (Except.ok.inj h)
        simp [Constraint.primaryKey] at hkind
      · simp at h
    · next hprimary =>
      split at h
      · split at h
        · obtain rfl := Clause.constraint.inj (Except.ok.inj h)
          simp [Constraint.named] at hkind
        · simp at h
      · next hunique =>
        split at h
        · next hforeign => exact ⟨by simpa using hprimary, by simpa using hunique, hforeign⟩
        · split at h
          · split at h <;> simp at h
          · simp at h

/-- The name in front mentions no key. -/
theorem mentions_namedClause (hname : IsName name) (definition : Text) :
    mentions (namedClause name definition) primaryKeyWords = mentions definition primaryKeyWords ∧
      mentions (namedClause name definition) uniqueKeyWords =
        mentions definition uniqueKeyWords ∧
      mentions (namedClause name definition) foreignKeyWords =
        mentions definition foreignKeyWords :=
  ⟨mentions_column (by decide) hname definition _, mentions_column (by decide) hname definition _,
    mentions_column (by decide) hname definition _⟩

/-- The words `FOREIGN KEY` are ahead of every place in front of them on their line. -/
theorem foreignKeyAhead_append {front place : Text} (hline : '\n' ∉ front)
    (h : (foreignKeyWords.run place).isSome) : foreignKeyAhead (front ++ place) := by
  induction front with
  | nil =>
      cases place with
      | nil => exact absurd h (by decide)
      | cons c rest =>
          rw [List.nil_append, foreignKeyAhead, h]
          rfl
  | cons c front ih =>
      rw [List.mem_cons, not_or] at hline
      exact foreignKeyAhead_cons (Ne.symm hline.1) (ih hline.2)

/-- So they are ahead on a line that mentions them. -/
theorem foreignKeyAhead_of_mentions (hline : '\n' ∉ definition)
    (h : mentions definition foreignKeyWords) : foreignKeyAhead definition := by
  obtain ⟨front, place, rfl, -, hrun⟩ := hasAtWord_iff.1 h
  obtain ⟨_, hrun⟩ := Option.isSome_iff_exists.1 hrun
  obtain ⟨_, _, hwords, -⟩ := run_bind_eq_some_iff.1 hrun
  exact foreignKeyAhead_append (fun hmem => hline (List.mem_append_left place hmem))
    (by rw [hwords]; rfl)

/-- With its name in front, the definition of a foreign key on one line is read as a foreign key
of that name. -/
theorem ofText_namedClause {key : Constraint} (hname : IsName name) (hline : '\n' ∉ definition)
    (hkind : key.kind = .foreignKey) (h : Clause.ofText definition = .ok (.constraint key)) :
    Clause.ofText (namedClause name definition) =
      .ok (.constraint (.named name .foreignKey (namedClause name definition))) := by
  obtain ⟨hprimary, hunique, hforeign⟩ := foreignKey_inv hkind h
  obtain ⟨hprimary', hunique', hforeign'⟩ := mentions_namedClause hname definition
  have hahead := foreignKeyAhead_of_mentions hline hforeign
  have hfirst : first foreignKeyName (namedClause name definition) = some name :=
    first_of_run (run_foreignKeyName_of_ahead hname hahead)
  have hhead : columnHead? (namedClause name definition) = none := by
    have hword : IsName "CONSTRAINT" := by decide
    exact columnHead?_of_opening hword (by decide) _
  rw [Clause.ofText, hhead]
  simp only [Clause.ofKey, hprimary', hprimary, hunique', hunique, hforeign', hforeign, hfirst,
    if_true, Bool.false_eq_true, if_false]

end SchemaDelta.Dump
