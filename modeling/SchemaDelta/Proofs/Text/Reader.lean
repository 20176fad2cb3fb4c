import Mathlib.Data.List.TakeWhile
import SchemaDelta.Text.Reader

/-!
# What readers give and where they stop

Readers are compositions, and what a composition gives is what its last step gives (`Gives`).
What a sequence takes off a text is what its steps take one after another
(`run_bind_eq_some_iff`), and a run of characters ends where the next character is of another
sort (`eq_append_of_run_many1`).
-/

namespace SchemaDelta

/-- Whatever the reader takes off a text satisfies `Q`. -/
def Reader.Gives {α : Type} (r : Reader α) (Q : α → Prop) : Prop :=
  ∀ ⦃t : Text⦄ ⦃a : α⦄ ⦃rest : Text⦄, r.run t = some (a, rest) → Q a

namespace Reader

variable {α β : Type} {Q : β → Prop}

/-- A sequence succeeds when its first step does and the next one does on what is left. -/
theorem run_bind_eq_some_iff {r : Reader α} {next : α → Reader β} {t rest : Text} {b : β} :
    (r >>= next).run t = some (b, rest) ↔
      ∃ a mid, r.run t = some (a, mid) ∧ (next a).run mid = some (b, rest) := by
  rw [StateT.run_bind, Option.bind_eq_bind, Option.bind_eq_some_iff]
  constructor
  · rintro ⟨⟨a, mid⟩, hfirst, hnext⟩
    exact ⟨a, mid, hfirst, hnext⟩
  · rintro ⟨a, mid, hfirst, hnext⟩
    exact ⟨(a, mid), hfirst, hnext⟩

/-- A choice tries its second alternative where the first refuses. -/
theorem run_orElse (r alternative : Reader β) (t : Text) :
    (r <|> alternative).run t = (r.run t <|> alternative.run t) := rfl

/-- What a choice takes one of its alternatives takes. -/
theorem run_orElse_inv {r alternative : Reader β} {t rest : Text} {b : β}
    (h : (r <|> alternative).run t = some (b, rest)) :
    r.run t = some (b, rest) ∨ alternative.run t = some (b, rest) := by
  rw [run_orElse] at h
  cases hr : r.run t with
  | none => exact .inr (by simpa [hr] using h)
  | some result => exact .inl (by simpa [hr] using h)

/-- What may be missing is read or leaves the text as it was. -/
theorem run_maybe_inv {r : Reader α} {t rest : Text} (h : (maybe r).run t = some ((), rest)) :
    (∃ a, r.run t = some (a, rest)) ∨ rest = t := by
  rw [maybe, run_orElse] at h
  cases hr : r.run t with
  | none => exact .inr (by simpa [hr] using h.symm)
  | some result =>
      obtain ⟨a, left⟩ := result
      obtain rfl : left = rest := by simpa [hr] using h
      exact .inl ⟨a, rfl⟩

/-- What may be missing is taken where it is read. -/
theorem run_maybe_of_run {r : Reader α} {t rest : Text} {a : α} (h : r.run t = some (a, rest)) :
    (maybe r).run t = some ((), rest) := by
  rw [maybe, run_orElse, StateT.run_bind, h]
  rfl

/-- It is passed over where it is not read. -/
theorem run_maybe_of_none {r : Reader α} {t : Text} (h : r.run t = none) :
    (maybe r).run t = some ((), t) := by
  rw [maybe, run_orElse, StateT.run_bind, h]
  rfl

/-- A sequence gives what its second step gives, which may use what the first gave. -/
theorem Gives.bind_of {r : Reader α} {next : α → Reader β} {P : α → Prop} (hr : Gives r P)
    (h : ∀ a, P a → Gives (next a) Q) : Gives (r >>= next) Q := by
  intro t b rest hrun
  obtain ⟨a, mid, hfirst, hnext⟩ := run_bind_eq_some_iff.1 hrun
  exact h a (hr hfirst) hnext

/-- A sequence gives what its second step gives. -/
theorem Gives.bind {r : Reader α} {next : α → Reader β} (h : ∀ a, Gives (next a) Q) :
    Gives (r >>= next) Q :=
  .bind_of (P := fun _ => True) (fun _ _ _ _ => trivial) fun a _ => h a

/-- A choice gives what one of its alternatives gives. -/
theorem Gives.orElse {r alternative : Reader β} (h : Gives r Q) (h' : Gives alternative Q) :
    Gives (r <|> alternative) Q := by
  intro t b rest hrun
  exact (run_orElse_inv hrun).elim (fun hr => h hr) fun hr => h' hr

/-- A search that succeeds has found a place from which the reader succeeds. -/
theorem run_of_first {r : Reader β} {t : Text} {b : β} (h : first r t = some b) :
    ∃ place rest, place <:+ t ∧ r.run place = some (b, rest) := by
  induction t with
  | nil =>
      rw [Reader.first] at h
      split at h
      · next rest hrun => exact ⟨[], rest, List.suffix_rfl, Option.some.inj h ▸ hrun⟩
      · simp at h
  | cons c t ih =>
      rw [Reader.first] at h
      split at h
      · next rest hrun => exact ⟨c :: t, rest, List.suffix_rfl, Option.some.inj h ▸ hrun⟩
      · obtain ⟨place, rest, hplace, hrun⟩ := ih h
        exact ⟨place, rest, hplace.trans (List.suffix_cons c t), hrun⟩

/-- A search fails exactly when the reader refuses at every place. -/
theorem first_eq_none_iff {r : Reader β} {t : Text} :
    first r t = none ↔ ∀ place, place <:+ t → r.run place = none := by
  induction t with
  | nil =>
      rw [Reader.first]
      cases hrun : r.run [] <;> simp [hrun]
  | cons c t ih =>
      rw [Reader.first]
      cases hrun : r.run (c :: t) with
      | none =>
          rw [ih]
          simp only [List.suffix_cons_iff]
          refine forall_congr' fun place => ⟨fun h hplace => ?_, fun h hplace => h (.inr hplace)⟩
          exact hplace.elim (fun heq => heq ▸ hrun) h
      | some result => simpa using ⟨c :: t, List.suffix_rfl, by simp [hrun]⟩

/-- A search gives what the reader gives. -/
theorem Gives.first {r : Reader β} (h : Gives r Q) {t : Text} {b : β}
    (hfirst : first r t = some b) : Q b := by
  obtain ⟨place, rest, -, hrun⟩ := run_of_first hfirst
  exact h hrun

/-- A nonempty run consists of the characters that are looked for. -/
theorem gives_many1 (p : Char → Bool) : Gives (many1 p) fun t => t ≠ [] ∧ ∀ c ∈ t, p c := by
  intro t run rest hrun
  cases t with
  | nil => simp [many1, StateT.run] at hrun
  | cons c r =>
      by_cases hc : p c
      · rw [run_many1_of_pos hc] at hrun
        obtain ⟨rfl, -⟩ : c :: r.takeWhile p = run ∧ r.dropWhile p = rest := by simpa using hrun
        refine ⟨by simp, fun d hd => ?_⟩
        rcases List.mem_cons.1 hd with rfl | hd
        · exact hc
        · exact List.mem_takeWhile_imp hd
      · rw [run_many1_of_neg hc] at hrun
        simp at hrun

/-- A nonempty run is taken off the front, and what is left starts with no such character. -/
theorem eq_append_of_run_many1 {p : Char → Bool} {t run rest : Text}
    (h : (many1 p).run t = some (run, rest)) : t = run ++ rest ∧ ∀ c ∈ rest.head?, ¬p c := by
  cases t with
  | nil => simp [many1, StateT.run] at h
  | cons c r =>
      by_cases hc : p c
      · rw [run_many1_of_pos hc] at h
        obtain ⟨rfl, rfl⟩ : c :: r.takeWhile p = run ∧ r.dropWhile p = rest := by simpa using h
        refine ⟨by simp [List.takeWhile_append_dropWhile], fun d hd => ?_⟩
        have := List.head?_dropWhile_not p r
        simpa [Option.mem_def.1 hd] using this
      · rw [run_many1_of_neg hc] at h
        simp at h

/-- What the reader leaves is the end of the text. -/
def Shortens (r : Reader α) : Prop :=
  ∀ ⦃t : Text⦄ ⦃a : α⦄ ⦃rest : Text⦄, r.run t = some (a, rest) → rest <:+ t

theorem Shortens.pure {a : α} : Shortens (pure a) := by
  intro t b rest hrun
  obtain ⟨-, rfl⟩ : a = b ∧ t = rest := by simpa using hrun
  exact List.suffix_rfl

theorem Shortens.bind {r : Reader α} {next : α → Reader β} (hr : Shortens r)
    (hnext : ∀ a, Shortens (next a)) : Shortens (r >>= next) := by
  intro t b rest hrun
  obtain ⟨a, mid, hfirst, hsecond⟩ := run_bind_eq_some_iff.1 hrun
  exact (hnext a hsecond).trans (hr hfirst)

theorem Shortens.orElse {r alternative : Reader α} (h : Shortens r)
    (h' : Shortens alternative) : Shortens (r <|> alternative) := by
  intro t a rest hrun
  exact (run_orElse_inv hrun).elim (fun hr => h hr) fun hr => h' hr

theorem Shortens.maybe {r : Reader α} (h : Shortens r) : Shortens (maybe r) :=
  (h.bind fun _ => .pure).orElse .pure

theorem shortens_many1 (p : Char → Bool) : Shortens (many1 p) := by
  intro t run rest hrun
  exact ⟨run, (eq_append_of_run_many1 hrun).1.symm⟩

theorem shortens_many (p : Char → Bool) : Shortens (many p) := by
  intro t run rest hrun
  obtain ⟨-, rfl⟩ : t.takeWhile p = run ∧ t.dropWhile p = rest := by simpa using hrun
  exact List.dropWhile_suffix p

theorem shortens_satisfy (p : Char → Bool) : Shortens (satisfy p) := by
  intro t c rest hrun
  cases t with
  | nil => simp [satisfy, StateT.run] at hrun
  | cons d r =>
      by_cases hd : p d
      · rw [run_satisfy hd] at hrun
        obtain ⟨-, rfl⟩ : d = c ∧ r = rest := by simpa using hrun
        exact List.suffix_cons d r
      · simp [satisfy, StateT.run, hd] at hrun

theorem shortens_char (c : Char) : Shortens (char c) := by
  intro t u rest hrun
  cases t with
  | nil => simp [char, StateT.run] at hrun
  | cons d r =>
      by_cases hd : d = c
      · obtain rfl : r = rest := by simpa [char, StateT.run, hd] using hrun
        exact List.suffix_cons d r
      · simp [char, StateT.run, hd] at hrun

end Reader

end SchemaDelta
