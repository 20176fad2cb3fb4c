import SchemaDelta.Dump.Statements

/-!
# Steps of a walk

A walk over the fragments of a dump takes one fragment at a time. `WalkStep` lists what it can do
with one: pass over it, ignore it, make a statement of it, or open, extend or close a table
definition. Each fragment is taken by such a step (`exists_step`) and the walk goes on behind it
(`WalkStep.walk_eq`), so what every step keeps holds of the statements of the whole walk
(`forall_mem_walk`).
-/

namespace SchemaDelta.Dump

open Sql Text

/-- A fragment, the definition that is open in front of it and behind it, and what the walk makes
of them. -/
inductive WalkStep : Option OpenTable → Text → List Outcome → Option OpenTable → Prop where
  /-- A blank fragment is passed over. -/
  | blank {fragment : Text} : trim fragment = [] → WalkStep none fragment [] none
  /-- A fragment without a head is ignored. -/
  | headless {fragment : Text} : trim fragment ≠ [] → Head.ofFragment? (trim fragment) = none →
      WalkStep none fragment [.ignored (trim fragment)] none
  /-- A fragment with a head is a statement, if its parentheses balance or it defines no table. -/
  | complete {fragment : Text} {head : Head} : Head.ofFragment? (trim fragment) = some head →
      (head = .createTable → parenBalance (trim fragment) = 0) →
      WalkStep none fragment [.statement (trim fragment)] none
  /-- A fragment that starts to define a table opens the definition. -/
  | opening {fragment : Text} : Head.ofFragment? (trim fragment) = some .createTable →
      parenBalance (trim fragment) ≠ 0 →
      WalkStep none fragment [] (some ⟨trim fragment, parenBalance (trim fragment)⟩)
  /-- A fragment that balances the parentheses of the open definition closes it. -/
  | closing {table : OpenTable} {fragment : Text} : (table.extend fragment).balance = 0 →
      WalkStep (some table) fragment [.statement (trim (table.extend fragment).statement)] none
  /-- Any other fragment makes the open definition longer. -/
  | extending {table : OpenTable} {fragment : Text} : (table.extend fragment).balance ≠ 0 →
      WalkStep (some table) fragment [] (some (table.extend fragment))

variable {pending left : Option OpenTable} {fragment : Text} {made : List Outcome}

/-- A fragment with a head is not blank. -/
theorem trim_ne_nil_of_head {head : Head} (h : Head.ofFragment? (trim fragment) = some head) :
    trim fragment ≠ [] := by
  intro hnil
  have hnone : Head.ofFragment? [] = none := by decide
  rw [hnil, hnone] at h
  simp at h

/-- Every fragment is taken by a step. -/
theorem exists_step (pending : Option OpenTable) (fragment : Text) :
    ∃ made left, WalkStep pending fragment made left := by
  cases pending with
  | some table =>
      by_cases hbalance : (table.extend fragment).balance = 0
      · exact ⟨_, _, .closing hbalance⟩
      · exact ⟨_, _, .extending hbalance⟩
  | none =>
      by_cases hne : trim fragment = []
      · exact ⟨_, _, .blank hne⟩
      · cases hhead : Head.ofFragment? (trim fragment) with
        | none => exact ⟨_, _, .headless hne hhead⟩
        | some head =>
            by_cases hbalance : head = .createTable → parenBalance (trim fragment) = 0
            · exact ⟨_, _, .complete hhead hbalance⟩
            · obtain ⟨rfl, hopen⟩ := Classical.not_imp.1 hbalance
              exact ⟨_, _, .opening hhead hopen⟩

/-- The walk makes of a fragment what the step says, and goes on with what the step leaves
open. -/
theorem WalkStep.walk_eq (h : WalkStep pending fragment made left) (rest : List Text) :
    walk pending (fragment :: rest) = made ++ walk left rest := by
  cases h with
  | blank hnil => simp only [walk, if_pos hnil, List.nil_append]
  | headless hne hhead => simp only [walk, if_neg hne, hhead, List.singleton_append]
  | @complete _ head hhead hbalance =>
      simp only [walk, if_neg (trim_ne_nil_of_head hhead), hhead]
      cases head with
      | createTable => rw [if_pos (hbalance rfl), List.singleton_append]
      | createView | drop | alterTable => rfl
  | opening hhead hbalance =>
      simp only [walk, if_neg (trim_ne_nil_of_head hhead), hhead, if_neg hbalance,
        List.nil_append]
  | closing hbalance => simp only [walk, if_pos hbalance, List.singleton_append]
  | extending hbalance => simp only [walk, if_neg hbalance, List.nil_append]

/-- What each step gives the statements that it makes holds of the statements of a walk, if the
steps keep what they need of the definition that is open. -/
theorem forall_mem_walk {P : OpenTable → Prop} {Q : Text → Prop} {fragments : List Text}
    (hstep : ∀ fragment ∈ fragments, ∀ {pending made left},
      WalkStep pending fragment made left → (∀ table ∈ pending, P table) →
        (∀ s, .statement s ∈ made → Q s) ∧ ∀ table ∈ left, P table)
    (hpending : ∀ table ∈ pending, P table) {s : Text}
    (hs : .statement s ∈ walk pending fragments) : Q s := by
  induction fragments generalizing pending with
  | nil => cases pending <;> simp [walk] at hs
  | cons fragment rest ih =>
      obtain ⟨made, left, h⟩ := exists_step pending fragment
      obtain ⟨hmade, hleft⟩ := hstep fragment List.mem_cons_self h hpending
      rw [h.walk_eq, List.mem_append] at hs
      rcases hs with hs | hs
      · exact hmade s hs
      · exact ih (fun other hother => hstep other (List.mem_cons_of_mem fragment hother)) hleft hs

/-- So it holds of the statements of a dump. -/
theorem forall_mem_statements (P : OpenTable → Prop) {Q : Text → Prop} {text : Text}
    (hstep : ∀ fragment ∈ fragments text, ∀ {pending made left},
      WalkStep pending fragment made left → (∀ table ∈ pending, P table) →
        (∀ s, .statement s ∈ made → Q s) ∧ ∀ table ∈ left, P table) :
    ∀ s ∈ statements text, Q s := by
  intro s hs
  obtain ⟨outcome, houtcome, hs⟩ := List.mem_filterMap.1 hs
  cases outcome with
  | statement t =>
      obtain rfl : t = s := by simpa [Outcome.statement?] using hs
      exact forall_mem_walk hstep (by simp) houtcome
  | ignored => simp [Outcome.statement?] at hs
  | unterminated => simp [Outcome.statement?] at hs

end SchemaDelta.Dump
