import SchemaDelta.Proofs.Sql.Nesting
import SchemaDelta.Proofs.Sql.Silent

/-!
# Quoted names and lists of them

Names are written in name marks, and lists of names with commas between them and parentheses
around. Texts that are put together from words, names and lists close what they open, and a
property that marks and single spaces do not disturb (`Woven`) holds of such a text if it holds of
the words.
-/

namespace SchemaDelta.Sql

open Text

/-- A list of names, quoted, between parentheses. -/
def nameList (names : List Text) : Text := '(' :: (join ", " (names.map quoteName) ++ [')'])

/-- A list of names is not empty and has names in it. -/
structure IsNameList (names : List Text) : Prop where
  ne_nil : names ≠ []
  isName : ∀ name ∈ names, IsName name

instance (names : List Text) : Decidable (IsNameList names) :=
  decidable_of_iff (names ≠ [] ∧ ∀ name ∈ names, IsName name)
    ⟨fun h => ⟨h.1, h.2⟩, fun h => ⟨h.ne_nil, h.isName⟩⟩

variable {name front rest : Text} {names : List Text}

/-! ## What is open -/

namespace Nesting

/-- A name opens and closes nothing, also between name marks. -/
theorem after_name (hname : ∀ c ∈ name, isWord c) {nesting : Nesting}
    (hquote : ∀ q ∈ nesting.quote, q = nameMark) : nesting.after name = some nesting := by
  induction name with
  | nil => rfl
  | cons c r ih =>
      have hnot : c ∉ bodyMarks ++ "(),".toList :=
        not_mem_of_isWord (hname c List.mem_cons_self) (by decide)
      rw [List.mem_append, not_or] at hnot
      obtain ⟨hmark, hnot⟩ := hnot
      obtain ⟨hopen, hclose, hcomma⟩ : c ≠ '(' ∧ c ≠ ')' ∧ c ≠ ',' := by simpa using hnot
      have hclauseMark : c ∉ clauseMarks := fun hmem =>
        hmark (List.mem_append_left [nameMark] hmem)
      have hnext : nesting.next c = some nesting := by
        obtain ⟨depth, quote⟩ := nesting
        cases quote with
        | none => simp [next, hmark, hopen, hclose, hcomma]
        | some q =>
            obtain rfl : q = nameMark := hquote q rfl
            have hname' : c ≠ nameMark := fun heq => hmark (heq ▸ by decide)
            simp [next, hopen, hclose, hcomma, hclauseMark, hname']
      rw [after, hnext, Option.bind_some]
      exact ih fun d hd => hname d (List.mem_cons_of_mem c hd)

/-- A quoted name is closed at every depth. -/
theorem after_quoteName (hname : IsName name) (depth : Nat) :
    after ⟨depth, none⟩ (quoteName name) = some ⟨depth, none⟩ := by
  have hinside : after ⟨depth, some nameMark⟩ name = some ⟨depth, some nameMark⟩ :=
    after_name hname.isWord (by simp)
  have hopen : after ⟨depth, none⟩ [nameMark] = some ⟨depth, some nameMark⟩ := rfl
  have hclose : after ⟨depth, some nameMark⟩ [nameMark] = some ⟨depth, none⟩ := rfl
  exact after_append (after_append hopen hinside) hclose

/-- Texts that are closed between parentheses are so with commas between them. -/
theorem after_join {parts : List Text} {depth : Nat}
    (h : ∀ part ∈ parts, after ⟨depth + 1, none⟩ part = some ⟨depth + 1, none⟩) :
    after ⟨depth + 1, none⟩ (join "," parts) = some ⟨depth + 1, none⟩ := by
  have hcomma : after ⟨depth + 1, none⟩ [','] = some ⟨depth + 1, none⟩ := rfl
  refine join_of_append_cons (P := fun t => after ⟨depth + 1, none⟩ t = some ⟨depth + 1, none⟩)
    (c := ',') rfl (fun ha hb => ?_) h
  exact after_append ha (after_append hcomma hb)

/-- A list of names is closed by its parentheses. -/
theorem after_nameList (hnames : ∀ name ∈ names, IsName name) :
    outside.after (nameList names) = some outside := by
  have hopen : outside.after ['('] = some ⟨1, none⟩ := rfl
  have hclose : after ⟨1, none⟩ [')'] = some outside := rfl
  have hblank : after ⟨1, none⟩ [' '] = some ⟨1, none⟩ := rfl
  have hquoted : ∀ part ∈ names.map quoteName, after ⟨1, none⟩ part = some ⟨1, none⟩ := by
    intro part hpart
    obtain ⟨name, hname, rfl⟩ := List.mem_map.1 hpart
    exact after_quoteName (hnames name hname) 1
  have hlist : after ⟨1, none⟩ (join ", " (names.map quoteName)) = some ⟨1, none⟩ := by
    rw [join_spaced]
    exact after_join (forall_mem_spaced hquoted fun part hpart =>
      after_append hblank (hquoted part hpart))
  show outside.after (['('] ++ (join ", " (names.map quoteName) ++ [')'])) = some outside
  exact after_append hopen (after_append hlist hclose)

end Nesting

theorem closed_quoteName (hname : IsName name) : Closed (quoteName name) :=
  Nesting.after_quoteName hname 0

theorem closed_nameList (hnames : ∀ name ∈ names, IsName name) : Closed (nameList names) :=
  Nesting.after_nameList hnames

/-! ## What is kept -/

/-- A property of texts that names have and that marks between texts and single spaces do not
disturb. -/
structure Woven (P : Text → Prop) : Prop where
  nil : P []
  name : ∀ {name}, IsName name → P name
  append_cons : ∀ {a b : Text} {c : Char}, P a → P b → c ∈ nameMark :: ",()".toList →
    P (a ++ c :: b)
  space : ∀ {t : Text}, P t → (∀ c ∈ t.head?, ¬isBlank c) → P (' ' :: t)

variable {P : Text → Prop}

/-- A quoted name may stand between two texts. -/
theorem Woven.quoteName (hP : Woven P) (hname : IsName name) (hfront : P front) (hrest : P rest) :
    P (front ++ (quoteName name ++ rest)) := by
  have heq : front ++ (Sql.quoteName name ++ rest) =
      front ++ nameMark :: (name ++ nameMark :: rest) := by
    simp [Sql.quoteName]
  rw [heq]
  exact hP.append_cons hfront (hP.append_cons (hP.name hname) hrest (by simp)) (by simp)

/-- Texts may stand one after another with commas between them. -/
theorem Woven.join (hP : Woven P) {parts : List Text} (h : ∀ part ∈ parts, P part) :
    P (join "," parts) := by
  refine join_of_append_cons (c := ',') hP.nil (fun ha hb => ?_) h
  exact hP.append_cons ha hb (by simp)

/-- So they may with spaces behind the commas. -/
theorem Woven.list (hP : Woven P) {parts : List Text} (h : ∀ part ∈ parts, P part)
    (hhead : ∀ part ∈ parts, ∀ c ∈ part.head?, ¬isBlank c) : P (Text.join ", " parts) := by
  rw [join_spaced]
  exact hP.join (forall_mem_spaced h fun part hpart => hP.space (h part hpart) (hhead part hpart))

/-- A list of names may stand between two texts. -/
theorem Woven.nameList (hP : Woven P) (hnames : ∀ name ∈ names, IsName name) (hfront : P front)
    (hrest : P rest) : P (front ++ (nameList names ++ rest)) := by
  have heq : front ++ (Sql.nameList names ++ rest) =
      front ++ '(' :: (Text.join ", " (names.map Sql.quoteName) ++ ')' :: rest) := by
    simp [Sql.nameList]
  have hlist : P (Text.join ", " (names.map Sql.quoteName)) := by
    refine hP.list (fun part hpart => ?_) fun part hpart => ?_
    · obtain ⟨name, hname, rfl⟩ := List.mem_map.1 hpart
      have hquoted := hP.quoteName (hnames name hname) hP.nil hP.nil
      rwa [List.nil_append, List.append_nil] at hquoted
    · obtain ⟨name, hname, rfl⟩ := List.mem_map.1 hpart
      intro c hc
      exact (hnames name hname).not_isBlank_quoteName (List.mem_of_mem_head? hc)
  rw [heq]
  exact hP.append_cons hfront (hP.append_cons hlist hrest (by simp)) (by simp)

/-- Texts that are silent about a keyword stay so. -/
theorem woven_silent {k : Text} (hk : IsKeyword k) : Woven (Silent k) where
  nil := silent_of_not_isBlank (by simp)
  name hname := silent_of_not_isBlank fun _ hc => hname.not_isBlank hc
  append_cons {a b c} ha hb hc := by
    have hmarks : ∀ d ∈ nameMark :: ",()".toList, !(keywordFold d).isUpper && !isBlank d :=
      List.all_eq_true.1 (by decide)
    obtain ⟨hupper, hblank⟩ : (keywordFold c).isUpper = false ∧ ¬isBlank c := by
      simpa using hmarks c hc
    exact ha.append_cons hb hk hupper hblank
  space h _ := h.cons hk (by decide)

end SchemaDelta.Sql
