import SchemaDelta.Proofs.Dump.Clean
import SchemaDelta.Proofs.Text.Removal

/-!
# Comments

The two kinds of comments as patterns: a line comment goes from two hyphens to the end of the
line, and a block comment from its opening mark to the first closing mark behind it. Each of the
two passes over comments takes the matches of one pattern out of a text (`removed_lineComment`,
`removed_blockComment`), whatever stands in front of the text.
-/

namespace SchemaDelta.Dump

open Text

/-- Two hyphens and all that is behind them on the line. -/
def LineComment : Pattern := fun _ matched behind =>
  ∃ body, matched = '-' :: '-' :: body ∧ '\n' ∉ body ∧ ∀ c ∈ behind.head?, c = '\n'

/-- An opening mark and all that is behind it up to the first closing mark. -/
def BlockComment : Pattern := fun _ matched _ =>
  ∃ body, matched = '/' :: '*' :: body ++ ['*', '/'] ∧ Apart '*' '/' (body ++ ['*'])

/-- A line comment ends where its line ends. -/
theorem definite_lineComment : LineComment.Definite := by
  rintro - matched more behind ⟨body, rfl, -, hend⟩ ⟨longer, hlonger, hfeed, -⟩
  cases more with
  | nil => rfl
  | cons c more =>
      obtain rfl : c = '\n' := hend c rfl
      have hbody : body ++ '\n' :: more = longer :=
        (List.cons.inj (List.cons.inj hlonger).2).2
      exact absurd (hbody ▸ by simp) hfeed

/-- A block comment ends at the first closing mark. -/
theorem definite_blockComment : BlockComment.Definite := by
  rintro - matched more behind ⟨body, rfl, -⟩ ⟨longer, hlonger, hfirst⟩
  rcases List.eq_nil_or_concat' more with rfl | ⟨more, c, rfl⟩
  · rfl
  · have hbody : body ++ ['*', '/'] ++ more ++ [c] = longer ++ ['*'] ++ ['/'] := by
      simpa using hlonger
    have hpair : ['*', '/'] <:+: longer ++ ['*'] :=
      ⟨body, more, (List.append_inj_left' hbody rfl)⟩
    exact absurd (Apart.of_part hfirst hpair) (by decide)

/-- In front of the end of its line a line comment is dropped. -/
theorem dropLineComments_inside_append {body behind : Text} (hbody : '\n' ∉ body)
    (hend : ∀ c ∈ behind.head?, c = '\n') :
    dropLineComments true (body ++ behind) = dropLineComments false behind := by
  cases behind with
  | nil => rw [List.append_nil, dropLineComments_inside hbody]; rfl
  | cons c behind =>
      obtain rfl : c = '\n' := hend c rfl
      rw [dropLineComments_append hbody, dropLineComments_inside hbody]
      rfl

/-- In front of its closing mark a block comment is dropped. -/
theorem dropBlockComments_inside_append {body : Text} (h : Apart '*' '/' (body ++ ['*']))
    (behind : Text) : dropBlockComments .inside (body ++ '*' :: '/' :: behind) =
      dropBlockComments .outside behind := by
  induction body with
  | nil => rfl
  | cons c r ih =>
      have hhead : (r ++ '*' :: '/' :: behind).head? = (r ++ ['*']).head? := by cases r <;> rfl
      have hclose : ¬(c = '*' ∧ (r ++ '*' :: '/' :: behind).head? = some '/') := by
        intro hboth
        exact List.IsChain.rel_head? h (hhead ▸ hboth.2) ⟨hboth.1, rfl⟩
      rw [List.cons_append, dropBlockComments, if_neg hclose, ih (List.IsChain.tail h)]

/-- If two characters stand side by side in a text, there is a first place where they do. -/
theorem exists_first_pair {c d : Char} {t : Text} (h : [c, d] <:+: t) :
    ∃ front behind, t = front ++ c :: d :: behind ∧ Apart c d (front ++ [c]) := by
  induction t with
  | nil => simp at h
  | cons a r ih =>
      by_cases hpair : [c, d] <+: a :: r
      · obtain ⟨behind, hbehind⟩ := hpair
        exact ⟨[], behind, hbehind.symm, .singleton c⟩
      · obtain ⟨front, behind, rfl, hfront⟩ := ih ((List.infix_cons_iff.1 h).resolve_left hpair)
        refine ⟨a :: front, behind, rfl, List.IsChain.cons hfront fun b hb hboth => hpair ?_⟩
        -- What stands behind the new character is what the old place is in front of.
        have hhead : (front ++ c :: d :: behind).head? = some b := by
          rw [← hb]
          cases front <;> rfl
        obtain ⟨rfl, rfl⟩ := hboth
        obtain ⟨rest, hrest⟩ := List.head?_eq_some_iff.1 hhead
        exact ⟨rest, by rw [hrest]; rfl⟩

/-- A text is what stands in front of its first line feed, and the rest. -/
theorem exists_line_end (t : Text) :
    ∃ line behind, t = line ++ behind ∧ '\n' ∉ line ∧ ∀ c ∈ behind.head?, c = '\n' := by
  refine ⟨t.takeWhile (· ≠ '\n'), t.dropWhile (· ≠ '\n'),
    List.takeWhile_append_dropWhile.symm, fun hmem => ?_, fun c hc => ?_⟩
  · simpa using List.mem_takeWhile_imp hmem
  · have hhead := List.head?_dropWhile_not (· ≠ '\n') t
    rw [Option.mem_def.1 hc] at hhead
    simpa using hhead

/-- The pass over line comments takes them out. -/
theorem removed_lineComment (before : Option Char) (t : Text) :
    Removed LineComment before t (dropLineComments false t) := by
  match t with
  | [] => exact .nil
  | c :: rest =>
      by_cases hdash : c = '-' ∧ rest.head? = some '-'
      · obtain ⟨rfl, hhead⟩ := hdash
        obtain ⟨line, rfl⟩ := List.head?_eq_some_iff.1 hhead
        obtain ⟨body, behind, rfl, hbody, hend⟩ := exists_line_end line
        have hdrop : dropLineComments false ('-' :: '-' :: (body ++ behind)) =
            dropLineComments false behind := by
          have hbody' : '\n' ∉ '-' :: body := by simp [hbody]
          show dropLineComments true ('-' :: body ++ behind) = _
          exact dropLineComments_inside_append hbody' hend
        rw [hdrop]
        show Removed LineComment before ('-' :: '-' :: body ++ behind) _
        exact .drop ⟨body, rfl, hbody, hend⟩ (by simp) (removed_lineComment _ behind)
      · rw [dropLineComments, if_neg (by simp), if_neg hdash]
        refine .keep (fun matched behind heq _ hmatch => hdash ?_) (removed_lineComment _ rest)
        obtain ⟨body, rfl, -, -⟩ := hmatch
        obtain ⟨rfl, rfl⟩ := List.cons.inj heq
        exact ⟨rfl, rfl⟩
termination_by t.length

/-- The pass over block comments takes them out. -/
theorem removed_blockComment (before : Option Char) (t : Text) :
    Removed BlockComment before t (dropBlockComments .outside t) := by
  match t with
  | [] => exact .nil
  | c :: rest =>
      by_cases hopens : c = '/' ∧ opensBlock rest
      · obtain ⟨rfl, hblock⟩ := hopens
        obtain ⟨inner, rfl⟩ := List.head?_eq_some_iff.1 (head?_of_opensBlock hblock)
        have hclose : ['*', '/'] <:+: inner := occursIn_iff.1 hblock
        obtain ⟨body, behind, rfl, hbody⟩ := exists_first_pair hclose
        have hdrop : dropBlockComments .outside ('/' :: '*' :: (body ++ '*' :: '/' :: behind)) =
            dropBlockComments .outside behind := by
          rw [dropBlockComments, if_pos ⟨rfl, hblock⟩]
          show dropBlockComments .inside (body ++ '*' :: '/' :: behind) = _
          exact dropBlockComments_inside_append hbody behind
        have hmatched : '/' :: '*' :: (body ++ '*' :: '/' :: behind) =
            ('/' :: '*' :: body ++ ['*', '/']) ++ behind := by simp
        rw [hdrop, hmatched]
        exact .drop ⟨body, rfl, hbody⟩ (by simp) (removed_blockComment _ behind)
      · rw [dropBlockComments, if_neg hopens]
        refine .keep (fun matched behind heq _ hmatch => hopens ?_) (removed_blockComment _ rest)
        obtain ⟨body, rfl, -⟩ := hmatch
        obtain ⟨rfl, rfl⟩ := List.cons.inj heq
        have hclose : "*/".toList <:+: body ++ ['*', '/'] ++ behind := ⟨body, behind, rfl⟩
        exact ⟨rfl, occursIn_iff.2 hclose⟩
termination_by t.length

end SchemaDelta.Dump
