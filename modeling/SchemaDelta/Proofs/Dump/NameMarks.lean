import SchemaDelta.Proofs.Dump.TableBody
import SchemaDelta.Proofs.Sql.Cut

/-!
# Names in name marks and the clauses around them

The scan for the body of a statement knows three quotation marks, the scan for its clauses does
not know name marks. So what a name has between its marks counts for the clauses: a comma in it may
cut it, and a parenthesis or another quotation mark in it may change how all clauses behind it are
cut, as `not_isCut_of_harmfulNames` shows. `isCut_clausePieces_iff` says when the two scans cut a
body alike. A name that has no comma and closes what it opens does no harm (`Harmless`): a scan is
behind it where it was in front of it, whatever is open there (`Harmless.after_quoteName`).
-/

namespace SchemaDelta.Sql

open Text

/-- The scan for the body behind the parenthesis that opens it: at depth one outside quotation
marks. -/
def insideBody : Scan := ⟨1, none⟩

/-- The name stands in the text between name marks that the scan for the body sees. -/
def InNameMarks (scan : Scan) (t name : Text) : Prop :=
  ∃ front back, t = front ++ (quoteName name ++ back) ∧
    (scan.after bodyMarks front).quote = none ∧ nameMark ∉ name

/-- No comma is in the name, and the scan for the clauses is behind it where it was in front. -/
structure Harmless (name : Text) : Prop where
  comma_not_mem : ',' ∉ name
  after_eq : Scan.start.after clauseMarks name = Scan.start

variable {marks t a b name body : Text} {level scan : Scan}

/-- The scan for the body is behind a name in name marks where it was in front of it. -/
theorem after_quoteName_bodyMarks (depth : Int) (h : nameMark ∉ name) :
    (⟨depth, none⟩ : Scan).after bodyMarks (quoteName name) = ⟨depth, none⟩ := by
  have hopen : (⟨depth, none⟩ : Scan).step bodyMarks nameMark = ⟨depth, some nameMark⟩ := rfl
  have hclose : (⟨depth, some nameMark⟩ : Scan).step bodyMarks nameMark = ⟨depth, none⟩ := rfl
  show Scan.after bodyMarks ⟨depth, none⟩ (nameMark :: (name ++ [nameMark])) = _
  rw [Scan.after_cons, hopen, Scan.after_append, Scan.after_quoted bodyMarks depth h,
    Scan.after_cons, hclose]
  rfl

/-- So is the scan for the clauses, if the name is harmless. -/
theorem Harmless.after_quoteName (h : Harmless name) (depth : Int) :
    (⟨depth, none⟩ : Scan).after clauseMarks (quoteName name) = ⟨depth, none⟩ := by
  have hmark : (⟨depth, none⟩ : Scan).step clauseMarks nameMark = ⟨depth, none⟩ := rfl
  have hstart : (⟨depth, none⟩ : Scan) = Scan.start.deepen depth := by
    simp [Scan.deepen, Scan.start]
  have hname : (⟨depth, none⟩ : Scan).after clauseMarks name = ⟨depth, none⟩ := by
    rw [hstart, Scan.after_deepen, h.after_eq]
  show Scan.after clauseMarks ⟨depth, none⟩ (nameMark :: (name ++ [nameMark])) = _
  rw [Scan.after_cons, hmark, Scan.after_append, hname, Scan.after_cons, hmark]
  rfl

/-- So a harmless name is a part of the first piece behind it for both scans. -/
theorem Harmless.cutPieces_quoteName (h : Harmless name) (hname : nameMark ∉ name) (depth : Int)
    (hmarks : marks = bodyMarks ∨ marks = clauseMarks) (back : Text) :
    cutPieces marks level ⟨depth, none⟩ (quoteName name ++ back) =
      (cutPieces marks level ⟨depth, none⟩ back).modifyHead (quoteName name ++ ·) := by
  have hcomma : ',' ∉ quoteName name := by simpa [quoteName, nameMark] using h.comma_not_mem
  rw [cutPieces_append (uncut_of_not_mem hcomma)]
  rcases hmarks with rfl | rfl
  · rw [after_quoteName_bodyMarks depth hname]
  · rw [h.after_quoteName depth]

/-- Behind a name mark that is closed stands a name and then the mark that closes it. -/
theorem exists_name_of_closed {depth : Int} {rest : Text}
    (h : ((⟨depth, none⟩ : Scan).after bodyMarks (nameMark :: rest)).quote = none) :
    ∃ name back, nameMark :: rest = quoteName name ++ back ∧ nameMark ∉ name := by
  have hstep : (⟨depth, none⟩ : Scan).step bodyMarks nameMark = ⟨depth, some nameMark⟩ := rfl
  have hmem : nameMark ∈ rest := by
    by_contra hnot
    rw [Scan.after_cons, hstep, Scan.after_quoted bodyMarks depth hnot] at h
    simp at h
  obtain ⟨name, back, rfl, hname⟩ := List.eq_append_cons_of_mem hmem
  exact ⟨name, back, by simp [quoteName], hname⟩

/-! ## One step and a run of both scans -/

namespace Scan

/-- Where no name mark opens a name the two scans do the same. -/
theorem step_bodyMarks {scan : Scan} {c : Char} (h : ¬(scan.quote = none ∧ c = nameMark)) :
    scan.step bodyMarks c = scan.step clauseMarks c := by
  obtain ⟨depth, quote⟩ := scan
  cases quote with
  | some q => rfl
  | none =>
      have hmark : c ≠ nameMark := fun heq => h ⟨rfl, heq⟩
      have hcontains : bodyMarks.contains c = clauseMarks.contains c := by
        have hne : c ≠ '\x60' := hmark
        simp [bodyMarks, clauseMarks, hne]
      simp only [step, hcontains]

/-- No name mark is open behind a step of the scan for the clauses, if none was before. -/
theorem quote_step_clauseMarks {scan : Scan} (h : scan.quote ≠ some nameMark) (c : Char) :
    (scan.step clauseMarks c).quote ≠ some nameMark := by
  obtain ⟨depth, quote⟩ := scan
  cases quote with
  | some q =>
      simp only [step]
      split
      · simp
      · exact h
  | none =>
      simp only [step]
      split
      · next hc =>
        intro heq
        obtain rfl : c = nameMark := Option.some.inj heq
        simp [clauseMarks, nameMark] at hc
      · split
        · simp
        · split <;> simp

end Scan

/-- What stands between name marks in the end of a text stands so in the text. -/
theorem InNameMarks.append (h : InNameMarks (scan.after bodyMarks a) b name) :
    InNameMarks scan (a ++ b) name := by
  obtain ⟨front, back, rfl, hquote, hname⟩ := h
  refine ⟨a ++ front, back, (List.append_assoc a front _).symm, ?_, hname⟩
  rw [Scan.after_append]
  exact hquote

/-- Outside quotation marks a comma is not seen. -/
theorem step_comma (h : scan.quote = none) : scan.step clauseMarks ',' = scan := by
  obtain ⟨depth, quote⟩ := scan
  subst h
  rfl

/-- Where all names are harmless and their marks are closed the two scans cut alike. -/
theorem cutPieces_bodyMarks {level scan : Scan} {t : Text} (hlevel : level.quote = none)
    (hquote : scan.quote ≠ some nameMark) (hclosed : (scan.after bodyMarks t).quote = none)
    (hnames : ∀ name, InNameMarks scan t name → Harmless name) :
    cutPieces bodyMarks level scan t = cutPieces clauseMarks level scan t := by
  rcases ht : t with _ | ⟨c, rest⟩
  · rfl
  have hlength : t.length = rest.length + 1 := by rw [ht, List.length_cons]
  rw [ht] at hclosed hnames
  by_cases hopen : scan.quote = none ∧ c = nameMark
  · -- The text goes on with a name, behind which both scans are where they were.
    obtain ⟨depth, quote⟩ := scan
    obtain ⟨rfl, rfl⟩ : quote = none ∧ c = nameMark := hopen
    obtain ⟨name, back, htext, hname⟩ := exists_name_of_closed hclosed
    have hlt : back.length < t.length := by
      rw [ht, htext, List.length_append, quoteName, List.length_append, List.length_cons]
      omega
    rw [htext] at hclosed hnames ⊢
    have hharmless : Harmless name := hnames name ⟨[], back, rfl, rfl, hname⟩
    rw [Scan.after_append, after_quoteName_bodyMarks depth hname] at hclosed
    have hback : cutPieces bodyMarks level ⟨depth, none⟩ back =
        cutPieces clauseMarks level ⟨depth, none⟩ back := by
      refine cutPieces_bodyMarks hlevel hquote hclosed fun other hother => hnames other ?_
      refine InNameMarks.append ?_
      rwa [after_quoteName_bodyMarks depth hname]
    rw [hharmless.cutPieces_quoteName hname depth (.inl rfl),
      hharmless.cutPieces_quoteName hname depth (.inr rfl), hback]
  · have hstep : scan.step bodyMarks c = scan.step clauseMarks c := Scan.step_bodyMarks hopen
    rw [Scan.after_cons, hstep] at hclosed
    have hrest : cutPieces bodyMarks level (scan.step clauseMarks c) rest =
        cutPieces clauseMarks level (scan.step clauseMarks c) rest := by
      refine cutPieces_bodyMarks hlevel (Scan.quote_step_clauseMarks hquote c) hclosed ?_
      intro name hname
      refine hnames name (InNameMarks.append (a := [c]) ?_)
      show InNameMarks (scan.step bodyMarks c) rest name
      rwa [hstep]
    rw [cutPieces, cutPieces, hstep, hrest]
    split
    · next hcut =>
      -- At a cut the scans have not moved.
      obtain ⟨rfl, rfl⟩ := hcut
      rw [step_comma hlevel] at hrest
      rw [hrest]
    · rfl
termination_by t.length

/-! ## When the scans agree -/

/-- Behind a text that leads from one place to another the scan for the body is at the other. -/
theorem Nesting.Leads.after_bodyScan {place behind : Nesting} (h : place.Leads t behind)
    (around : Int) : (place.bodyScan around).after bodyMarks t = behind.bodyScan around := by
  induction h with
  | nil => rfl
  | cons hstep _ ih => rw [Scan.after_cons, hstep.bodyScan_step, ih]

/-- Behind the body of a statement the scan is where it was in front of it. -/
theorem after_insideBody {statement : Text} (h : tableBody statement = some body) :
    insideBody.after bodyMarks body = insideBody := by
  obtain ⟨_, _, -, hbalanced, -⟩ := tableBody_eq_some_iff.1 h
  exact hbalanced.after_bodyScan 1

/-- The scan for the body of a statement cuts it at the commas at depth one outside all quotation
marks. The clauses are cut at the same commas exactly if none of these pieces is cut in itself when
it is scanned for clauses, and each but the last leads that scan back to its start. They are if no
name in name marks has a comma in it or leaves open, or closes, anything but itself. -/
theorem isCut_clausePieces_iff {statement : Text} (h : tableBody statement = some body) :
    ∃ pieces, IsCut bodyMarks insideBody body pieces ∧
      (IsCut bodyMarks insideBody body (clausePieces Scan.start body) ↔
        Parted clauseMarks Scan.start pieces) ∧
      ((∀ name, InNameMarks insideBody body name → Harmless name) →
        IsCut bodyMarks insideBody body (clausePieces Scan.start body)) := by
  have hinside : insideBody.step bodyMarks ',' = insideBody := rfl
  refine ⟨_, isCut_cutPieces hinside body, ?_, fun hnames => ?_⟩
  · rw [isCut_iff hinside, clausePieces_eq_cutPieces]
    constructor
    · intro heq
      rw [heq]
      exact parted_cutPieces clauseMarks Scan.start body
    · intro hparted
      have hjoin := cutPieces_join (cutPieces_ne_nil bodyMarks insideBody body) hparted
      rw [(isCut_cutPieces hinside body).join_eq] at hjoin
      exact hjoin.symm
  · have hclosed : (insideBody.after bodyMarks body).quote = none := by
      rw [after_insideBody h]
      rfl
    rw [isCut_iff hinside, clausePieces_eq_cutPieces,
      cutPieces_bodyMarks rfl (by simp [insideBody]) hclosed hnames]
    exact cutPieces_deepen clauseMarks 1 Scan.start Scan.start body

/-- A statement with a harmless parenthesis in a name and a name mark in a string. -/
def harmlessNames : Text := "CREATE TABLE t (`price (EUR)` int, b enum('x,`y'), KEY k (`b`))"

/-- Its clauses are cut at the commas that the scan for its body sees. -/
theorem isCut_of_harmlessNames :
    ∃ body, tableBody harmlessNames = some body ∧
      IsCut bodyMarks insideBody body (clausePieces Scan.start body) ∧
      clauses body = ["`price (EUR)` int".toList, "b enum('x,`y')".toList,
        "KEY k (`b`)".toList] := by
  have hbody : tableBody harmlessNames =
      some "`price (EUR)` int, b enum('x,`y'), KEY k (`b`)".toList := by decide +kernel
  obtain ⟨pieces, hpieces, hiff, -⟩ := isCut_clausePieces_iff hbody
  refine ⟨_, hbody, hiff.2 ?_, by decide +kernel⟩
  obtain rfl := (isCut_iff rfl).1 hpieces
  exact ⟨by decide +kernel, by decide +kernel⟩

/-- A statement with a comma in one name and a quotation mark in another. -/
def harmfulNames : Text := "CREATE TABLE t (`a,b` int, `it's` int, c int)"

/-- The first name is cut, and the clause behind the second is not cut off. -/
theorem not_isCut_of_harmfulNames :
    tableBody harmfulNames = some "`a,b` int, `it's` int, c int".toList ∧
      clauses "`a,b` int, `it's` int, c int" =
        ["`a".toList, "b` int".toList, "`it's` int, c int".toList] ∧
      ¬IsCut bodyMarks insideBody "`a,b` int, `it's` int, c int"
        (clausePieces Scan.start "`a,b` int, `it's` int, c int") := by
  refine ⟨by decide +kernel, by decide +kernel, ?_⟩
  rw [isCut_iff rfl]
  decide +kernel

end SchemaDelta.Sql
