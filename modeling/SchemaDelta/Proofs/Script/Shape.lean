import Mathlib.Data.List.Nodup
import SchemaDelta.Proofs.Script.Lines

/-!
# The shape of a script

Some lines of a script say where one is in it: the titles, the notes of stages with nothing in
them, the counts of the summary and the last line. Such a marker holds no semicolon, which a
statement has at its end (`semicolon_not_mem`), and opens in its own way, which no other comment
does (`take_mem_openings`). So whatever the dumps hold, the markers among the lines of a script
are the ones that its delta calls for, in order and each once (`shaped_ofTexts`).
-/

namespace SchemaDelta

open Sql Text

namespace Script

/-- The stages of a script. -/
inductive Stage where
  | newTables
  | droppableTables
  | changedTables
  | views
  deriving DecidableEq

namespace Stage

/-- The stages in order. -/
def all : List Stage := [newTables, droppableTables, changedTables, views]

/-- The title of a stage. -/
def title : Stage → Text
  | newTables => "STAGE 1: NEW TABLES"
  | droppableTables => "STAGE 2: TABLES THAT CAN BE REMOVED"
  | changedTables => "STAGE 3: CHANGES TO EXISTING TABLES"
  | views => "STAGE 4: VIEW MANAGEMENT"

/-- What a stage with nothing in it says instead. -/
def note : Stage → Text
  | newTables => "No new tables found"
  | droppableTables => "No tables to remove found"
  | changedTables => "No changes to existing tables found"
  | views => "No view changes found"

/-- Whether a delta has nothing to do in a stage. -/
def idle (delta : Delta) : Stage → Bool
  | newTables => delta.created = []
  | droppableTables => delta.dropped = []
  | changedTables => delta.altered = []
  | views => delta.viewChanges = []

theorem mem_all (stage : Stage) : stage ∈ all := by
  cases stage <;> decide

end Stage

/-! ## Markers -/

/-- The line with the title of the summary. -/
def summaryTitle : Text := (Line.comment "SCRIPT SUMMARY").text

/-- The lines with titles, in order. -/
def titles : List Text :=
  Stage.all.map (fun stage => (Line.comment stage.title).text) ++ [summaryTitle]

/-- The lines with notes of stages, in order. -/
def notes : List Text := Stage.all.map fun stage => (Line.comment stage.note).text

/-- The lines that a script can end with. -/
def endings : List Text := [synchronizedLine.text, reviewLine.text]

/-- What the counts of a summary are labelled with, in order. -/
def labels : List Text :=
  ["Tables to create: ", "Tables to remove: ", "Tables to modify: ", "Views to create: ",
    "Views to remove: ", "Views to modify: "]

/-- A line with a labelled count. -/
def countLine (label : Text) (count : Nat) : Text := (Line.comment (label ++ ofNat count)).text

/-- Whether a line has a label with digits behind it. -/
def isCount (line : Text) : Bool :=
  labels.any fun label => (Line.comment label).text.isPrefixOf line &&
    (line.drop (Line.comment label).text.length).all Char.isDigit

/-- Whether a line says where one is in a script: it is a title, the note of a stage with nothing
in it, a count or a last line. -/
def isMarker (line : Text) : Bool := (titles ++ notes ++ endings).contains line || isCount line

/-- The lines with the counts, in order. -/
def countLines (counts : Summary) : List Text :=
  (labels.zip [counts.newTables, counts.droppedTables, counts.modifiedTables, counts.newViews,
    counts.droppedViews, counts.modifiedViews]).map fun entry => countLine entry.1 entry.2

/-- The last line of a script with these counts. -/
def lastLine (counts : Summary) : Text :=
  if counts = ⟨0, 0, 0, 0, 0, 0⟩ then synchronizedLine.text else reviewLine.text

/-- The markers of a stage: its title, and its note if there is nothing in it. -/
def stageMarkers (delta : Delta) (stage : Stage) : List Text :=
  (Line.comment stage.title).text ::
    if stage.idle delta then [(Line.comment stage.note).text] else []

/-- The markers of a summary: its title, the counts and the last line. -/
def summaryMarkers (counts : Summary) : List Text :=
  summaryTitle :: (countLines counts ++ [lastLine counts])

/-- The markers that a delta calls for, in order. -/
def markers (delta : Delta) : List Text :=
  Stage.all.flatMap (stageMarkers delta) ++ summaryMarkers delta.summary

/-! ## What is no marker -/

theorem isCount_iff {line : Text} : isCount line ↔
    ∃ label ∈ labels, ∃ digits : Text, line = (Line.comment label).text ++ digits ∧
      ∀ c ∈ digits, c.isDigit := by
  simp only [isCount, List.any_eq_true, Bool.and_eq_true, List.isPrefixOf_iff_prefix,
    List.all_eq_true]
  refine exists_congr fun label => and_congr_right fun _ => ⟨?_, ?_⟩
  · rintro ⟨⟨digits, rfl⟩, hdigits⟩
    rw [List.drop_left] at hdigits
    exact ⟨digits, rfl, hdigits⟩
  · rintro ⟨digits, rfl, hdigits⟩
    exact ⟨List.prefix_append _ digits, by rwa [List.drop_left]⟩

/-- A marker is one of the fixed lines or a count. -/
theorem isMarker_iff {line : Text} :
    isMarker line ↔ line ∈ titles ++ notes ++ endings ∨ isCount line := by
  rw [isMarker, Bool.or_eq_true, List.contains_iff_mem]

/-- What markers open with, behind two hyphens and a space. -/
def openings : List Text :=
  ["STAGE ", "SCRIPT", "No new", "No tab", "No cha", "No vie", "Tables", "Views ", "The sc",
    "REMEMB"]

/-- No two of the fixed lines are alike. -/
theorem nodup_fixed : (titles ++ notes ++ endings).Nodup := by
  decide +kernel

theorem nodup_titles_notes : (titles ++ notes).Nodup :=
  (List.nodup_append.1 nodup_fixed).1

theorem fixed_spec : ∀ line ∈ titles ++ notes ++ endings,
    ¬isCount line ∧ ';' ∉ line ∧ (line.drop 3).take 6 ∈ openings := by
  decide +kernel

theorem label_spec : ∀ label ∈ labels,
    ';' ∉ (Line.comment label).text ∧ 9 ≤ (Line.comment label).text.length ∧
      ((Line.comment label).text.drop 3).take 6 ∈ openings := by
  decide +kernel

/-- A marker holds no semicolon. -/
theorem semicolon_not_mem {line : Text} (h : isMarker line) : ';' ∉ line := by
  rcases isMarker_iff.1 h with hfixed | hcount
  · exact (fixed_spec line hfixed).2.1
  · obtain ⟨label, hlabel, digits, rfl, hdigits⟩ := isCount_iff.1 hcount
    intro hmem
    rcases List.mem_append.1 hmem with hmem | hmem
    · exact (label_spec label hlabel).1 hmem
    · exact absurd (hdigits ';' hmem) (by decide)

/-- A marker opens like one: of a count the label is long enough to tell. -/
theorem take_mem_openings {line : Text} (h : isMarker line) :
    (line.drop 3).take 6 ∈ openings := by
  rcases isMarker_iff.1 h with hfixed | hcount
  · exact (fixed_spec line hfixed).2.2
  · obtain ⟨label, hlabel, digits, rfl, -⟩ := isCount_iff.1 hcount
    obtain ⟨-, hlength, hopening⟩ := label_spec label hlabel
    rw [List.drop_append_of_le_length (by omega),
      List.take_append_of_le_length (by rw [List.length_drop]; omega)]
    exact hopening

/-- Whether the line shows as a marker. -/
def isMark (line : Line) : Bool := isMarker line.text

@[simp] theorem isMark_blank : isMark .blank = false := by
  rw [isMark, Bool.eq_false_iff]
  exact fun h => absurd (take_mem_openings h) (by simp [openings, Line.text])

/-- A statement has a semicolon at its end, so it is no marker. -/
@[simp] theorem isMark_statement (sql : Text) : isMark (.statement sql) = false := by
  rw [isMark, Bool.eq_false_iff]
  exact fun h => semicolon_not_mem h (by simp [Line.text])

/-- A comment that opens otherwise is no marker. -/
theorem isMark_comment {note : Text} (h : note.take 6 ∉ openings) :
    isMark (.comment note) = false := by
  rw [isMark, Bool.eq_false_iff]
  exact mt take_mem_openings h

@[simp] theorem isMark_divider : isMark divider = false :=
  isMark_comment (by simp [openings])

/-! ## The lines between the markers -/

theorem filter_isMark_newTable (table : Table) : (newTable table).filter isMark = [] := by
  unfold newTable
  split <;> simp [isMark_comment, openings]

theorem filter_isMark_droppableTable (key : Text) : (droppableTable key).filter isMark = [] := by
  simp [droppableTable, isMark_comment, openings]

/-- The line of an edit is no marker, for a suggestion opens with the statement it suggests. -/
theorem isMark_edit (edit : Edit) (table : Text) : isMark (edit.line table) = false := by
  cases edit <;> simp [Edit.line, isMark_comment, openings]

theorem filter_isMark_tableChange (change : TableChange) :
    (tableChange change).filter isMark = [] := by
  have hreplayed : (change.replayed.flatMap fun sql =>
      [Line.comment "ALTER found in target:", .statement sql]).filter isMark = [] := by
    rw [List.filter_flatMap, List.flatMap_eq_nil_iff]
    intro sql _
    simp [isMark_comment, openings]
  have hordered : (change.ordered.map (Edit.line change.name)).filter isMark = [] := by
    simp [isMark_edit]
  have hcolumns : (if change.columns.isEmpty then []
      else [Line.comment ("Current columns: " ++ join ", " change.current.columns.keys),
        .comment ("Target columns: " ++ join ", " change.target.columns.keys)]).filter isMark =
          [] := by
    split <;> simp [isMark_comment, openings]
  unfold tableChange
  simp only [List.filter_append, List.filter_cons, hreplayed, hordered, hcolumns]
  simp [isMark_comment, openings]

theorem filter_isMark_viewChange (change : ViewChange) :
    (viewChange change).filter isMark = [] := by
  cases change <;>
    simp [viewChange, viewNotes, ViewChange.statements, ViewChange.dropLine, isMark_comment,
      openings]

theorem filter_isMark_viewChanges (delta : Delta) : (viewChanges delta).filter isMark = [] := by
  have hchanges : (delta.viewChanges.flatMap viewChange).filter isMark = [] := by
    rw [List.filter_flatMap, List.flatMap_eq_nil_iff]
    exact fun change _ => filter_isMark_viewChange change
  unfold viewChanges
  split
  · rfl
  · rw [List.filter_append, hchanges]
    simp [isMark_comment, openings]

/-! ## The markers of the stages and of the summary -/

/-- The markers among the lines, as the script shows them. -/
def marksOf (lines : List Line) : List Text := (lines.filter isMark).map Line.text

/-- They are the texts of lines that are markers. -/
theorem marksOf_eq (lines : List Line) : marksOf lines = (lines.map Line.text).filter isMarker := by
  rw [marksOf, List.filter_map]
  rfl

theorem marksOf_append (front back : List Line) :
    marksOf (front ++ back) = marksOf front ++ marksOf back := by
  rw [marksOf, List.filter_append, List.map_append, marksOf, marksOf]

theorem mem_titles (stage : Stage) : (Line.comment stage.title).text ∈ titles :=
  List.mem_append_left _ (List.mem_map_of_mem stage.mem_all)

theorem mem_notes (stage : Stage) : (Line.comment stage.note).text ∈ notes :=
  List.mem_map_of_mem stage.mem_all

theorem summaryTitle_mem_titles : summaryTitle ∈ titles :=
  List.mem_append_right _ (List.mem_singleton.2 rfl)

theorem isMarker_of_mem_titles {line : Text} (h : line ∈ titles) : isMarker line :=
  isMarker_iff.2 (.inl (List.mem_append_left _ (List.mem_append_left _ h)))

theorem isMarker_of_mem_notes {line : Text} (h : line ∈ notes) : isMarker line :=
  isMarker_iff.2 (.inl (List.mem_append_left _ (List.mem_append_right _ h)))

/-- The lines of a stage hold no markers but those of the stage. -/
theorem marksOf_stage {delta : Delta} (which : Stage) {lines : List Line}
    (hlines : lines.filter isMark = []) (hidle : lines.isEmpty = which.idle delta) :
    marksOf (stage which.title which.note lines) = stageMarkers delta which := by
  have htitle : isMark (.comment which.title) := isMarker_of_mem_titles (mem_titles which)
  have hnote : isMark (.comment which.note) := isMarker_of_mem_notes (mem_notes which)
  unfold stage stageMarkers
  rw [← hidle]
  split <;> simp [marksOf, title, htitle, hnote, hlines, Line.text]

theorem marksOf_header : marksOf header = [] := by
  simp [marksOf, header, isMark_comment, openings]

/-- A traversal that writes something for each member is empty if there is no member. -/
theorem isEmpty_flatMap {α : Type} {parts : List α} {f : α → List Line} (h : ∀ part, f part ≠ []) :
    (parts.flatMap f).isEmpty = decide (parts = []) := by
  cases parts with
  | nil => rfl
  | cons first rest => simp [h first]

theorem isEmpty_viewChanges (delta : Delta) :
    (viewChanges delta).isEmpty = decide (delta.viewChanges = []) := by
  unfold viewChanges
  split <;> simp_all

section Stages

variable (delta : Delta)

theorem marksOf_newTables : marksOf (stage "STAGE 1: NEW TABLES" "No new tables found"
    (delta.created.flatMap newTable)) = stageMarkers delta .newTables := by
  refine marksOf_stage .newTables ?_ (isEmpty_flatMap fun table => ?_)
  · rw [List.filter_flatMap, List.flatMap_eq_nil_iff]
    exact fun table _ => filter_isMark_newTable table
  · unfold newTable
    split <;> exact List.cons_ne_nil _ _

theorem marksOf_droppableTables : marksOf (stage "STAGE 2: TABLES THAT CAN BE REMOVED"
    "No tables to remove found" (delta.dropped.flatMap droppableTable)) =
      stageMarkers delta .droppableTables := by
  refine marksOf_stage .droppableTables ?_ (isEmpty_flatMap fun key => List.cons_ne_nil _ _)
  rw [List.filter_flatMap, List.flatMap_eq_nil_iff]
  exact fun key _ => filter_isMark_droppableTable key

theorem marksOf_changedTables : marksOf (stage "STAGE 3: CHANGES TO EXISTING TABLES"
    "No changes to existing tables found" (delta.altered.flatMap tableChange)) =
      stageMarkers delta .changedTables := by
  refine marksOf_stage .changedTables ?_ (isEmpty_flatMap fun change =>
    List.append_ne_nil_of_right_ne_nil _ (List.cons_ne_nil _ _))
  rw [List.filter_flatMap, List.flatMap_eq_nil_iff]
  exact fun change _ => filter_isMark_tableChange change

theorem marksOf_views : marksOf (stage "STAGE 4: VIEW MANAGEMENT" "No view changes found"
    (viewChanges delta)) = stageMarkers delta .views :=
  marksOf_stage .views (filter_isMark_viewChanges delta) (isEmpty_viewChanges delta)

end Stages

/-- The lines of a summary, as the script shows them. -/
theorem map_text_summary (counts : Summary) : (summary counts).map Line.text =
    divider.text :: summaryTitle :: divider.text ::
      (countLines counts ++ [[], lastLine counts]) := by
  have hlast : (if counts.isSynchronized then synchronizedLine else reviewLine).text =
      lastLine counts := by
    unfold lastLine Summary.isSynchronized Summary.zero
    split <;> simp_all
  rw [← hlast]
  rfl

theorem isCount_of_mem_countLines {counts : Summary} {line : Text}
    (h : line ∈ countLines counts) : isCount line := by
  obtain ⟨⟨label, count⟩, hentry, rfl⟩ := List.mem_map.1 h
  refine isCount_iff.2 ⟨label, (List.of_mem_zip hentry).1, ofNat count, ?_, fun c hc => ?_⟩
  · rw [countLine, Line.text, Line.text, List.append_assoc]
  · by_contra hdigit
    exact not_mem_ofNat hdigit count hc

theorem lastLine_mem_endings (counts : Summary) : lastLine counts ∈ endings := by
  unfold lastLine endings
  split
  · exact List.mem_cons_self
  · exact List.mem_cons_of_mem _ List.mem_cons_self

theorem marksOf_summary (counts : Summary) :
    marksOf (summary counts) = summaryMarkers counts := by
  have hdivider : isMarker divider.text = false := isMark_divider
  have hblank : isMarker [] = false := isMark_blank
  have htitle := isMarker_of_mem_titles summaryTitle_mem_titles
  have hlast : isMarker (lastLine counts) :=
    isMarker_iff.2 (.inl (List.mem_append_right _ (lastLine_mem_endings counts)))
  have hcounts : (countLines counts).filter isMarker = countLines counts :=
    List.filter_eq_self.2 fun _ hline => isMarker_iff.2 (.inr (isCount_of_mem_countLines hline))
  rw [marksOf_eq, map_text_summary, List.filter_cons, List.filter_cons, List.filter_cons,
    List.filter_append, hcounts, List.filter_cons, List.filter_cons, hdivider, hblank, htitle,
    hlast]
  rfl

/-- The markers among the lines of a script are those that its delta calls for. -/
theorem marksOf_lines (delta : Delta) : marksOf (lines delta) = markers delta := by
  rw [lines, marksOf_append, marksOf_append, marksOf_append, marksOf_append, marksOf_append,
    marksOf_header, marksOf_newTables, marksOf_droppableTables, marksOf_changedTables,
    marksOf_views, marksOf_summary, markers, Stage.all]
  simp

/-! ## Titles and notes -/

/-- A title or note is no count and no last line. -/
theorem not_mem_summaryMarkers {line : Text} (h : line ∈ titles ++ notes) {counts : Summary} :
    line ∉ countLines counts ++ [lastLine counts] := by
  intro hmem
  rcases List.mem_append.1 hmem with hmem | hmem
  · exact (fixed_spec line (List.mem_append_left _ h)).1 (isCount_of_mem_countLines hmem)
  · obtain rfl := List.mem_singleton.1 hmem
    exact (List.nodup_append.1 nodup_fixed).2.2 _ h _ (lastLine_mem_endings counts) rfl

/-- A note is no title. -/
theorem not_mem_titles {line : Text} (h : line ∈ notes) : line ∉ titles := fun htitle =>
  (List.nodup_append.1 nodup_titles_notes).2.2 _ htitle _ h rfl

/-- The titles among the markers of a delta are all titles. -/
theorem filter_titles_markers (delta : Delta) : (markers delta).filter (· ∈ titles) = titles := by
  have hstage : ∀ stage : Stage,
      (stageMarkers delta stage).filter (· ∈ titles) = [(Line.comment stage.title).text] := by
    intro stage
    rw [stageMarkers, List.filter_cons, if_pos (by exact decide_eq_true (mem_titles stage))]
    split
    · rw [List.filter_cons, if_neg (by simpa using not_mem_titles (mem_notes stage)),
        List.filter_nil]
    · rw [List.filter_nil]
  have hrest : (countLines delta.summary ++ [lastLine delta.summary]).filter (· ∈ titles) = [] :=
    List.filter_eq_nil_iff.2 fun line hline htitle => not_mem_summaryMarkers
      (List.mem_append_left _ (of_decide_eq_true htitle)) hline
  rw [markers, List.filter_append, List.filter_flatMap,
    List.flatMap_congr fun stage _ => hstage stage, summaryMarkers, List.filter_cons,
    if_pos (by exact decide_eq_true summaryTitle_mem_titles), hrest]
  rfl

/-- The note of a stage is among the markers of a delta if there is nothing in the stage. -/
theorem note_mem_markers_iff {delta : Delta} {stage : Stage} :
    (Line.comment stage.note).text ∈ markers delta ↔ stage.idle delta := by
  have htitle := not_mem_titles (mem_notes stage)
  have hnodup := (List.nodup_append.1 nodup_titles_notes).2.1
  have hsummary : (Line.comment stage.note).text ∉ summaryMarkers delta.summary := by
    rw [summaryMarkers, List.mem_cons, not_or]
    exact ⟨fun heq => htitle (heq ▸ summaryTitle_mem_titles),
      not_mem_summaryMarkers (List.mem_append_right _ (mem_notes stage))⟩
  have hstage : ∀ other : Stage, (Line.comment stage.note).text ∈ stageMarkers delta other ↔
      stage = other ∧ other.idle delta := by
    intro other
    have hne : (Line.comment stage.note).text ≠ (Line.comment other.title).text := fun heq =>
      htitle (heq ▸ mem_titles other)
    have hnote : (Line.comment stage.note).text = (Line.comment other.note).text ↔ stage = other :=
      ⟨fun heq => List.inj_on_of_nodup_map hnodup stage.mem_all other.mem_all heq,
        fun heq => heq ▸ rfl⟩
    rw [stageMarkers, List.mem_cons, or_iff_right hne]
    split
    · next hidle => rw [List.mem_singleton, hnote, and_iff_left hidle]
    · next hidle => simp [hidle]
  rw [markers, List.mem_append, or_iff_left hsummary, List.mem_flatMap]
  constructor
  · rintro ⟨other, -, hmem⟩
    obtain ⟨rfl, hidle⟩ := (hstage other).1 hmem
    exact hidle
  · exact fun hidle => ⟨stage, stage.mem_all, (hstage stage).2 ⟨rfl, hidle⟩⟩

/-- The lines of a script as its delta shapes them: its markers are those that the delta calls
for, each title is there once and in order, a stage has its note just if there is nothing in it,
and below the title of the summary stand the counts and the last line, and nothing else. -/
structure Shaped (delta : Delta) (texts : List Text) : Prop where
  markers : texts.filter isMarker = markers delta
  titles : texts.filter (· ∈ titles) = titles
  notes : ∀ stage : Stage, (Line.comment stage.note).text ∈ texts ↔ stage.idle delta
  summary : ∃ front, summaryTitle ∉ front ∧
    texts = front ++ summaryTitle :: divider.text ::
      (countLines delta.summary ++ [[], lastLine delta.summary])

/-- A line that is a title stands at one place only. -/
theorem not_mem_front {front rest texts : List Text} {title : Text}
    (h : texts.filter (· ∈ titles) = titles) (htitle : title ∈ titles)
    (heq : texts = front ++ title :: rest) : title ∉ front := by
  have hnodup := (List.nodup_append.1 nodup_titles_notes).1
  rw [← h, heq, List.filter_append, List.filter_cons, if_pos (by exact decide_eq_true htitle),
    List.nodup_append] at hnodup
  intro hmem
  exact hnodup.2.2 title (List.mem_filter.2 ⟨hmem, decide_eq_true htitle⟩) title
    List.mem_cons_self rfl

/-- The script of a delta has the shape that the delta gives it. -/
theorem shaped_lines (delta : Delta) : Shaped delta ((lines delta).map Line.text) := by
  have hmarkers : ((lines delta).map Line.text).filter isMarker = markers delta := by
    rw [← marksOf_eq, marksOf_lines]
  have hmem : ∀ line, isMarker line →
      (line ∈ (lines delta).map Line.text ↔ line ∈ markers delta) := by
    intro line hline
    rw [← hmarkers, List.mem_filter, and_iff_left hline]
  have htitles : ((lines delta).map Line.text).filter (· ∈ titles) = titles := by
    have hsame : ∀ line ∈ (lines delta).map Line.text,
        decide (line ∈ titles) = (decide (line ∈ titles) && isMarker line) := by
      intro line _
      by_cases htitle : line ∈ titles
      · rw [isMarker_of_mem_titles htitle, Bool.and_true]
      · rw [decide_eq_false htitle, Bool.false_and]
    rw [List.filter_congr hsame, ← List.filter_filter, hmarkers, filter_titles_markers]
  obtain ⟨front, hfront⟩ : ∃ front, lines delta = front ++ summary delta.summary := ⟨_, rfl⟩
  have hcut : (lines delta).map Line.text = (front.map Line.text ++ [divider.text]) ++
      summaryTitle :: divider.text ::
        (countLines delta.summary ++ [[], lastLine delta.summary]) := by
    rw [hfront, List.map_append, map_text_summary, List.append_assoc, List.singleton_append]
  exact ⟨hmarkers, htitles,
    fun stage => (hmem _ (isMarker_of_mem_notes (mem_notes stage))).trans note_mem_markers_iff,
    _, not_mem_front htitles summaryTitle_mem_titles hcut, hcut⟩

end Script

end SchemaDelta
