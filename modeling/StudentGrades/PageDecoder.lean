import StudentGrades.PageTokens

/-!
# Reading a page back

The decoder sees only the bytes of a page. Options are the `option` start tags
with their unescaped value and their `selected` flag; table rows are the data
cells between a row's start and end tag. Decoding a rendered page returns the
classes and rows it was rendered from, and the skeleton of the page depends only
on their numbers and flags.
-/

namespace StudentGrades
open ByteText Markup

namespace Template

structure ShownRow where
  studentName : Bytes
  className : Bytes
  cells : List Bytes
deriving DecidableEq

structure DecodedPage where
  options : List (Bytes × Bool)
  rows : List ShownRow

def optionOf : Token → Option (Bytes × Bool)
  | .tag t =>
    if t.closing = false ∧ t.name = utf8 "option" then
      some (unescapeHtml ((t.attrs.lookup (utf8 "value")).getD []),
        (t.attrs.lookup (utf8 "selected")).isSome)
    else none
  | _ => none

def optionsOf (ts : List Token) : List (Bytes × Bool) := ts.filterMap optionOf

/-- Position in the table: outside a row, between cells, inside a cell. -/
inductive RowScan
  | outside
  | row (cells : List Bytes)
  | cell (cells : List Bytes) (text : Bytes)
deriving DecidableEq

def shownRow : List Bytes → List ShownRow
  | name :: cls :: cells => [⟨name, cls, cells⟩]
  | _ => []

def RowScan.step : RowScan → Token → RowScan × List ShownRow
  | .outside, .tag t => (if t.closing = false ∧ t.name = utf8 "tr" then .row [] else .outside, [])
  | .row cells, .tag t =>
    if t.closing = false ∧ t.name = utf8 "td" then (.cell cells [], [])
    else if t.closing = true ∧ t.name = utf8 "tr" then (.outside, shownRow cells)
    else (.row cells, [])
  | .cell cells text, .tag t =>
    if t.closing = true ∧ t.name = utf8 "td" then (.row (cells ++ [unescapeHtml text]), [])
    else (.cell cells text, [])
  | .cell cells text, .text more => (.cell cells (text ++ more), [])
  | s, _ => (s, [])

def rowsOf (ts : List Token) : List ShownRow := (Transducer.run RowScan.step .outside ts).2

/-- The decoder of page text; the first option is the fixed one. -/
def decodePage (page : Bytes) : DecodedPage :=
  ⟨(optionsOf (tokens page)).drop 1, rowsOf (tokens page)⟩

def isTable : Token → Bool
  | .tag t => t.name == utf8 "table"
  | _ => false

def isEmptyState : Token → Bool
  | .tag t => t.attrs.lookup (utf8 "class") == some (utf8 "empty-state")
  | _ => false

def showsTable (page : Bytes) : Bool := (tokens page).any isTable

def showsEmptyState (page : Bytes) : Bool := (tokens page).any isEmptyState

structure Seen where
  options : List (Bytes × Bool)
  rows : List ShownRow
  table : Bool
  emptyState : Bool

def Seen.nothing : Seen := ⟨[], [], false, false⟩

def Seen.append (s t : Seen) : Seen :=
  ⟨s.options ++ t.options, s.rows ++ t.rows, s.table || t.table, s.emptyState || t.emptyState⟩

/-- Read outside of every table row, the block shows `s` and ends outside of every row. -/
structure Shows (ts : List Token) (s : Seen) : Prop where
  options : optionsOf ts = s.options
  rows : Transducer.run RowScan.step .outside ts = (.outside, s.rows)
  table : ts.any isTable = s.table
  emptyState : ts.any isEmptyState = s.emptyState

theorem shows_iff (ts : List Token) (s : Seen) :
    Shows ts s ↔ optionsOf ts = s.options ∧
      Transducer.run RowScan.step .outside ts = (.outside, s.rows) ∧
      ts.any isTable = s.table ∧ ts.any isEmptyState = s.emptyState :=
  ⟨fun h => ⟨h.options, h.rows, h.table, h.emptyState⟩, fun ⟨ho, hr, ht, he⟩ => ⟨ho, hr, ht, he⟩⟩

instance (ts : List Token) (s : Seen) : Decidable (Shows ts s) :=
  decidable_of_iff' _ (shows_iff ts s)

theorem Shows.append {ts us : List Token} {s t : Seen} (hs : Shows ts s) (ht : Shows us t) :
    Shows (ts ++ us) (s.append t) where
  options := by rw [optionsOf, List.filterMap_append]; exact congrArg₂ _ hs.options ht.options
  rows := Transducer.run_append_of hs.rows ht.rows
  table := by rw [List.any_append, hs.table, ht.table]; rfl
  emptyState := by rw [List.any_append, hs.emptyState, ht.emptyState]; rfl

theorem shows_fixed :
    Shows (scan (.text []) headOpen).2 .nothing ∧ Shows (lineTokens headClose) .nothing ∧
      Shows (lineTokens selectHead) ⟨[([], false)], [], false, false⟩ ∧
      Shows (lineTokens selectTail) .nothing ∧
      Shows (lineTokens tableHead) ⟨[], [], true, false⟩ ∧
      Shows (lineTokens tableTail) ⟨[], [], true, false⟩ ∧
      Shows (lineTokens emptyState) ⟨[], [], false, true⟩ ∧
      Shows (lineTokens pageTail) .nothing := by decide +kernel

theorem shows_headTokens : Shows headTokens .nothing := by
  have hstyle : Shows styleTokens .nothing := ⟨rfl, rfl, rfl, rfl⟩
  exact shows_fixed.1.append (hstyle.append shows_fixed.2.1)

theorem shows_optionTokens (selected : Bool) (c : Bytes) :
    Shows (optionTokens selected c) ⟨[(c, selected)], [], false, false⟩ := by
  have h : optionsOf (optionTokens selected c) = [(unescapeHtml (escapeHtml c), selected)] := by
    cases selected <;> rfl
  rw [unescapeHtml_escapeHtml] at h
  exact ⟨h, rfl, by cases selected <;> rfl, by cases selected <;> rfl⟩

theorem shows_options (sel : Bytes) (classes : List Bytes) :
    Shows (classes.flatMap fun c => optionTokens (decide (c = sel)) c)
      ⟨classes.map fun c => (c, decide (c = sel)), [], false, false⟩ := by
  induction classes with
  | nil => exact ⟨rfl, rfl, rfl, rfl⟩
  | cons c cs ih => exact (shows_optionTokens (decide (c = sel)) c).append ih

theorem shows_selectTokens (sel : Bytes) (classes : List Bytes) :
    Shows (selectTokens sel classes)
      ⟨([], false) :: classes.map fun c => (c, decide (c = sel)), [], false, false⟩ := by
  obtain ⟨-, -, hhead, htail, -⟩ := shows_fixed
  have h := (hhead.append (shows_options sel classes)).append htail
  simpa [selectTokens, Seen.append, Seen.nothing] using h

theorem run_cellTokens (cells : List Bytes) (text : Bytes) :
    Transducer.run RowScan.step (.row cells) (cellTokens text) = (.row (cells ++ [text]), []) := by
  have h : Transducer.run RowScan.step (.row cells) (cellTokens text) =
      (.row (cells ++ [unescapeHtml (escapeHtml text)]), []) := rfl
  rw [h, unescapeHtml_escapeHtml]

theorem run_cells (texts cells : List Bytes) :
    Transducer.run RowScan.step (.row cells) (texts.flatMap cellTokens) =
      (.row (cells ++ texts), []) := by
  induction texts generalizing cells with
  | nil => simp
  | cons t ts ih =>
    rw [List.flatMap_cons]
    have h := Transducer.run_append_of (run_cellTokens cells t) (ih (cells ++ [t]))
    simpa using h

def shown (row : PivotRow) : ShownRow :=
  ⟨row.studentName, row.className, kSubjects.map (formatScore row.scores)⟩

theorem shows_rowTokens (row : PivotRow) : Shows (rowTokens row) ⟨[], [shown row], false, false⟩ := by
  have hopen : Transducer.run RowScan.step .outside [.text (utf8 "\n    "), startTag "tr" []] =
      (.row [], []) := rfl
  have hend : Transducer.run RowScan.step (.row (rowTexts row)) [.text (utf8 "\n    "), endTag "tr"] =
      (.outside, [shown row]) := rfl
  have hrun := Transducer.run_append_of hopen
    (Transducer.run_append_of (run_cells (rowTexts row) []) hend)
  exact ⟨rfl, hrun, rfl, rfl⟩

theorem shows_rows (rows : List PivotRow) :
    Shows (rows.flatMap rowTokens) ⟨[], rows.map shown, false, false⟩ := by
  induction rows with
  | nil => exact ⟨rfl, rfl, rfl, rfl⟩
  | cons row rows ih => exact (shows_rowTokens row).append ih

theorem shows_tableTokens (rows : List PivotRow) :
    Shows (tableTokens rows) ⟨[], rows.map shown, !rows.isEmpty, rows.isEmpty⟩ := by
  obtain ⟨-, -, -, -, hhead, htail, hempty, -⟩ := shows_fixed
  cases rows with
  | nil => exact hempty
  | cons row rows =>
    have h := (hhead.append (shows_rows (row :: rows))).append htail
    simpa [tableTokens, Seen.append] using h

theorem shows_page (classes : List Bytes) (rows : List PivotRow) (sel : Bytes) :
    Shows (tokens (renderPage classes rows sel))
      ⟨([], false) :: classes.map fun c => (c, decide (c = sel)), rows.map shown,
        !rows.isEmpty, rows.isEmpty⟩ := by
  obtain ⟨-, -, -, -, -, -, -, htail⟩ := shows_fixed
  have h := shows_headTokens.append
    ((shows_selectTokens sel classes).append ((shows_tableTokens rows).append htail))
  rw [tokens_renderPage]
  simpa [Seen.append, Seen.nothing] using h

theorem decodePage_renderPage (classes : List Bytes) (rows : List PivotRow) (sel : Bytes) :
    decodePage (renderPage classes rows sel) =
      ⟨classes.map fun c => (c, decide (c = sel)), rows.map shown⟩ := by
  have h := shows_page classes rows sel
  rw [decodePage, rowsOf, h.options, h.rows]
  rfl

theorem shows_renderPage (classes : List Bytes) (rows : List PivotRow) (sel : Bytes) :
    showsTable (renderPage classes rows sel) = !rows.isEmpty ∧
      showsEmptyState (renderPage classes rows sel) = rows.isEmpty :=
  ⟨(shows_page classes rows sel).table, (shows_page classes rows sel).emptyState⟩

theorem skeletonOf_optionTokens (selected : Bool) (c : Bytes) :
    skeletonOf (optionTokens selected c) = skeletonOf (optionTokens selected []) := by
  cases selected <;> rfl

theorem skeletonOf_rowTokens (row row' : PivotRow) :
    skeletonOf (rowTokens row) = skeletonOf (rowTokens row') := rfl

theorem skeletonOf_selectTokens {classes classes' : List Bytes} {sel sel' : Bytes}
    (h : classes.map (fun c => decide (c = sel)) = classes'.map fun c => decide (c = sel')) :
    skeletonOf (selectTokens sel classes) = skeletonOf (selectTokens sel' classes') := by
  have hopts (cs : List Bytes) (s : Bytes) :
      skeletonOf (cs.flatMap fun c => optionTokens (decide (c = s)) c) =
        (cs.map fun c => decide (c = s)).flatMap fun b => skeletonOf (optionTokens b []) := by
    rw [skeletonOf_flatMap, List.flatMap_map]
    simp only [skeletonOf_optionTokens]
  simp only [selectTokens, skeletonOf_append, hopts, h]

theorem skeletonOf_rows (rows rows' : List PivotRow) (h : rows.length = rows'.length) :
    skeletonOf (rows.flatMap rowTokens) = skeletonOf (rows'.flatMap rowTokens) := by
  induction rows generalizing rows' with
  | nil => rw [List.length_eq_zero_iff.1 h.symm]
  | cons row rows ih =>
    cases rows' with
    | nil => cases h
    | cons row' rows' =>
      rw [List.flatMap_cons, List.flatMap_cons, skeletonOf_append, skeletonOf_append,
        skeletonOf_rowTokens row row', ih rows' (Nat.succ.inj h)]

theorem skeletonOf_tableTokens {rows rows' : List PivotRow} (h : rows.length = rows'.length) :
    skeletonOf (tableTokens rows) = skeletonOf (tableTokens rows') := by
  have hempty : rows.isEmpty = rows'.isEmpty := by
    rw [Bool.eq_iff_iff, List.isEmpty_iff_length_eq_zero, List.isEmpty_iff_length_eq_zero, h]
  rw [tableTokens, tableTokens, hempty]
  split_ifs
  · rfl
  · simp only [skeletonOf_append, skeletonOf_rows rows rows' h]

def SameShape (classes classes' : List Bytes) (rows rows' : List PivotRow) (sel sel' : Bytes) :
    Prop :=
  classes.map (fun c => decide (c = sel)) = classes'.map (fun c => decide (c = sel')) ∧
    rows.length = rows'.length

theorem skeleton_renderPage {classes classes' : List Bytes} {rows rows' : List PivotRow}
    {sel sel' : Bytes} (h : SameShape classes classes' rows rows' sel sel') :
    skeleton (renderPage classes rows sel) = skeleton (renderPage classes' rows' sel') := by
  simp only [skeleton, tokens_renderPage, skeletonOf_append, skeletonOf_selectTokens h.1,
    skeletonOf_tableTokens h.2]

/-- One decoder returns what every page was rendered from, and markup shape is independent
of the texts. -/
theorem page_roundTrip :
    ∃ decode : Bytes → DecodedPage,
      ∀ (classes : List Bytes) (rows : List PivotRow) (selectedClass : Bytes),
        let page := renderPage classes rows selectedClass
        decode page = ⟨classes.map fun c => (c, decide (c = selectedClass)), rows.map shown⟩ ∧
          ((decode page).rows = [] ↔ showsEmptyState page ∧ ¬ showsTable page) ∧
          ∀ (classes' : List Bytes) (rows' : List PivotRow) (selectedClass' : Bytes),
            SameShape classes classes' rows rows' selectedClass selectedClass' →
              skeleton page = skeleton (renderPage classes' rows' selectedClass') := by
  refine ⟨decodePage, fun classes rows sel => ?_⟩
  have hdecode := decodePage_renderPage classes rows sel
  obtain ⟨htable, hempty⟩ := shows_renderPage classes rows sel
  refine ⟨hdecode, ?_, fun _ _ _ h => skeleton_renderPage h⟩
  rw [hdecode, htable, hempty]
  cases rows <;> simp

end Template
end StudentGrades
