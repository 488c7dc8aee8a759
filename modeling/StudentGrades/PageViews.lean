import StudentGrades.DocumentView
import StudentGrades.PageTokens

/-!
# The document of a rendered page

A page is seen as its options and the texts of its table cells between fixed
blocks. From the document the options are read back, and the cells up to blank
texts.
-/

namespace StudentGrades
open ByteText Markup

open Template (startTag)

def optionTag (o : Bytes × Bool) : Tag :=
  ⟨false, utf8 "option", (utf8 "value", o.1) :: if o.2 then [(utf8 "selected", [])] else []⟩

def optionView (o : Bytes × Bool) : List Token := element (optionTag o) o.1

def cellView (text : Bytes) : List Token := element ⟨false, utf8 "td", []⟩ text

def rowView (texts : List Bytes) : List Token :=
  startTag "tr" [] :: (texts.flatMap cellView ++ [Template.endTag "tr"])

def blockView (block : Bytes) : List Token := (view false (lineTokens block)).2

def tableView (rows : List (List Bytes)) : List Token :=
  if rows.isEmpty then blockView Template.emptyState
  else blockView Template.tableHead ++ rows.flatMap rowView ++ blockView Template.tableTail

def headView : List Token := (view false Template.headTokens).2

def pageView (options : List (Bytes × Bool)) (rows : List (List Bytes)) : List Token :=
  headView ++ ((blockView Template.selectHead ++ options.flatMap optionView ++
    blockView Template.selectTail) ++ (tableView rows ++ blockView Template.pageTail))

theorem delimited_optionView (name : Bytes) : Delimited optionView (closingTag name) where
  split x y r s h := by
    obtain ⟨ho, ht, hrs⟩ := element_append_inj h
    exact ⟨element_inj.2 ⟨ho, ht⟩, hrs⟩
  first x r s h := by simp [optionView, element, optionTag, closingTag] at h

theorem delimited_cellView (name : Bytes) : Delimited cellView (closingTag name) where
  split x y r s h := by
    obtain ⟨ho, ht, hrs⟩ := element_append_inj h
    exact ⟨element_inj.2 ⟨ho, ht⟩, hrs⟩
  first x r s h := by simp [cellView, element, closingTag] at h

theorem rowView_append (texts : List Bytes) (r : List Token) :
    rowView texts ++ r = startTag "tr" [] :: (texts.flatMap cellView ++ closingTag (utf8 "tr") :: r) := by
  simp [rowView, Template.endTag, closingTag]

theorem rowView_append_inj {x y : List Bytes} {r s : List Token}
    (h : rowView x ++ r = rowView y ++ s) : x.map cellView = y.map cellView ∧ r = s := by
  rw [rowView_append, rowView_append] at h
  exact (delimited_cellView (utf8 "tr")).flatMap_inj (List.cons.inj h).2

theorem rowView_inj {x y : List Bytes} :
    rowView x = rowView y ↔ x.map cellView = y.map cellView := by
  constructor
  · intro h
    exact (rowView_append_inj (congrArg (· ++ []) h)).1
  · intro h
    rw [rowView, rowView, List.flatMap_def, List.flatMap_def, h]

theorem delimited_rowView (name : Bytes) : Delimited rowView (closingTag name) where
  split x y r s h := by
    obtain ⟨hcells, hrs⟩ := rowView_append_inj h
    exact ⟨rowView_inj.2 hcells, hrs⟩
  first x r s h := by simp [rowView, startTag, closingTag] at h

theorem fixed_heads :
    (∃ more, blockView Template.selectTail = closingTag (utf8 "select") :: more) ∧
      (∃ more, blockView Template.tableTail = closingTag (utf8 "tbody") :: more) ∧
      (∃ more, blockView Template.emptyState =
        startTag "div" [(utf8 "class", utf8 "empty-state")] :: more) ∧
      ∃ more, blockView Template.tableHead = startTag "table" [] :: more :=
  ⟨⟨_, rfl⟩, ⟨_, rfl⟩, ⟨_, rfl⟩, ⟨_, rfl⟩⟩

theorem tableView_append_inj {x y : List (List Bytes)} {r : List Token}
    (h : tableView x ++ r = tableView y ++ r) : x.map rowView = y.map rowView := by
  obtain ⟨-, ⟨tail, htail⟩, ⟨empty, hempty⟩, ⟨head, hhead⟩⟩ := fixed_heads
  cases x with
  | nil =>
    cases y with
    | nil => rfl
    | cons y ys => simp [tableView, hempty, hhead, startTag] at h
  | cons x xs =>
    cases y with
    | nil => simp [tableView, hempty, hhead, startTag] at h
    | cons y ys =>
      simp only [tableView, List.isEmpty_cons, Bool.false_eq_true, ↓reduceIte, List.append_assoc,
        htail, List.cons_append] at h
      exact ((delimited_rowView (utf8 "tbody")).flatMap_inj (List.append_cancel_left h)).1

theorem optionView_inj {o p : Bytes × Bool} : optionView o = optionView p ↔ o = p := by
  rw [optionView, optionView, element_inj]
  constructor
  · intro h
    obtain ⟨c, s⟩ := o
    obtain ⟨d, t⟩ := p
    have hattrs := congrArg Tag.attrs h.1
    cases s <;> cases t <;> simp_all [optionTag]
  · intro h
    rw [h]
    exact ⟨rfl, rfl⟩

theorem cellView_inj {x y : Bytes} : cellView x = cellView y ↔ shownText x = shownText y := by
  rw [cellView, cellView, element_inj]
  exact and_iff_right rfl

theorem map_cellView_inj {x y : List Bytes} :
    x.map cellView = y.map cellView ↔ x.map shownText = y.map shownText :=
  map_eq_map_iff fun _ _ => cellView_inj

theorem map_rowView_inj {x y : List (List Bytes)} :
    x.map rowView = y.map rowView ↔ x.map (List.map shownText) = y.map (List.map shownText) :=
  map_eq_map_iff fun _ _ => rowView_inj.trans map_cellView_inj

theorem pageView_inj {options options' : List (Bytes × Bool)} {rows rows' : List (List Bytes)} :
    pageView options rows = pageView options' rows' ↔
      options = options' ∧ rows.map (List.map shownText) = rows'.map (List.map shownText) := by
  obtain ⟨⟨select, hselect⟩, -, -, -⟩ := fixed_heads
  rw [← map_rowView_inj]
  constructor
  · intro h
    have hrest := List.append_cancel_left h
    simp only [hselect, List.append_assoc, List.cons_append] at hrest
    obtain ⟨hoptions, htable⟩ :=
      (delimited_optionView (utf8 "select")).flatMap_inj (List.append_cancel_left hrest)
    have hinj : Function.Injective optionView := fun _ _ => optionView_inj.1
    exact ⟨hinj.list_map hoptions, tableView_append_inj (List.append_cancel_left htable)⟩
  · intro ⟨hoptions, hrows⟩
    have hempty : rows.isEmpty = rows'.isEmpty := by
      cases rows <;> cases rows' <;> simp_all
    simp only [pageView, tableView, List.flatMap_def, hoptions, hrows, hempty]

theorem view_style (sheet : Bytes) :
    view true [.text (newline :: (sheet ++ utf8 "  ")), Template.endTag "style"] =
      (false, [Template.endTag "style"]) := rfl

theorem view_headOpen : (view false (scan (.text []) Template.headOpen).2).1 = true := rfl

theorem view_head {close : Bytes} {seen : List Token} (sheet : Bytes) (h : Reads close seen) :
    view false ((scan (.text []) Template.headOpen).2 ++
      ([.text (newline :: (sheet ++ utf8 "  ")), Template.endTag "style"] ++ lineTokens close)) =
      (false, (view false (scan (.text []) Template.headOpen).2).2 ++
        ([Template.endTag "style"] ++ seen)) :=
  view_append (Prod.ext view_headOpen rfl) (view_append (view_style sheet) h.viewed)

namespace Template

theorem decodeRefs_escapeHtml (text : Bytes) : decodeRefs (escapeHtml text) = text := by
  apply decodeRefs_flatMap
  intro b rest
  rw [escapeByte]
  split_ifs with hamp hlt hgt hquot hapos
  · subst hamp; rfl
  · subst hlt; rfl
  · subst hgt; rfl
  · subst hquot; rfl
  · subst hapos; rfl
  · exact decodeRefs_other hamp rest

set_option maxRecDepth 8000 in
theorem reads_fixed :
    Reads headClose (blockView headClose) ∧ Reads selectHead (blockView selectHead) ∧
      Reads selectTail (blockView selectTail) ∧ Reads tableHead (blockView tableHead) ∧
      Reads tableTail (blockView tableTail) ∧ Reads emptyState (blockView emptyState) ∧
      Reads pageTail (blockView pageTail) :=
  ⟨⟨rfl, rfl⟩, ⟨rfl, rfl⟩, ⟨rfl, rfl⟩, ⟨rfl, rfl⟩, ⟨rfl, rfl⟩, ⟨rfl, rfl⟩, ⟨rfl, rfl⟩⟩

theorem view_optionTokens (selected : Bool) (c : Bytes) :
    view false (optionTokens selected c) = (false, optionView (c, selected)) := by
  have hblank : viewText (utf8 "\n    ") = [] := by decide
  have hc : viewText (escapeHtml c) = shownText c := by rw [viewText, decodeRefs_escapeHtml]
  have hnone : decodeRefs [] = [] := rfl
  have htag : viewTag ⟨false, utf8 "option",
      (utf8 "value", escapeHtml c) :: if selected then [(utf8 "selected", [])] else []⟩ =
        .tag (optionTag (c, selected)) := by
    cases selected <;> simp [viewTag, optionTag, decodeRefs_escapeHtml, hnone]
  have hv : view false (optionTokens selected c) = (false, viewText (utf8 "\n    ") ++
      (viewTag ⟨false, utf8 "option",
        (utf8 "value", escapeHtml c) :: if selected then [(utf8 "selected", [])] else []⟩ ::
          (viewText (escapeHtml c) ++ [endTag "option"]))) := by
    cases selected <;> rfl
  rw [hv, hblank, hc, htag]
  rfl

theorem reads_renderOption (sel c : Bytes) :
    Reads (renderOption sel c) (optionView (c, decide (c = sel))) :=
  reads_of_scan (scan_renderOption sel c) (view_optionTokens _ c)

theorem view_cellTokens (text : Bytes) :
    view false (cellTokens text) = (false, cellView text) := by
  have hc : viewText (escapeHtml text) = shownText text := by rw [viewText, decodeRefs_escapeHtml]
  have hv : view false (cellTokens text) = (false, viewText (utf8 "\n      ") ++
      (startTag "td" [] :: (viewText (escapeHtml text) ++ [endTag "td"]))) := rfl
  have hblank : viewText (utf8 "\n      ") = [] := by decide
  rw [hv, hc, hblank]
  rfl

theorem reads_renderRow (row : PivotRow) : Reads (renderRow row) (rowView (rowTexts row)) := by
  apply reads_of_scan (scan_renderRow row)
  have hopen : view false [.text (utf8 "\n    "), startTag "tr" []] = (false, [startTag "tr" []]) :=
    rfl
  have hclose : view false [.text (utf8 "\n    "), endTag "tr"] = (false, [endTag "tr"]) := rfl
  exact view_append hopen
    (view_append (Transducer.run_flatMap view_cellTokens (rowTexts row)) hclose)

theorem reads_renderTable (rows : List PivotRow) :
    Reads (renderTable rows) (tableView (rows.map rowTexts)) := by
  obtain ⟨-, -, -, hhead, htail, hempty, -⟩ := reads_fixed
  rw [renderTable, tableView, List.isEmpty_map, List.flatMap_map]
  split_ifs
  · exact hempty
  · exact (hhead.append (.flatMap reads_renderRow rows)).append htail

theorem view_headTokens : view false headTokens = (false, headView) := by
  have hv := view_head styleSheet reads_fixed.1
  rw [headView, headTokens, styleTokens, hv]

theorem document_renderPage (classes : List Bytes) (rows : List PivotRow) (sel : Bytes) :
    document (renderPage classes rows sel) =
      pageView (classes.map fun c => (c, decide (c = sel))) (rows.map rowTexts) := by
  obtain ⟨-, hhead, htail, -, -, -, hend⟩ := reads_fixed
  have hselect : Reads (renderClassSelect classes sel) (blockView selectHead ++
      (classes.map fun c => (c, decide (c = sel))).flatMap optionView ++ blockView selectTail) := by
    rw [List.flatMap_map]
    exact (hhead.append (.flatMap (reads_renderOption sel) classes)).append htail
  rw [renderPage, List.append_assoc, List.append_assoc]
  exact document_append scan_pageHead view_headTokens
    (hselect.append ((reads_renderTable rows).append hend))

end Template

end StudentGrades
