import StudentGrades.PageViews
import StudentGrades.PhpMarkup

/-!
# The document of the page the program replaces

Its markup is the same tags and texts in a different layout, so it is seen as its
options and cells between the same fixed blocks. A text that is not UTF-8 is seen
as an empty one.
-/

namespace StudentGrades
open ByteText Markup

open Template (startTag)

namespace IndexPhp

/-- What a browser sees of an escaped text. -/
def seen (text : Bytes) : Bytes := if validUtf8 text then text else []

theorem specialChar_plain (b : UInt8) :
    (specialChar b).all fun x => x != 60 && x != 34 := by
  rw [specialChar]
  split_ifs with hamp hlt hgt hquot hapos
  · decide
  · decide
  · decide
  · decide
  · decide
  · simp [hlt, hquot]

theorem htmlspecialchars_plain {text : Bytes} {x : UInt8} (h : x ∈ htmlspecialchars text) :
    x ≠ 60 ∧ x ≠ 34 := by
  rw [htmlspecialchars] at h
  split_ifs at h
  · obtain ⟨b, -, hb⟩ := List.mem_flatMap.1 h
    simpa using List.all_eq_true.1 (specialChar_plain b) x hb
  · cases h

theorem lt_not_mem_htmlspecialchars (text : Bytes) : lt ∉ htmlspecialchars text :=
  fun h => (htmlspecialchars_plain h).1 rfl

theorem dquote_not_mem_htmlspecialchars (text : Bytes) : dquote ∉ htmlspecialchars text :=
  fun h => (htmlspecialchars_plain h).2 rfl

theorem decodeRefs_htmlspecialchars (text : Bytes) :
    decodeRefs (htmlspecialchars text) = seen text := by
  rw [htmlspecialchars, seen]
  split_ifs
  · apply decodeRefs_flatMap
    intro b rest
    rw [specialChar]
    split_ifs with hamp hlt hgt hquot hapos
    · subst hamp; rfl
    · subst hlt; rfl
    · subst hgt; rfl
    · subst hquot; rfl
    · subst hapos; rfl
    · exact decodeRefs_other hamp rest
  · rfl

theorem viewText_htmlspecialchars (text : Bytes) :
    viewText (htmlspecialchars text) = shownText (seen text) := by
  rw [viewText, decodeRefs_htmlspecialchars]

theorem scan_renderOption (o : Bytes × Bool) :
    scan (.text [newline]) (renderOption o) = (.text [newline], [.text (utf8 "\n      "),
      startTag "option" ((utf8 "value", htmlspecialchars o.1) ::
        if o.2 then [(utf8 "selected", [])] else []),
      .text (htmlspecialchars o.1), Template.endTag "option"]) := by
  let opened : Tag := ⟨false, utf8 "option", []⟩
  have hopen : scan (.text [newline]) (utf8 "      <option value=\"") =
      (.quoted opened (utf8 "value") dquote [], [.text (utf8 "\n      ")]) := rfl
  have hvalue := scan_quoted (dquote_not_mem_htmlspecialchars o.1) opened (utf8 "value") []
  have hclose (acc : Bytes) : scan (.quoted opened (utf8 "value") dquote acc) (utf8 "\"") =
      (.beforeAttr (opened.add (utf8 "value") acc.reverse), []) := rfl
  have hflag (t : Tag) := Template.scan_optionFlag t o.2
  have htext := scan_text (lt_not_mem_htmlspecialchars o.1) []
  have hend (acc : Bytes) : scan (.text acc) (utf8 "</option>\n") =
      (.text [newline], [.text acc.reverse, Template.endTag "option"]) := rfl
  have h := Transducer.run_append_of hopen (Transducer.run_append_of hvalue
    (Transducer.run_append_of (hclose _) (Transducer.run_append_of (hflag _)
      (Transducer.run_append_of htext (hend _)))))
  simp only [List.append_assoc, List.append_nil, List.reverse_reverse, List.nil_append] at h
  rw [renderOption]
  simp only [List.append_assoc]
  refine h.trans (Prod.ext rfl ?_)
  cases o.2 <;> simp [startTag, opened, Tag.add]

theorem reads_renderOption (o : Bytes × Bool) :
    Reads (renderOption o) (optionView (seen o.1, o.2)) := by
  apply reads_of_scan (scan_renderOption o)
  have hblank : viewText (utf8 "\n      ") = [] := by decide
  have hnone : decodeRefs [] = [] := rfl
  have htag : viewTag ⟨false, utf8 "option",
      (utf8 "value", htmlspecialchars o.1) :: if o.2 then [(utf8 "selected", [])] else []⟩ =
        .tag (optionTag (seen o.1, o.2)) := by
    cases o.2 <;> simp [viewTag, optionTag, decodeRefs_htmlspecialchars, hnone]
  rw [optionView, element, ← htag, ← viewText_htmlspecialchars]
  cases o.2 <;> rfl

theorem reads_renderCell (text : Bytes) : Reads (renderCell text) (cellView (seen text)) := by
  have hopen : scan (.text [newline]) (utf8 "        <td>") =
      (.text [], [.text (utf8 "\n        "), startTag "td" []]) := rfl
  have htext := scan_text (lt_not_mem_htmlspecialchars text) []
  have hend (acc : Bytes) : scan (.text acc) (utf8 "</td>\n") =
      (.text [newline], [.text acc.reverse, Template.endTag "td"]) := rfl
  have h := Transducer.run_append_of hopen (Transducer.run_append_of htext (hend _))
  rw [← List.append_assoc] at h
  apply reads_of_scan h
  rw [cellView, element, ← viewText_htmlspecialchars]
  simp only [List.append_nil, List.reverse_reverse]
  rfl

theorem mapM_of_map_some {α β : Type*} {f : α → Option β} {l : List α} {ys : List β}
    (h : l.map f = ys.map some) : l.mapM f = some ys := by
  induction l generalizing ys with
  | nil =>
    cases ys with
    | nil => rfl
    | cons y ys => simp at h
  | cons a l ih =>
    cases ys with
    | nil => simp at h
    | cons y ys =>
      simp only [List.map_cons, List.cons.injEq] at h
      rw [List.mapM_cons, h.1, ih h.2]
      rfl

/-- The texts of a row, `none` where a name or a class is null. -/
def rowTexts (row : AssocRow) : Option (List Bytes) := do
  let name ← row.column (utf8 "name")
  let className ← row.column (utf8 "class")
  return name :: className :: subjects.map fun s => formatScore (row.column s)

def rowLines (texts : List Bytes) : Bytes :=
  utf8 "      <tr>\n" ++ texts.flatMap renderCell ++ utf8 "      </tr>\n"

theorem renderRow_eq (row : AssocRow) : renderRow row = (rowTexts row).map rowLines := by
  simp only [renderRow, rowTexts]
  cases row.column (utf8 "name") with
  | none => rfl
  | some name =>
    cases row.column (utf8 "class") with
    | none => rfl
    | some className => simp [rowLines, List.flatMap_map]

theorem reads_rowLines (texts : List Bytes) :
    Reads (rowLines texts) (rowView (texts.map seen)) := by
  have hopen : Reads (utf8 "      <tr>\n") [startTag "tr" []] := ⟨rfl, rfl⟩
  have hclose : Reads (utf8 "      </tr>\n") [Template.endTag "tr"] := ⟨rfl, rfl⟩
  have h := (hopen.append (.flatMap reads_renderCell texts)).append hclose
  rw [rowView, List.flatMap_map]
  simpa [rowLines] using h

set_option maxRecDepth 8000 in
theorem reads_fixed :
    Reads headClose (blockView Template.headClose) ∧
      Reads selectHead (blockView Template.selectHead) ∧
      Reads selectTail (blockView Template.selectTail) ∧
      Reads (newline :: tableHead) (blockView Template.tableHead) ∧
      Reads tableTail (blockView Template.tableTail) ∧
      Reads (newline :: emptyState) (blockView Template.emptyState) ∧
      Reads pageTail (blockView Template.pageTail) := by
  exact ⟨⟨rfl, rfl⟩, ⟨rfl, rfl⟩, ⟨rfl, rfl⟩, ⟨rfl, rfl⟩, ⟨rfl, rfl⟩, ⟨rfl, rfl⟩, ⟨rfl, rfl⟩⟩

theorem mapM_renderRow {rows : List AssocRow} {cells : List (List Bytes)}
    (h : rows.map rowTexts = cells.map some) : rows.mapM renderRow = some (cells.map rowLines) := by
  apply mapM_of_map_some
  have hlines : rows.map renderRow = (rows.map rowTexts).map (Option.map rowLines) := by
    rw [List.map_map]
    exact List.map_congr_left fun row _ => renderRow_eq row
  rw [hlines, h, List.map_map, List.map_map]
  rfl

theorem reads_renderTable {rows : List AssocRow} {cells : List (List Bytes)}
    (h : rows.map rowTexts = cells.map some) :
    ∃ table, renderTable rows = some table ∧
      Reads (newline :: table) (tableView (cells.map (List.map seen))) := by
  obtain ⟨-, -, -, hhead, htail, hempty, -⟩ := reads_fixed
  have hlen : rows.isEmpty = cells.isEmpty := by
    cases rows <;> cases cells <;> simp at h ⊢
  have hread := (hhead.append (.flatMap reads_rowLines cells)).append htail
  by_cases hnil : cells.isEmpty = true
  · refine ⟨emptyState, by simp only [renderTable, hlen, hnil, ↓reduceIte], ?_⟩
    simpa only [tableView, List.isEmpty_map, hnil, ↓reduceIte] using hempty
  · refine ⟨tableHead ++ cells.flatMap rowLines ++ tableTail, ?_, ?_⟩
    · simp only [renderTable, hlen, hnil, ↓reduceIte, mapM_renderRow h, Bool.false_eq_true]
      rfl
    · simp only [tableView, List.isEmpty_map, hnil, ↓reduceIte, List.flatMap_map,
        Bool.false_eq_true]
      exact hread

set_option maxRecDepth 8000 in
theorem lt_not_mem_styleSheet : lt ∉ styleSheet := by
  apply not_mem_withBraces (by decide)
  apply Spelled.not_mem
  · repeat' constructor
  · decide
  · decide

theorem scan_pageHead : ∃ ts, scan (.text []) pageHead = (.text [newline], ts) ∧
    view false ts = (false, headView) := by
  have hopen : scan (.text []) headOpen = (.text [newline], (scan (.text []) Template.headOpen).2) :=
    Prod.ext Template.scan_headOpen rfl
  have hstyle : scan (.text [newline]) (styleSheet ++ utf8 "  </style>\n") = (.text [newline],
      [.text (newline :: (styleSheet ++ utf8 "  ")), Template.endTag "style"]) := by
    have h := Transducer.run_append_of (scan_text lt_not_mem_styleSheet [newline])
      (Template.scan_styleEnd (styleSheet.reverse ++ [newline]))
    simpa [scan] using h
  have hclose := reads_fixed.1
  have h := Transducer.run_append_of hopen (Transducer.run_append_of hstyle hclose.lines.scan_eq)
  have htemplate := view_head Template.styleSheet Template.reads_fixed.1
  have hview := view_head styleSheet hclose
  rw [← htemplate] at hview
  exact ⟨_, by simpa only [scan, pageHead, List.append_assoc] using h, hview⟩

theorem document_render {page : Page} {cells : List (List Bytes)}
    (h : page.rows.map rowTexts = cells.map some) :
    ∃ html, render page = some html ∧
      document html = pageView (page.options.map fun o => (seen o.1, o.2))
        (cells.map (List.map seen)) := by
  obtain ⟨table, htable, hread⟩ := reads_renderTable h
  obtain ⟨ts, hscan, hview⟩ := scan_pageHead
  obtain ⟨-, hhead, htail, -, -, -, hend⟩ := reads_fixed
  have hselect := (hhead.append (.flatMap reads_renderOption page.options)).append htail
  have hpage := document_append hscan hview (hselect.append (hread.append hend))
  refine ⟨_, by rw [render, htable]; rfl, ?_⟩
  rw [pageView, List.flatMap_map, ← hpage, List.append_assoc, List.append_assoc]
  rfl

end IndexPhp

end StudentGrades
