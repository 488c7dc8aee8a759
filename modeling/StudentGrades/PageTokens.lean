import StudentGrades.HtmlEscape

/-!
# The tokens of a rendered page

Every block the renderer emits is made of whole lines, so its tokens do not
depend on what stands before it. The fixed blocks are tokenized once; an option,
a cell and a row give their tokens with the escaped data as one text or value.
-/

namespace StudentGrades
open ByteText Markup

namespace Template

def startTag (name : String) (attrs : List (Bytes × Bytes)) : Token := .tag ⟨false, utf8 name, attrs⟩

def endTag (name : String) : Token := .tag ⟨true, utf8 name, []⟩

def fixedBlocks : List Bytes :=
  [headOpen, headClose, selectHead, selectTail, tableHead, tableTail, emptyState, pageTail]

theorem fixed_lines : ∀ b ∈ fixedBlocks, WholeLines b ∧ NulFree b := by decide +kernel

theorem wholeLines_selectHead : WholeLines selectHead :=
  (fixed_lines _ (by simp [fixedBlocks])).1

theorem wholeLines_tableHead : WholeLines tableHead :=
  (fixed_lines _ (by simp [fixedBlocks])).1

set_option maxRecDepth 8000 in
theorem styleSheet_plain : NulFree styleSheet ∧ lt ∉ styleSheet := by
  have hplain {ss : List String} (h : ∀ s ∈ ss, 0 ∉ utf8 s ∧ lt ∉ utf8 s) :
      NulFree (withBraces (ss.flatMap utf8)) ∧ lt ∉ withBraces (ss.flatMap utf8) := by
    constructor <;> refine not_mem_withBraces (by decide) fun hb => ?_
    · obtain ⟨s, hs, hm⟩ := List.mem_flatMap.1 hb
      exact (h s hs).1 hm
    · obtain ⟨s, hs, hm⟩ := List.mem_flatMap.1 hb
      exact (h s hs).2 hm
  apply hplain
  repeat' refine List.forall_mem_cons.2 ⟨⟨not_mem_utf8 (by decide) (by decide +kernel),
    not_mem_utf8 (by decide) (by decide +kernel)⟩, ?_⟩
  exact List.forall_mem_nil _

def styleTokens : List Token :=
  [.text (newline :: (styleSheet ++ utf8 "  ")), endTag "style"]

theorem scan_styleEnd (acc : Bytes) :
    scan (.text acc) (utf8 "  </style>\n") =
      (.text [newline], [.text ((utf8 "  ").reverse ++ acc).reverse, endTag "style"]) := rfl

theorem scan_style :
    scan (.text [newline]) (styleSheet ++ utf8 "  </style>\n") = (.text [newline], styleTokens) := by
  have h := Transducer.run_append_of (scan_text styleSheet_plain.2 [newline])
    (scan_styleEnd (styleSheet.reverse ++ [newline]))
  simpa [styleTokens, scan] using h

theorem scan_headOpen :
    (scan (.text []) headOpen).1 = .text [newline] := by decide +kernel

def headTokens : List Token :=
  (scan (.text []) headOpen).2 ++ (styleTokens ++ lineTokens headClose)

theorem scan_pageHead : scan (.text []) pageHead = (.text [newline], headTokens) := by
  have hopen : scan (.text []) headOpen = (.text [newline], (scan (.text []) headOpen).2) :=
    Prod.ext scan_headOpen rfl
  have hclose : WholeLines headClose := (fixed_lines _ (by simp [fixedBlocks])).1
  have hrest := Transducer.run_append_of scan_style hclose.scan_eq
  have h := Transducer.run_append_of hopen hrest
  simpa [pageHead, scan, headTokens] using h

def optionTokens (selected : Bool) (c : Bytes) : List Token :=
  [.text (utf8 "\n    "),
    startTag "option" ((utf8 "value", escapeHtml c) :: if selected then [(utf8 "selected", [])] else []),
    .text (escapeHtml c), endTag "option"]

theorem scan_optionFlag (opened : Tag) (selected : Bool) :
    scan (.beforeAttr opened) ((if selected then utf8 " selected" else []) ++ utf8 ">") =
      (.text [], [.tag (if selected then opened.add (utf8 "selected") [] else opened)]) := by
  cases selected <;> rfl

theorem scan_renderOption (sel c : Bytes) :
    scan (.text [newline]) (renderOption sel c) =
      (.text [newline], optionTokens (decide (c = sel)) c) := by
  let opened : Tag := ⟨false, utf8 "option", []⟩
  have hopen : scan (.text [newline]) (utf8 "    <option value=\"") =
      (.quoted opened (utf8 "value") dquote [], [.text (utf8 "\n    ")]) := rfl
  have hvalue := scan_quoted (dquote_not_mem_escapeHtml c) opened (utf8 "value") []
  have hclose (acc : Bytes) : scan (.quoted opened (utf8 "value") dquote acc) (utf8 "\"") =
      (.beforeAttr (opened.add (utf8 "value") acc.reverse), []) := rfl
  have hflag (t : Tag) := scan_optionFlag t (decide (c = sel))
  have htext := scan_text (lt_not_mem_escapeHtml c) []
  have hend (acc : Bytes) : scan (.text acc) (utf8 "</option>\n") =
      (.text [newline], [.text acc.reverse, endTag "option"]) := rfl
  have h := Transducer.run_append_of hopen (Transducer.run_append_of hvalue
    (Transducer.run_append_of (hclose _) (Transducer.run_append_of (hflag _)
      (Transducer.run_append_of htext (hend _)))))
  simp only [List.append_assoc, List.append_nil, List.reverse_reverse, List.nil_append,
    decide_eq_true_eq] at h
  rw [renderOption]
  simp only [List.append_assoc]
  refine h.trans (Prod.ext rfl ?_)
  by_cases hsel : c = sel <;> simp [optionTokens, startTag, hsel, opened, Tag.add]

theorem wholeLines_renderOption (sel c : Bytes) : WholeLines (renderOption sel c) :=
  (wholeLines_of_scan (scan_renderOption sel c)).1

def selectTokens (sel : Bytes) (classes : List Bytes) : List Token :=
  lineTokens selectHead ++ (classes.flatMap fun c => optionTokens (decide (c = sel)) c) ++
    lineTokens selectTail

theorem wholeLines_renderClassSelect (classes : List Bytes) (sel : Bytes) :
    WholeLines (renderClassSelect classes sel) := by
  have htail : WholeLines selectTail := (fixed_lines _ (by simp [fixedBlocks])).1
  exact (wholeLines_selectHead.append (.flatMap (wholeLines_renderOption sel) classes)).append htail

theorem lineTokens_renderClassSelect (classes : List Bytes) (sel : Bytes) :
    lineTokens (renderClassSelect classes sel) = selectTokens sel classes := by
  have hopt (c : Bytes) := (wholeLines_of_scan (scan_renderOption sel c)).2
  rw [renderClassSelect, lineTokens_append
    (wholeLines_selectHead.append (.flatMap (wholeLines_renderOption sel) classes)),
    lineTokens_append wholeLines_selectHead, lineTokens_flatMap (wholeLines_renderOption sel)]
  simp only [hopt, selectTokens]

def cellTokens (text : Bytes) : List Token :=
  [.text (utf8 "\n      "), startTag "td" [], .text (escapeHtml text), endTag "td"]

theorem scan_renderCell (text : Bytes) :
    scan (.text [newline]) (renderCell text) = (.text [newline], cellTokens text) := by
  have hopen : scan (.text [newline]) (utf8 "      <td>") =
      (.text [], [.text (utf8 "\n      "), startTag "td" []]) := rfl
  have htext := scan_text (lt_not_mem_escapeHtml text) []
  have hend (acc : Bytes) : scan (.text acc) (utf8 "</td>\n") =
      (.text [newline], [.text acc.reverse, endTag "td"]) := rfl
  have h := Transducer.run_append_of hopen (Transducer.run_append_of htext (hend _))
  simpa [renderCell, cellTokens, scan] using h

def rowTexts (row : PivotRow) : List Bytes :=
  row.studentName :: row.className :: kSubjects.map (formatScore row.scores)

theorem renderRow_eq (row : PivotRow) :
    renderRow row =
      utf8 "    <tr>\n" ++ ((rowTexts row).flatMap renderCell ++ utf8 "    </tr>\n") := by
  simp [renderRow, rowTexts, List.flatMap_map]

def rowTokens (row : PivotRow) : List Token :=
  [.text (utf8 "\n    "), startTag "tr" []] ++
    ((rowTexts row).flatMap cellTokens ++ [.text (utf8 "\n    "), endTag "tr"])

theorem scan_renderRow (row : PivotRow) :
    scan (.text [newline]) (renderRow row) = (.text [newline], rowTokens row) := by
  have hopen : scan (.text [newline]) (utf8 "    <tr>\n") =
      (.text [newline], [.text (utf8 "\n    "), startTag "tr" []]) := rfl
  have hcells := Transducer.run_flatMap scan_renderCell (rowTexts row)
  have hend : scan (.text [newline]) (utf8 "    </tr>\n") =
      (.text [newline], [.text (utf8 "\n    "), endTag "tr"]) := rfl
  rw [renderRow_eq]
  exact Transducer.run_append_of hopen (Transducer.run_append_of hcells hend)

theorem wholeLines_renderRow (row : PivotRow) : WholeLines (renderRow row) :=
  (wholeLines_of_scan (scan_renderRow row)).1

theorem lineTokens_renderRow (row : PivotRow) : lineTokens (renderRow row) = rowTokens row :=
  (wholeLines_of_scan (scan_renderRow row)).2

def tableTokens (rows : List PivotRow) : List Token :=
  if rows.isEmpty then lineTokens emptyState
  else lineTokens tableHead ++ rows.flatMap rowTokens ++ lineTokens tableTail

theorem wholeLines_renderTable (rows : List PivotRow) : WholeLines (renderTable rows) := by
  rw [renderTable]
  split_ifs
  · exact (fixed_lines _ (by simp [fixedBlocks])).1
  · have htail : WholeLines tableTail := (fixed_lines _ (by simp [fixedBlocks])).1
    exact (wholeLines_tableHead.append (.flatMap wholeLines_renderRow rows)).append htail

theorem lineTokens_renderTable (rows : List PivotRow) :
    lineTokens (renderTable rows) = tableTokens rows := by
  rw [renderTable, tableTokens]
  split_ifs
  · rfl
  · rw [lineTokens_append (wholeLines_tableHead.append (.flatMap wholeLines_renderRow rows)),
      lineTokens_append wholeLines_tableHead, lineTokens_flatMap wholeLines_renderRow]
    simp only [lineTokens_renderRow]

theorem tokens_renderPage (classes : List Bytes) (rows : List PivotRow) (sel : Bytes) :
    tokens (renderPage classes rows sel) =
      headTokens ++ (selectTokens sel classes ++ (tableTokens rows ++ lineTokens pageTail)) := by
  rw [tokens, renderPage, List.append_assoc, List.append_assoc, scan_append_lines scan_pageHead,
    lineTokens_append (wholeLines_renderClassSelect classes sel), lineTokens_renderClassSelect,
    lineTokens_append (wholeLines_renderTable rows), lineTokens_renderTable]

end Template
end StudentGrades
