import StudentGrades.PageDecoder
import StudentGrades.Service

/-!
# Requests and responses of the two entries

`handleIndex` queries the classes and the rows and renders the page. The first
entry sets the page as the body of its response; the second prints it with `%s`
after its header, which ends at the first NUL byte. Pages rendered from a result
without NUL bytes contain none, so both entries deliver the whole page.
-/

namespace StudentGrades
open ByteText Template

namespace Handler

def handleIndex (g_conn : Option Exec) (classFilter : Bytes) : Bytes :=
  renderPage (Service.getClasses g_conn) (Service.getStudentScores g_conn classFilter) classFilter

end Handler

open Handler

def contentType : Bytes := utf8 "text/html; charset=UTF-8"

inductive Response
  | http (status : ℕ) (contentType body : Bytes)
  | fastcgi (output : Bytes)
deriving DecidableEq

namespace MainA

/-- The handler leaves the status unset, which the server sends as 200 for a
request that names no byte range. -/
def respond (g_conn : Option Exec) (classFilter : Bytes) : Response :=
  .http 200 contentType (handleIndex g_conn classFilter)

end MainA

namespace MainD

def header : Bytes := utf8 "Content-Type: text/html; charset=UTF-8\r\n" ++ utf8 "\r\n"

def respond (g_conn : Option Exec) (classFilter : Bytes) : Response :=
  .fastcgi (header ++ cstr (handleIndex g_conn classFilter))

end MainD

inductive Entry | A | D
deriving DecidableEq

def Entry.respond : Entry → Option Exec → Bytes → Response
  | .A => MainA.respond
  | .D => MainD.respond

def Response.document : Response → Bytes
  | .http _ _ body => body
  | .fastcgi output => output.drop MainD.header.length

theorem nulFree_escapeHtml {text : Bytes} (h : NulFree text) : NulFree (escapeHtml text) := by
  apply nulFree_flatMap.2
  intro b hb
  have hb0 : b ≠ 0 := fun h0 => h (h0 ▸ hb)
  rw [escapeByte]
  split_ifs
  · decide
  · decide
  · decide
  · decide
  · decide
  · simpa [NulFree] using hb0.symm

theorem nulFree_trimZeros {b : Bytes} (h : NulFree b) : NulFree (trimZeros b) := by
  apply h.mono
  intro x hx
  simpa using (List.dropWhile_sublist _).subset (List.mem_reverse.1 hx)

theorem nulFree_withFraction {whole frac : Bytes} (hw : NulFree whole) (hf : NulFree frac) :
    NulFree (withFraction whole frac) := by
  rw [withFraction]
  split_ifs
  · exact hw
  · exact nulFree_append.2 ⟨hw, nulFree_cons.2 ⟨by decide, nulFree_trimZeros hf⟩⟩

theorem nulFree_exponentText (e : ℤ) : NulFree (exponentText e) := by
  have hsign : (if e < 0 then minus else 43) ≠ 0 := by split_ifs <;> decide
  have hpad : NulFree (if e.natAbs < 10 then utf8 "0" else []) := by split_ifs <;> decide
  exact nulFree_cons.2 ⟨hsign, nulFree_append.2 ⟨hpad, nulFree_natText _⟩⟩

theorem nulFree_positiveText (a : ℚ) : NulFree (positiveText a) := by
  have hd : NulFree (natText (sixDigits a).1) := nulFree_natText _
  have htake (n : ℕ) : NulFree ((natText (sixDigits a).1).take n) :=
    hd.mono (List.take_subset n _)
  have hdrop (n : ℕ) : NulFree ((natText (sixDigits a).1).drop n) :=
    hd.mono (List.drop_subset n _)
  simp only [positiveText]
  split_ifs
  · have he : NulFree (101 :: exponentText (sixDigits a).2) :=
      nulFree_cons.2 ⟨by decide, nulFree_exponentText _⟩
    exact nulFree_append.2 ⟨nulFree_withFraction (htake 1) (hdrop 1), he⟩
  · exact nulFree_withFraction (htake _) (hdrop _)
  · have hz (n : ℕ) : NulFree (List.replicate n 48) := by simp [NulFree, List.mem_replicate]
    exact nulFree_withFraction (by decide) (nulFree_append.2 ⟨hz _, hd⟩)

theorem nulFree_doubleText (v : ℚ) : NulFree (doubleText v) := by
  rw [doubleText]
  split_ifs
  · decide
  · exact nulFree_cons.2 ⟨by decide, nulFree_positiveText (-v)⟩
  · exact nulFree_positiveText v

theorem nulFree_formatScore (scores : Finmap fun _ : Bytes => ℚ) (subject : Bytes) :
    NulFree (formatScore scores subject) := by
  rw [formatScore]
  cases scores.lookup subject with
  | none => decide
  | some v =>
    dsimp only
    split_ifs
    · exact nulFree_intText _
    · exact nulFree_doubleText v

theorem nulFree_renderOption (sel : Bytes) {c : Bytes} (h : NulFree c) :
    NulFree (renderOption sel c) := by
  have hc := nulFree_escapeHtml h
  have hflag : NulFree (if c = sel then utf8 " selected" else []) := by
    split_ifs <;> decide
  simp only [renderOption, nulFree_append, hc, hflag]
  decide

theorem nulFree_renderCell {text : Bytes} (h : NulFree text) : NulFree (renderCell text) := by
  simp only [renderCell, nulFree_append, nulFree_escapeHtml h]
  decide

def NulFreeRow (row : PivotRow) : Prop := NulFree row.studentName ∧ NulFree row.className

theorem nulFree_renderRow {row : PivotRow} (h : NulFreeRow row) : NulFree (renderRow row) := by
  have hscores : NulFree (kSubjects.flatMap fun s => renderCell (formatScore row.scores s)) :=
    nulFree_flatMap.2 fun s _ => nulFree_renderCell (nulFree_formatScore _ _)
  simp only [renderRow, nulFree_append, nulFree_renderCell h.1, nulFree_renderCell h.2, hscores]
  decide

theorem nulFree_fixed :
    NulFree headOpen ∧ NulFree headClose ∧ NulFree selectHead ∧ NulFree selectTail ∧
      NulFree tableHead ∧ NulFree tableTail ∧ NulFree emptyState ∧ NulFree pageTail := by
  have h (b : Bytes) (hb : b ∈ fixedBlocks) : NulFree b := (fixed_lines b hb).2
  simpa [fixedBlocks] using h

theorem nulFree_renderTable {rows : List PivotRow} (h : ∀ row ∈ rows, NulFreeRow row) :
    NulFree (renderTable rows) := by
  have hrows : NulFree (rows.flatMap renderRow) :=
    nulFree_flatMap.2 fun row hr => nulFree_renderRow (h row hr)
  obtain ⟨-, -, -, -, hhead, htail, hempty, -⟩ := nulFree_fixed
  rw [renderTable]
  split_ifs
  · exact hempty
  · exact nulFree_append.2 ⟨nulFree_append.2 ⟨hhead, hrows⟩, htail⟩

theorem nulFree_renderPage {classes : List Bytes} {rows : List PivotRow} (sel : Bytes)
    (hc : ∀ c ∈ classes, NulFree c) (hr : ∀ row ∈ rows, NulFreeRow row) :
    NulFree (renderPage classes rows sel) := by
  have hoptions : NulFree (classes.flatMap (renderOption sel)) :=
    nulFree_flatMap.2 fun c hm => nulFree_renderOption sel (hc c hm)
  obtain ⟨hopen, hclose, hselect, hselectTail, -, -, -, htail⟩ := nulFree_fixed
  have hstyle : NulFree (utf8 "  </style>\n") := by decide
  simp only [renderPage, pageHead, renderClassSelect, nulFree_append, styleSheet_plain.1, hoptions,
    nulFree_renderTable hr, hopen, hstyle, hclose, hselect, hselectTail, htail, and_self]

theorem nulFree_getString (res : Option PGresult) (row col : ℕ) :
    NulFree (Dao.getString res row col) := by
  rw [Dao.getString]
  cases cell res row col with
  | none => decide
  | some v => exact cstr_nulFree v

theorem nulFree_getClasses {g_conn : Option Exec} {c : Bytes} (h : c ∈ Service.getClasses g_conn) :
    NulFree c := by
  cases g_conn with
  | none => cases h
  | some exec =>
    simp only [Service.getClasses, Dao.queryClasses, Dao.classesOf] at h
    split_ifs at h
    · cases h
    · obtain ⟨i, -, rfl⟩ := List.mem_map.1 h
      exact nulFree_getString _ _ _

theorem nulFree_getStudentScores {g_conn : Option Exec} {f : Bytes} {row : PivotRow}
    (h : row ∈ Service.getStudentScores g_conn f) : NulFreeRow row := by
  cases g_conn with
  | none => cases h
  | some exec =>
    simp only [Service.getStudentScores, Dao.queryPivot, Dao.pivotRowsOf] at h
    split_ifs at h
    · cases h
    · obtain ⟨i, -, rfl⟩ := List.mem_map.1 h
      exact ⟨nulFree_getString _ _ _, nulFree_getString _ _ _⟩

theorem nulFree_handleIndex (g_conn : Option Exec) (f : Bytes) : NulFree (handleIndex g_conn f) :=
  nulFree_renderPage f (fun _ => nulFree_getClasses) fun _ => nulFree_getStudentScores

theorem document_respond (entry : Entry) (g_conn : Option Exec) (f : Bytes) :
    (entry.respond g_conn f).document = handleIndex g_conn f := by
  cases entry with
  | A => rfl
  | D =>
    simp [Entry.respond, MainD.respond, Response.document, cstr_eq_self (nulFree_handleIndex g_conn f)]

theorem handleIndex_inj {g g' : Option Exec} {f : Bytes} (h : handleIndex g f = handleIndex g' f) :
    Service.getClasses g = Service.getClasses g' ∧
      (Service.getStudentScores g f).map shown = (Service.getStudentScores g' f).map shown := by
  have hd := congrArg decodePage h
  simp only [handleIndex, decodePage_renderPage, DecodedPage.mk.injEq] at hd
  have hc := congrArg (List.map Prod.fst) hd.1
  simp only [List.map_map, Function.comp_def, List.map_id'] at hc
  exact ⟨hc, hd.2⟩

theorem respond_eq_iff (entry : Entry) {g g' : Option Exec} {f f' : Bytes} :
    entry.respond g f = entry.respond g' f' ↔ handleIndex g f = handleIndex g' f' := by
  constructor
  · intro h
    rw [← document_respond entry, ← document_respond entry, h]
  · intro h
    cases entry <;> simp [Entry.respond, MainA.respond, MainD.respond, h]

end StudentGrades
