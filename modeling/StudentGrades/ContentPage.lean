import StudentGrades.PageAgreement

/-!
# The page as a view of the content

What the page says about a content is its classes and, for every student that the
filter shows, the name, the class and the best score in each subject. Where no two
of these students agree in class and name, the page is a function of this view,
whatever plans the server chooses, and the view is read back from the page.
-/

namespace StudentGrades
open ByteText Sql Dao

open Template (ShownRow decodePage decodePage_renderPage shown)

variable {db db' : Tables} {col : Collation}

def pageRow (db : Tables) (s : Student) : ShownRow :=
  ⟨s.name.bytes, s.className.bytes, kSubjects.map fun k => programCell (bestScore db s k)⟩

theorem shown_rowOf (s : Student) : shown (rowOf db s) = pageRow db s := by
  have hcells : kSubjects.map (Template.formatScore (rowOf db s).scores) =
      kSubjects.map fun k => programCell (bestScore db s k) :=
    List.map_congr_left fun k hk => formatScore_rowOf s hk
  rw [pageRow, ← hcells]
  rfl

theorem decodePage_handleIndex (session : Session col db) (f : Bytes) :
    ∃ ss : List Student, ss.Perm (shownStudents db f) ∧ ss.Pairwise (ClassNameOrder col) ∧
      decodePage (Handler.handleIndex (some session.exec) f) =
        ⟨(queryClasses (some session.exec)).map fun c => (c, decide (c = f)),
          ss.map (pageRow db)⟩ := by
  obtain ⟨ss, hperm, hsorted, hrows⟩ := queryPivot_rows session f
  refine ⟨ss, hperm, hsorted.imp classNameOrder_of_lexLe, ?_⟩
  rw [Handler.handleIndex, decodePage_renderPage, Service.getClasses, Service.getStudentScores, hrows,
    List.map_map]
  simp only [Function.comp_def, shown_rowOf]

theorem rowTexts_eq_of_shown {row row' : PivotRow} (h : shown row = shown row') :
    Template.rowTexts row = Template.rowTexts row' := by
  simp only [shown, ShownRow.mk.injEq] at h
  obtain ⟨hname, hclass, hcells⟩ := h
  exact congrArg₂ List.cons hname (congrArg₂ List.cons hclass hcells)

theorem renderRow_eq_of_shown {rows rows' : List PivotRow}
    (h : rows.map shown = rows'.map shown) :
    rows.map Template.renderRow = rows'.map Template.renderRow := by
  induction rows generalizing rows' with
  | nil => cases rows' with
    | nil => rfl
    | cons row' rows' => simp at h
  | cons row rows ih =>
    cases rows' with
    | nil => simp at h
    | cons row' rows' =>
      rw [List.map_cons, List.map_cons, List.cons.injEq] at h
      rw [List.map_cons, List.map_cons, ih h.2, Template.renderRow_eq, Template.renderRow_eq row',
        rowTexts_eq_of_shown h.1]

theorem renderPage_eq_of_shown {rows rows' : List PivotRow} (h : rows.map shown = rows'.map shown)
    (classes : List Bytes) (f : Bytes) :
    Template.renderPage classes rows f = Template.renderPage classes rows' f := by
  have hrows := renderRow_eq_of_shown h
  have hempty : rows.isEmpty = rows'.isEmpty := by
    cases rows <;> cases rows' <;> simp at h ⊢
  rw [Template.renderPage, Template.renderPage, Template.renderTable, Template.renderTable, hempty,
    List.flatMap_def, List.flatMap_def, hrows]

structure Sheet where
  studentName : Bytes
  className : Bytes
  marks : List (Option Numeric52)
deriving DecidableEq

@[ext]
structure Gradebook where
  classes : Finset Bytes
  sheets : Multiset Sheet

def bestMark (db : Tables) (s : Student) (k : Bytes) : Option Numeric52 :=
  (bestScore db s k).bind fun h => if fits : h.natAbs ≤ 99999 then some ⟨h, fits⟩ else none

def sheet (db : Tables) (s : Student) : Sheet :=
  ⟨s.name.bytes, s.className.bytes, kSubjects.map (bestMark db s)⟩

def gradebook (db : Tables) (f : Bytes) : Gradebook :=
  ⟨(classNames db).toFinset, (shownStudents db f).map (sheet db)⟩

theorem hundredths_bestMark (s : Student) (k : Bytes) :
    (bestMark db s k).map Numeric52.hundredths = bestScore db s k := by
  rw [bestMark]
  cases hbest : bestScore db s k with
  | none => rfl
  | some h =>
    obtain ⟨hmem, -⟩ := List.max?_eq_some_iff.1 hbest
    obtain ⟨-, -, -, -, x, -, rfl⟩ := Tables.mem_subjectScores.1 hmem
    simp [x.fits]

def markCell (m : Option Numeric52) : Bytes := programCell (m.map Numeric52.hundredths)

theorem markCell_injective : Function.Injective markCell := by
  intro m m' h
  cases m with
  | none =>
    cases m' with
    | none => rfl
    | some x =>
      have hx : (Template.scoreNumeral x).text = utf8 "-" :=
        (Template.scoreNumeral_text x).trans h.symm
      exact absurd hx (Template.numeral_ne_placeholder _)
  | some x =>
    cases m' with
    | none =>
      have hx : (Template.scoreNumeral x).text = utf8 "-" := (Template.scoreNumeral_text x).trans h
      exact absurd hx (Template.numeral_ne_placeholder _)
    | some y =>
      have htext : (Template.scoreNumeral x).text = (Template.scoreNumeral y).text := by
        rw [Template.scoreNumeral_text, Template.scoreNumeral_text]
        exact h
      have hvalue := Numeral.value_eq_of_text htext
      rw [Template.scoreNumeral_value, Template.scoreNumeral_value, Numeric52.value, Numeric52.value,
        div_left_inj' (by norm_num)] at hvalue
      have hxy : x.hundredths = y.hundredths := by exact_mod_cast hvalue
      obtain ⟨h, hfits⟩ := x
      obtain ⟨h', hfits'⟩ := y
      simp_all

def Sheet.row (sh : Sheet) : ShownRow := ⟨sh.studentName, sh.className, sh.marks.map markCell⟩

theorem row_injective : Function.Injective Sheet.row := by
  intro sh sh' h
  obtain ⟨n, c, ms⟩ := sh
  obtain ⟨n', c', ms'⟩ := sh'
  simp only [Sheet.row, ShownRow.mk.injEq] at h
  obtain ⟨rfl, rfl, hmarks⟩ := h
  rw [markCell_injective.list_map hmarks]

theorem row_sheet (s : Student) : (sheet db s).row = pageRow db s := by
  simp only [Sheet.row, sheet, pageRow, List.map_map]
  refine congrArg (ShownRow.mk _ _) (List.map_congr_left fun k _ => ?_)
  rw [Function.comp_apply, markCell, hundredths_bestMark]

theorem sheets_eq_iff {f f' : Bytes} :
    (gradebook db f).sheets = (gradebook db' f').sheets ↔
      ((shownStudents db f).map (pageRow db)).Perm ((shownStudents db' f').map (pageRow db')) := by
  have hrows (db : Tables) (ss : List Student) :
      ss.map (pageRow db) = (ss.map (sheet db)).map Sheet.row := by
    rw [List.map_map]
    exact List.map_congr_left fun s _ => (row_sheet s).symm
  rw [hrows db, hrows db', List.map_perm_map_iff row_injective]
  exact Multiset.coe_eq_coe

def rowKey (row : ShownRow) : Bytes × Bytes := (row.className, row.studentName)

def Distinct (db : Tables) (f : Bytes) : Prop := ((shownStudents db f).map classAndName).Nodup

instance (db : Tables) (f : Bytes) : Decidable (Distinct db f) :=
  inferInstanceAs (Decidable (List.Nodup _))

theorem rows_unique {f : Bytes} {ss ts : List Student} (hd : Distinct db f)
    (hs : ss.Perm (shownStudents db f)) (hsorted : ss.Pairwise (ClassNameOrder col))
    (htsorted : ts.Pairwise (ClassNameOrder col))
    (hrows : (ss.map (pageRow db)).Perm (ts.map (pageRow db'))) :
    ss.map (pageRow db) = ts.map (pageRow db') := by
  have hkeys : ((ss.map (pageRow db)).map rowKey).Nodup := by
    rw [List.map_map]
    exact (hs.map classAndName).nodup_iff.2 hd
  have hsrows : (ss.map (pageRow db)).Pairwise
      (SortedBlocks.KeyOrder (fun a b => col.le a b) rowKey) := List.pairwise_map.2 hsorted
  have htrows : (ts.map (pageRow db')).Pairwise
      (SortedBlocks.KeyOrder (fun a b => col.le a b) rowKey) := List.pairwise_map.2 htsorted
  exact (SortedBlocks.eq_of_keyOrder col.antisymm hrows.symm hkeys htrows hsrows).symm

theorem queryClasses_eq_iff (session : Session col db) (session' : Session col db') :
    queryClasses (some session.exec) = queryClasses (some session'.exec) ↔
      (classNames db).toFinset = (classNames db').toFinset := by
  have hiff : (classNames db).toFinset = (classNames db').toFinset ↔
      (classNames db).Perm (classNames db') :=
    (List.toFinset_eq_iff_perm_dedup).trans (by simp [classNames])
  obtain ⟨hp, ho⟩ := queryClasses_rows session
  obtain ⟨hp', ho'⟩ := queryClasses_rows session'
  rw [hiff]
  constructor
  · intro h
    exact hp.symm.trans (h ▸ hp')
  · intro h
    exact ((hp.trans h).trans hp'.symm).eq_of_pairwise (fun a b _ _ => col.antisymm a b) ho ho'

theorem handleIndex_eq_iff_gradebook (session : Session col db) (session' : Session col db')
    {f : Bytes} (hd : Distinct db f) :
    Handler.handleIndex (some session.exec) f = Handler.handleIndex (some session'.exec) f ↔
      gradebook db f = gradebook db' f := by
  have hgradebook : gradebook db f = gradebook db' f ↔
      (classNames db).toFinset = (classNames db').toFinset ∧
        (gradebook db f).sheets = (gradebook db' f).sheets := by
    exact Gradebook.ext_iff
  rw [hgradebook, sheets_eq_iff, ← queryClasses_eq_iff session session']
  obtain ⟨ss, hs, hsorted, hrows⟩ := queryPivot_rows session f
  obtain ⟨ts, ht, htsorted, hrows'⟩ := queryPivot_rows session' f
  have hshown (db : Tables) (ss : List Student) :
      (ss.map (rowOf db)).map shown = ss.map (pageRow db) := by
    rw [List.map_map]
    exact List.map_congr_left fun s _ => shown_rowOf s
  constructor
  · intro h
    obtain ⟨hclasses, hpage⟩ := handleIndex_inj h
    simp only [Service.getClasses, Service.getStudentScores, hrows, hrows', hshown] at hclasses hpage
    refine ⟨hclasses, ?_⟩
    exact ((hs.map (pageRow db)).symm.trans (.of_eq hpage)).trans (ht.map (pageRow db'))
  · intro h
    obtain ⟨hclasses, hperm⟩ := h
    have hpage := rows_unique hd hs (hsorted.imp classNameOrder_of_lexLe)
      (htsorted.imp classNameOrder_of_lexLe)
      (((hs.map (pageRow db)).trans hperm).trans (ht.map (pageRow db')).symm)
    rw [Handler.handleIndex, Handler.handleIndex, Service.getClasses, Service.getClasses, hclasses,
      Service.getStudentScores, Service.getStudentScores, hrows, hrows']
    exact renderPage_eq_of_shown (by rw [hshown, hshown, hpage]) _ f

/-- Two contents give the same response exactly when they have the same gradebook:
the server's plans, the ids and the order of the rows in the tables are not seen. -/
theorem respond_eq_iff_gradebook (entry : Entry) (session : Session col db)
    (session' : Session col db') {f : Bytes} (hd : Distinct db f) :
    entry.respond (some session.exec) f = entry.respond (some session'.exec) f ↔
      gradebook db f = gradebook db' f :=
  (respond_eq_iff entry).trans (handleIndex_eq_iff_gradebook session session' hd)

def renumberedTables : Tables where
  students := (sampleTables.students.map fun s => { s with id := s.id + 4 }).reverse
  scores := (sampleTables.scores.drop 1).map fun sc => { sc with studentId := sc.studentId + 4 }
  primaryKey := by decide
  foreignKey := by decide

theorem respond_eq_iff_gradebook_sample :
    Distinct sampleTables [] ∧
      Entry.A.respond (some (Session.sorting .bytewise sampleTables).exec) [] =
        Entry.A.respond (some (Session.sorting .bytewise renumberedTables).exec) [] := by
  have hd : Distinct sampleTables [] := by decide
  exact ⟨hd, (respond_eq_iff_gradebook .A _ _ hd).2 (Gradebook.ext (by decide) (by decide))⟩

end StudentGrades
