import StudentGrades.PivotRows

/-!
# What the pivot query returns

The decoding loop reads the columns at the positions the assembling loop gave
them. Every answer of the server therefore becomes one row for each shown
student, with the maximum of its non-NULL scores under each of the four
subjects.
-/

namespace StudentGrades
open ByteText Sql Dao

theorem cell_ofRows {rows : List (List Value)} {r : ℕ} (h : r < rows.length) (c : ℕ) :
    cell (some (.ofRows rows)) r c = (rows[r][c]?).bind Value.output := by
  simp only [cell, PGresult.ofRows, Option.bind_some, List.getElem?_map,
    List.getElem?_eq_getElem h, Option.map_some]
  cases rows[r][c]? <;> rfl

theorem getString_ofRows {rows : List (List Value)} {r c : ℕ} (h : r < rows.length) {b : Bytes}
    (hc : (rows[r][c]?).bind Value.output = some b) (hb : NulFree b) :
    Dao.getString (some (.ofRows rows)) r c = b := by
  simp only [Dao.getString, cell_ofRows h, hc, cstr_eq_self hb]

theorem map_range_ofRows {α β : Type} {l : List α} {g : α → List Value}
    {f : Option PGresult → ℕ → β} {e : α → β}
    (h : ∀ (r : ℕ) (hr : r < l.length), f (some (.ofRows (l.map g))) r = e l[r]) :
    (List.range (PQntuples (some (.ofRows (l.map g))))).map (f (some (.ofRows (l.map g)))) =
      l.map e := by
  have hn : PQntuples (some (.ofRows (l.map g))) = l.length := by simp [PQntuples, PGresult.ofRows]
  refine List.ext_getElem (by simp [hn]) fun r h1 h2 => ?_
  rw [List.getElem_map, List.getElem_map, List.getElem_range]
  exact h r (by simpa using h2)

theorem lookup_insertScores {cells : List (Bytes × Option ℚ)} (hd : (cells.map Prod.fst).Nodup)
    (m : Finmap fun _ : Bytes => ℚ) (k : Bytes) :
    (cells.foldl (fun m c => insertScore m c.1 c.2) m).lookup k =
      ((cells.lookup k).join).or (m.lookup k) := by
  induction cells generalizing m with
  | nil => simp
  | cons c cells ih =>
    obtain ⟨a, v⟩ := c
    simp only [List.map_cons, List.nodup_cons] at hd
    rw [List.foldl_cons, ih hd.2]
    by_cases hk : k = a
    · subst hk
      have hn : cells.lookup k = none := by
        rw [List.lookup_eq_none_iff]
        intro p hp
        exact bne_iff_ne.2 fun he => hd.1 (he ▸ List.mem_map_of_mem hp)
      cases v <;> simp [hn, insertScore]
    · cases v <;> simp [List.lookup_cons, beq_eq_false_iff_ne.2 hk, insertScore,
        Finmap.lookup_insert_of_ne _ hk]

def bestValue (db : Tables) (s : Student) (k : Bytes) : Option ℚ :=
  (bestScore db s k).map fun h : ℤ => (h : ℚ) / 100

def rowOf (db : Tables) (s : Student) : PivotRow where
  studentId := s.id
  studentName := s.name.bytes
  className := s.className.bytes
  scores := (kSubjects.map fun k => (k, bestValue db s k)).foldl
    (fun m c => insertScore m c.1 c.2) ∅

theorem atof_output (o : Option ℤ) :
    (ofNumeric 2 o).output.map atof = o.map fun h : ℤ => (h : ℚ) / 100 := by
  cases o with
  | none => rfl
  | some h =>
    have ha : atof (fixedText 2 h) = (h : ℚ) / 100 := by rw [atof_fixedText]; norm_num
    simp [ofNumeric, Value.output, ha]

theorem pivotRow_ofRows {db : Tables} {ss : List Student} {r : ℕ} (hr : r < ss.length) :
    pivotRow (some (.ofRows (ss.map (pivotCells db)))) r = rowOf db ss[r] := by
  have hl : r < (ss.map (pivotCells db)).length := by simpa using hr
  have hc (i : ℕ) (hi : i < kSubjects.length) :
      (cell (some (.ofRows (ss.map (pivotCells db)))) r (3 + i)).map atof =
        bestValue db ss[r] (kSubjects.getD i []) := by
    rw [cell_ofRows hl, List.getElem_map, pivotCells, List.getElem?_append_right (by simp)]
    simp [hi, atof_output, bestValue]
  have h0 : getString (some (.ofRows (ss.map (pivotCells db)))) r 0 = intText ss[r].id :=
    getString_ofRows hl (by simp [pivotCells, Value.output]) (nulFree_intText _)
  have h1 : getString (some (.ofRows (ss.map (pivotCells db)))) r 1 = ss[r].name.bytes :=
    getString_ofRows hl (by simp [pivotCells, Value.output]) ss[r].name.nulFree
  have h2 : getString (some (.ofRows (ss.map (pivotCells db)))) r 2 = ss[r].className.bytes :=
    getString_ofRows hl (by simp [pivotCells, Value.output]) ss[r].className.nulFree
  have hs : subjectScores (some (.ofRows (ss.map (pivotCells db)))) r =
      (rowOf db ss[r]).scores := by
    have hk : kSubjects = (List.range kSubjectCount).map fun i => kSubjects.getD i [] := by decide
    simp only [subjectScores, rowOf]
    rw [hk, List.map_map, List.foldl_map, ← hk]
    apply List.foldl_ext
    intro m i hi
    simp only [Function.comp_apply]
    rw [hc i (List.mem_range.1 hi)]
  simp only [pivotRow, h0, h1, h2, hs, atoi_intText]
  rfl

theorem queryPivot_rows {db : Tables} {col : Collation} (session : Session col db)
    (classFilter : Bytes) :
    ∃ ss : List Student, ss.Perm (shownStudents db classFilter) ∧
      ss.Pairwise (fun a b => lexLe col (orderKey a) (orderKey b)) ∧
      queryPivot (some session.exec) classFilter = ss.map (rowOf db) := by
  obtain ⟨rows, ha, he⟩ := session.answers (pivotQuery classFilter) _ (parse_pivotSql classFilter)
  obtain ⟨ss, hp, ho, rfl⟩ := pivot_answer ha
  refine ⟨ss, hp, ho, ?_⟩
  simp only [queryPivot, he, pivotRowsOf]
  exact map_range_ofRows fun r hr => pivotRow_ofRows hr

theorem lookup_rowOf (db : Tables) (s : Student) (k : Bytes) :
    (rowOf db s).scores.lookup k = if k ∈ kSubjects then bestValue db s k else none := by
  have hd : ((kSubjects.map fun k => (k, bestValue db s k)).map Prod.fst).Nodup := by
    simp only [List.map_map, Function.comp_def, List.map_id']
    decide
  have hl (ks : List Bytes) (f : Bytes → Option ℚ) :
      ((ks.map fun k => (k, f k)).lookup k).join = if k ∈ ks then f k else none := by
    induction ks with
    | nil => rfl
    | cons a ks ih =>
      by_cases hk : k = a
      · simp [hk]
      · simp [List.lookup_cons, beq_eq_false_iff_ne.2 hk, ih, hk]
  simp only [rowOf, lookup_insertScores hd, hl, Finmap.lookup_empty, Option.or_none]

def recordedScores (db : Tables) (s : Student) (subject : Bytes) : Set ℚ :=
  {q | ∃ sc ∈ db.scores, sc.studentId = s.id ∧ sc.subject.bytes = subject ∧
    ∃ x, sc.score = some x ∧ q = x.value}

structure IsPivotRow (db : Tables) (s : Student) (row : PivotRow) : Prop where
  studentId : row.studentId = s.id
  studentName : row.studentName = s.name.bytes
  className : row.className = s.className.bytes
  subjects : ∀ k, k ∈ row.scores ↔ k ∈ kSubjects ∧ (recordedScores db s k).Nonempty
  maximum : ∀ k v, row.scores.lookup k = some v → IsGreatest (recordedScores db s k) v

def ClassNameOrder (col : Collation) (a b : Student) : Prop :=
  (a.className.bytes ≠ b.className.bytes ∧ col.le a.className.bytes b.className.bytes) ∨
    (a.className.bytes = b.className.bytes ∧ col.le a.name.bytes b.name.bytes)

theorem classNameOrder_of_lexLe {col : Collation} {a b : Student}
    (h : lexLe col (orderKey a) (orderKey b)) : ClassNameOrder col a b := by
  simp only [orderKey, lexLe, Value.le, Bool.and_eq_true, Bool.or_eq_true, Bool.not_eq_true',
    Bool.or_true, and_true] at h
  by_cases he : a.className.bytes = b.className.bytes
  · have hba : col.le b.className.bytes a.className.bytes = true := by
      rw [← he]
      exact (col.total _ _).elim id id
    exact Or.inr ⟨he, h.2.resolve_left (by simp [hba])⟩
  · exact Or.inl ⟨he, h.1⟩

theorem mem_recordedScores {db : Tables} {s : Student} {k : Bytes} {h : ℤ} :
    ((h : ℚ) / 100) ∈ recordedScores db s k ↔ h ∈ db.subjectScores s.id k := by
  rw [Tables.mem_subjectScores]
  constructor
  · intro ⟨sc, hm, hi, hk, x, hx, hv⟩
    refine ⟨sc, hm, hi, hk, x, hx, ?_⟩
    simp only [Numeric52.value] at hv
    field_simp at hv
    exact_mod_cast hv.symm
  · rintro ⟨sc, hm, hi, hk, x, hx, rfl⟩
    exact ⟨sc, hm, hi, hk, x, hx, rfl⟩

theorem recordedScores_eq (db : Tables) (s : Student) (k : Bytes) :
    recordedScores db s k = {q | ∃ h ∈ db.subjectScores s.id k, q = (h : ℚ) / 100} := by
  ext q
  constructor
  · rintro ⟨sc, hm, hi, hk, x, hx, rfl⟩
    exact ⟨x.hundredths, Tables.mem_subjectScores.2 ⟨sc, hm, hi, hk, x, hx, rfl⟩, rfl⟩
  · rintro ⟨h, hh, rfl⟩
    exact mem_recordedScores.2 hh

theorem rowOf_isPivotRow (db : Tables) (s : Student) : IsPivotRow db s (rowOf db s) where
  studentId := rfl
  studentName := rfl
  className := rfl
  subjects k := by
    have hne : (recordedScores db s k).Nonempty ↔ db.subjectScores s.id k ≠ [] := by
      rw [recordedScores_eq]
      constructor
      · intro ⟨_, h, hh, _⟩
        exact List.ne_nil_of_mem hh
      · intro hne
        obtain ⟨h, hh⟩ := List.exists_mem_of_ne_nil _ hne
        exact ⟨_, h, hh, rfl⟩
    rw [hne, ← Finmap.lookup_isSome, lookup_rowOf]
    split_ifs with hk
    · simp [hk, bestValue, bestScore]
    · simp [hk]
  maximum k v hv := by
    rw [lookup_rowOf] at hv
    split_ifs at hv
    obtain ⟨h, hb, rfl⟩ := Option.map_eq_some_iff.1 hv
    obtain ⟨hm, hg⟩ := List.max?_eq_some_iff.1 hb
    refine ⟨mem_recordedScores.2 hm, fun q hq => ?_⟩
    rw [recordedScores_eq] at hq
    obtain ⟨g, hgm, rfl⟩ := hq
    have hle : (g : ℚ) ≤ h := by exact_mod_cast hg g hgm
    exact div_le_div_of_nonneg_right hle (by norm_num)

/-- One row for each student that the filter shows, none lost or repeated, in
the order of class and name, with the maximum of each recorded subject. -/
theorem queryPivot_correct {db : Tables} {col : Collation} (session : Session col db)
    {classFilter : Bytes} (h : NulFree classFilter) :
    ∃ ss : List Student,
      ss.Perm (db.students.filter fun s =>
        classFilter = [] ∨ s.className.bytes = classFilter) ∧
      ss.Pairwise (ClassNameOrder col) ∧
      List.Forall₂ (IsPivotRow db) ss (queryPivot (some session.exec) classFilter) := by
  obtain ⟨ss, hp, ho, hr⟩ := queryPivot_rows session classFilter
  have hf : shownStudents db classFilter =
      db.students.filter fun s => classFilter = [] ∨ s.className.bytes = classFilter := by
    apply List.filter_congr
    intro s _
    cases classFilter <;> simp [passes, cstr_eq_self h]
  refine ⟨ss, hf ▸ hp, ho.imp classNameOrder_of_lexLe, ?_⟩
  rw [hr, List.forall₂_map_right_iff]
  exact List.forall₂_same.2 fun s _ => rowOf_isPivotRow db s

/-- Two score rows in one subject, a NULL score, a fifth subject, no score row. -/
def sampleTables : Tables where
  students := [⟨2, .lit "李四" rfl, .lit "一年一班" rfl⟩,
    ⟨5, .lit "张三" rfl, .lit "一年二班" rfl⟩]
  scores := [⟨2, .lit "语文" rfl, some ⟨8850, by decide⟩⟩,
    ⟨2, .lit "语文" rfl, some ⟨9200, by decide⟩⟩,
    ⟨2, .lit "数学" rfl, none⟩,
    ⟨2, .lit "体育" rfl, some ⟨7000, by decide⟩⟩]
  primaryKey := by decide
  foreignKey := by decide

theorem queryPivot_correct_sample :
    NulFree (utf8 "一年一班") ∧ ∃ ss : List Student,
      ss.Perm (sampleTables.students.filter fun s =>
        utf8 "一年一班" = [] ∨ s.className.bytes = utf8 "一年一班") ∧
      ss.Pairwise (ClassNameOrder .bytewise) ∧
      List.Forall₂ (IsPivotRow sampleTables) ss
        (queryPivot (some (Session.sorting .bytewise sampleTables).exec) (utf8 "一年一班")) :=
  ⟨by decide, queryPivot_correct (Session.sorting .bytewise sampleTables) (by decide)⟩

end StudentGrades
