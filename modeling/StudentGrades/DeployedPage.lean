import StudentGrades.ContentPage
import StudentGrades.SeededContent

/-!
# What a deployed application shows

The content that start runs leave is read by the page. The table shows students of
the seed file only; a student with one of the first six numbers has the marks that
the seed file gives to the number, whatever the name, as soon as one run has
inserted the scores, and every other student has none.
-/

namespace StudentGrades
open ByteText Sql Dao

namespace Deploy
open Template (ShownRow decodePage)

def seedCell (id : ℤ) (subject : Bytes) : Bytes :=
  match seedScores.find? fun sc => sc.studentId = id ∧ sc.subject.bytes = subject with
  | some ⟨_, _, some x⟩ => intText (x.hundredths / 100)
  | _ => utf8 "-"

def scoresIn (scores : List Score) (id : ℤ) (subject : Bytes) : List ℤ :=
  scores.filterMap fun sc =>
    if sc.studentId = id ∧ sc.subject.bytes = subject then sc.score.map Numeric52.hundredths else none

theorem programCell_seedScores {subject : Bytes} (hk : subject ∈ kSubjects) (id : ℤ) :
    programCell (scoresIn seedScores id subject).max? = seedCell id subject := by
  by_cases hid : id ∈ [1, 2, 3, 4, 5, 6]
  · have hall : ∀ i ∈ [1, 2, 3, 4, 5, 6], ∀ k ∈ kSubjects,
        programCell (scoresIn seedScores i k).max? = seedCell i k := by decide
    exact hall id hid subject hk
  · have hother : ∀ sc ∈ seedScores, sc.studentId ≠ id := by
      intro sc hsc he
      have howner := seedScores_owners sc hsc
      simp only [List.mem_cons, List.not_mem_nil, or_false, not_or] at hid
      omega
    have hnone : scoresIn seedScores id subject = [] := by
      rw [scoresIn, List.filterMap_eq_nil_iff]
      intro sc hsc
      rw [if_neg fun h => hother sc hsc h.1]
    have hfind : (seedScores.find? fun sc =>
        decide (sc.studentId = id ∧ sc.subject.bytes = subject)) = none := by
      rw [List.find?_eq_none]
      intro sc hsc
      simp [hother sc hsc]
    rw [hnone, seedCell, hfind]
    rfl

theorem max?_congr {l l' : List ℤ} (h : ∀ x, x ∈ l ↔ x ∈ l') : l.max? = l'.max? := by
  apply Option.ext
  intro m
  rw [List.max?_eq_some_iff, List.max?_eq_some_iff]
  simp only [h]

theorem max?_copies {copies : ℕ} (hpos : 0 < copies) (id : ℤ) (subject : Bytes) :
    (scoresIn (List.replicate copies seedScores).flatten id subject).max? =
      (scoresIn seedScores id subject).max? := by
  apply max?_congr
  intro x
  have hmem (sc : Score) : sc ∈ (List.replicate copies seedScores).flatten ↔ sc ∈ seedScores := by
    rw [List.mem_flatten]
    constructor
    · intro h
      obtain ⟨l, hl, hsc⟩ := h
      rwa [List.eq_of_mem_replicate hl] at hsc
    · intro h
      exact ⟨seedScores, List.mem_replicate.2 ⟨by omega, rfl⟩, h⟩
  simp only [scoresIn, List.mem_filterMap, hmem]

def deployedRow (inserted : Bool) (s : Student) : ShownRow :=
  ⟨s.name.bytes, s.className.bytes,
    kSubjects.map fun k => if inserted then seedCell s.id k else utf8 "-"⟩

def scoresInserted (db : Database) : Bool := !db.scoreRows.isEmpty

theorem pageRow_deployed {db : Database} (h : ContentInv db) (s : Student) :
    pageRow h.tables s = deployedRow (scoresInserted db) s := by
  obtain ⟨copies, hscores⟩ := h.scores
  rw [pageRow, deployedRow]
  refine congrArg (ShownRow.mk _ _) (List.map_congr_left fun k hk => ?_)
  have hbest : bestScore h.tables s k = (scoresIn db.scoreRows s.id k).max? := rfl
  rw [hbest, scoresInserted, hscores]
  by_cases hpos : 0 < copies
  · have hsome : ((List.replicate copies seedScores).flatten).isEmpty = false := by
      obtain ⟨n, rfl⟩ : ∃ n, copies = n + 1 := ⟨copies - 1, by omega⟩
      rw [List.replicate_succ]
      rfl
    rw [max?_copies hpos, programCell_seedScores hk, hsome]
    rfl
  · have hzero : copies = 0 := by omega
    rw [hzero]
    rfl

def deployed (created role : Bool) (runs : List Run) : Database :=
  tablesOf (startRuns (blankState created role) runs).server

theorem deployed_content (created role : Bool) (runs : List Run) :
    ContentInv (deployed created role runs) := contentInv_startRuns created role runs

theorem rows_deployed (entry : StudentGrades.Entry) {db : Database} (h : ContentInv db) {col : Collation}
    (session : Session col h.tables) (f : Bytes) :
    (decodePage (entry.respond (some session.exec) f).document).rows.Perm
      ((shownStudents h.tables f).map (deployedRow (scoresInserted db))) := by
  obtain ⟨ss, hperm, -, hpage⟩ := decodePage_handleIndex session f
  rw [document_respond, hpage]
  have hrows : ss.map (pageRow h.tables) = ss.map (deployedRow (scoresInserted db)) :=
    List.map_congr_left fun s _ => pageRow_deployed h s
  rw [hrows]
  exact hperm.map _

theorem extends_deployed (created role : Bool) (runs more : List Run) :
    Extends (deployed created role runs) (deployed created role (runs ++ more)) := by
  rw [deployed, deployed, startRuns, startRuns, List.foldl_append]
  exact extends_startRuns _ more

theorem shownStudents_extends {db db' : Database} (h : ContentInv db) (h' : ContentInv db')
    (hext : Extends db db') (f : Bytes) :
    (shownStudents h.tables f).Sublist (shownStudents h'.tables f) :=
  hext.1.sublist.filter _

theorem scoresInserted_extends {db db' : Database} (hext : Extends db db')
    (hins : scoresInserted db = true) : scoresInserted db' = true := by
  simp only [scoresInserted, Bool.not_eq_true', List.isEmpty_eq_false_iff] at hins ⊢
  intro hnil
  have hprefix := hext.2
  rw [hnil, List.prefix_nil] at hprefix
  exact hins hprefix

/-- Later runs lose no student that a page showed, and once the scores are inserted no
row of a page is lost or changed. -/
theorem later_runs_keep_rows (entry : StudentGrades.Entry) (created role : Bool)
    (runs more : List Run) {col : Collation}
    (session : Session col (deployed_content created role runs).tables)
    (later : Session col (deployed_content created role (runs ++ more)).tables) (f : Bytes) :
    let rows := (decodePage (entry.respond (some session.exec) f).document).rows
    let rows' := (decodePage (entry.respond (some later.exec) f).document).rows
    (rows.map fun row => (row.studentName, row.className)).Subperm
        (rows'.map fun row => (row.studentName, row.className)) ∧
      (scoresInserted (deployed created role runs) = true → rows.Subperm rows') := by
  intro rows rows'
  have h := deployed_content created role runs
  have h' := deployed_content created role (runs ++ more)
  have hrows := rows_deployed entry h session f
  have hrows' := rows_deployed entry h' later f
  have hext := extends_deployed created role runs more
  have hsub := shownStudents_extends h h' hext f
  refine ⟨?_, fun hins => ?_⟩
  · refine ((hrows.map _).subperm_right).2 (((hrows'.map _).subperm_left).2 ?_)
    rw [List.map_map, List.map_map]
    exact (hsub.map _).subperm
  · refine (hrows.subperm_right).2 ((hrows'.subperm_left).2 ?_)
    rw [hins, scoresInserted_extends hext hins]
    exact (hsub.map _).subperm

end Deploy
end StudentGrades
