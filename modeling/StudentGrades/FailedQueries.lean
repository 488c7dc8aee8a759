import StudentGrades.Handler

/-!
# Requests whose statements fail

Each of the two statements of a request succeeds with its result or fails with
another status. A failed statement becomes an empty list in the query function,
and the page is rendered with status 200 all the same. The theorem says which
failures can still be told from every successful response.
-/

namespace StudentGrades
open ByteText Sql Dao Service Handler Template

inductive Outcome
  | succeeds
  | fails (res : Option PGresult) (status : PQresultStatus res ≠ .PGRES_TUPLES_OK)

namespace Outcome

def failed : Outcome → Bool
  | succeeds => false
  | fails _ _ => true

def result : Outcome → Option PGresult → Option PGresult
  | succeeds, res => res
  | fails res _, _ => res

end Outcome

def Exec.withOutcomes (exec : Exec) (classes pivot : Outcome) : Exec := fun q =>
  if q = classesQuery then classes.result (exec q) else pivot.result (exec q)

variable {db : Tables} {col : Collation}

theorem pivotQuery_ne (f : Bytes) : pivotQuery f ≠ classesQuery := by
  intro h
  have hp := parse_pivotSql f
  rw [show (pivotSql f) = classesSql from congrArg Query.sql h, parse_classesSql] at hp
  simp [classesStatement, pivotStatement] at hp

theorem getClasses_withOutcomes (exec : Exec) (c p : Outcome) :
    getClasses (some (exec.withOutcomes c p)) = if c.failed then [] else getClasses (some exec) := by
  cases c with
  | succeeds => rfl
  | fails res status =>
    simp [getClasses, queryClasses, Exec.withOutcomes, Outcome.result, classesOf, status,
      Outcome.failed]

theorem getStudentScores_withOutcomes (exec : Exec) (c p : Outcome) (f : Bytes) :
    getStudentScores (some (exec.withOutcomes c p)) f =
      if p.failed then [] else getStudentScores (some exec) f := by
  have hq := pivotQuery_ne f
  cases p with
  | succeeds =>
    simp [getStudentScores, queryPivot, Exec.withOutcomes, hq, Outcome.result, Outcome.failed]
  | fails res status =>
    simp [getStudentScores, queryPivot, Exec.withOutcomes, hq, Outcome.result, pivotRowsOf, status,
      Outcome.failed]

theorem getClasses_eq_nil (session : Session col db) :
    getClasses (some session.exec) = [] ↔ db.students = [] := by
  have h := (queryClasses_rows session).1
  rw [getClasses]
  constructor
  · intro he
    rw [he] at h
    simpa [classNames, List.dedup_eq_nil] using h.symm.eq_nil
  · intro he
    simpa [classNames, he] using h

theorem getStudentScores_eq_nil_iff (session : Session col db) (f : Bytes) :
    getStudentScores (some session.exec) f = [] ↔ shownStudents db f = [] := by
  obtain ⟨ss, hp, -, hr⟩ := queryPivot_rows session f
  rw [getStudentScores, hr, List.map_eq_nil_iff]
  exact ⟨fun h => (h ▸ hp).symm.eq_nil, fun h => (h ▸ hp).eq_nil⟩

def Distinguishable (entry : Entry) (session : Session col db) (f : Bytes) (c p : Outcome) : Prop :=
  (c.failed ∨ p.failed) → ∀ (db' : Tables) (session' : Session col db'),
    entry.respond (some (session.exec.withOutcomes c p)) f ≠ entry.respond (some session'.exec) f

structure FailureNeverData (entry : Entry) (session : Session col db) (f : Bytes) (c p : Outcome) :
    Prop where
  distinguishable : Distinguishable entry session f c p
  emptyTable :
    showsEmptyState (entry.respond (some (session.exec.withOutcomes c p)) f).document →
      c.failed = false ∧ p.failed = false ∧ shownStudents db f = []
  emptyDropdown :
    (decodePage (entry.respond (some (session.exec.withOutcomes c p)) f).document).options = [] →
      c.failed = false ∧ p.failed = false ∧ db.students = []

theorem not_distinguishable {entry : Entry} {session : Session col db} {f : Bytes} {c p : Outcome}
    (hf : c.failed ∨ p.failed) {db' : Tables} (session' : Session col db')
    (hc : getClasses (some (session.exec.withOutcomes c p)) = getClasses (some session'.exec))
    (hr : getStudentScores (some (session.exec.withOutcomes c p)) f =
      getStudentScores (some session'.exec) f) :
    ¬ Distinguishable entry session f c p := by
  intro h
  apply h hf db' session'
  apply (respond_eq_iff entry).2
  rw [handleIndex, handleIndex, hc, hr]

theorem getClasses_empty :
    getClasses (some (Session.sorting col Tables.empty).exec) = [] :=
  (getClasses_eq_nil _).2 rfl

theorem getStudentScores_empty (f : Bytes) :
    getStudentScores (some (Session.sorting col Tables.empty).exec) f = [] :=
  (getStudentScores_eq_nil_iff _ f).2 rfl

theorem distinguishable_classes_fail (entry : Entry) (session : Session col db) (f : Bytes)
    {c p : Outcome} (hc : c.failed = true) (hp : p.failed = false) :
    Distinguishable entry session f c p ↔ shownStudents db f ≠ [] := by
  have hclasses := getClasses_withOutcomes session.exec c p
  have hrows := getStudentScores_withOutcomes session.exec c p f
  simp only [hc, hp, ↓reduceIte, Bool.false_eq_true] at hclasses hrows
  constructor
  · intro h hempty
    refine not_distinguishable (.inl hc) (Session.sorting col Tables.empty) ?_ ?_ h
    · rw [hclasses, getClasses_empty]
    · rw [hrows, getStudentScores_empty, (getStudentScores_eq_nil_iff session f).2 hempty]
  · intro hne _ db' session' heq
    obtain ⟨hc', hr'⟩ := handleIndex_inj ((respond_eq_iff entry).1 heq)
    rw [hclasses] at hc'
    have hnone : shownStudents db' f = [] := by
      simp [shownStudents, (getClasses_eq_nil session').1 hc'.symm]
    rw [hrows, (getStudentScores_eq_nil_iff session' f).2 hnone, List.map_nil,
      List.map_eq_nil_iff] at hr'
    exact hne ((getStudentScores_eq_nil_iff session f).1 hr')

theorem distinguishable_pivot_fails (entry : Entry) (session : Session col db) (f : Bytes)
    {c p : Outcome} (hc : c.failed = false) (hp : p.failed = true) :
    Distinguishable entry session f c p ↔ shownStudents db f ≠ [] := by
  have hclasses := getClasses_withOutcomes session.exec c p
  have hrows := getStudentScores_withOutcomes session.exec c p f
  simp only [hc, hp, ↓reduceIte, Bool.false_eq_true] at hclasses hrows
  constructor
  · intro h hempty
    refine not_distinguishable (.inr hp) session hclasses ?_ h
    rw [hrows, (getStudentScores_eq_nil_iff session f).2 hempty]
  · intro hne _ db' session' heq
    obtain ⟨hc', hr'⟩ := handleIndex_inj ((respond_eq_iff entry).1 heq)
    rw [hclasses] at hc'
    rw [hrows, List.map_nil, eq_comm, List.map_eq_nil_iff, getStudentScores_eq_nil_iff] at hr'
    obtain ⟨s, hs⟩ := List.exists_mem_of_ne_nil _ hne
    obtain ⟨hs, hpass⟩ := List.mem_filter.1 hs
    have hoption : s.className.bytes ∈ getClasses (some session'.exec) :=
      hc' ▸ (mem_queryClasses session).2 ⟨s, hs, rfl⟩
    obtain ⟨s', hs', hclass⟩ := (mem_queryClasses session').1 hoption
    have hshown : s' ∈ shownStudents db' f :=
      List.mem_filter.2 ⟨hs', by simpa [passes, hclass] using hpass⟩
    exact absurd hshown (by simp [hr'])

theorem distinguishable_iff (entry : Entry) (session : Session col db) (f : Bytes) (c p : Outcome) :
    Distinguishable entry session f c p ↔
      (c.failed = false ∧ p.failed = false) ∨
        ((c.failed = false ∨ p.failed = false) ∧ shownStudents db f ≠ []) := by
  cases hc : c.failed with
  | false =>
    cases hp : p.failed with
    | false => simp [Distinguishable, hc, hp]
    | true => simp [distinguishable_pivot_fails entry session f hc hp]
  | true =>
    cases hp : p.failed with
    | false => simp [distinguishable_classes_fail entry session f hc hp]
    | true =>
      have hclasses := getClasses_withOutcomes session.exec c p
      have hrows := getStudentScores_withOutcomes session.exec c p f
      simp only [hc, hp, ↓reduceIte] at hclasses hrows
      simpa using not_distinguishable (.inl hc) (Session.sorting col Tables.empty)
        (hclasses.trans getClasses_empty.symm) (hrows.trans (getStudentScores_empty f).symm)

theorem showsEmptyState_document (entry : Entry) (g : Option Exec) (f : Bytes) :
    showsEmptyState (entry.respond g f).document ↔ getStudentScores g f = [] := by
  rw [document_respond, handleIndex, (shows_renderPage _ _ _).2, List.isEmpty_iff]

theorem options_document (entry : Entry) (g : Option Exec) (f : Bytes) :
    (decodePage (entry.respond g f).document).options = [] ↔ getClasses g = [] := by
  rw [document_respond, handleIndex, decodePage_renderPage]
  exact List.map_eq_nil_iff

/-- A request presents no failed query as data exactly when no statement of it
failed. The response can be told from every successful one exactly when, besides,
only one statement failed and the filter shows at least one student. -/
theorem failure_never_data_iff (entry : Entry) (session : Session col db) (f : Bytes)
    (c p : Outcome) :
    (FailureNeverData entry session f c p ↔ c.failed = false ∧ p.failed = false) ∧
      (Distinguishable entry session f c p ↔
        (c.failed = false ∧ p.failed = false) ∨
          ((c.failed = false ∨ p.failed = false) ∧ shownStudents db f ≠ [])) := by
  refine ⟨⟨fun h => ?_, fun h => ?_⟩, distinguishable_iff entry session f c p⟩
  · have hclasses := getClasses_withOutcomes session.exec c p
    have hrows := getStudentScores_withOutcomes session.exec c p f
    constructor
    · by_contra hc
      rw [if_pos (by simpa using hc)] at hclasses
      exact hc (h.emptyDropdown ((options_document entry _ f).2 hclasses)).1
    · by_contra hp
      rw [if_pos (by simpa using hp)] at hrows
      exact hp (h.emptyTable ((showsEmptyState_document entry _ f).2 hrows)).2.1
  · have hclasses := getClasses_withOutcomes session.exec c p
    have hrows := getStudentScores_withOutcomes session.exec c p f
    simp only [h.1, h.2, Bool.false_eq_true, ↓reduceIte] at hclasses hrows
    refine ⟨(distinguishable_iff entry session f c p).2 (.inl h), fun hs => ⟨h.1, h.2, ?_⟩,
      fun ho => ⟨h.1, h.2, ?_⟩⟩
    · rw [showsEmptyState_document, hrows] at hs
      exact (getStudentScores_eq_nil_iff session f).1 hs
    · rw [options_document, hclasses] at ho
      exact (getClasses_eq_nil session).1 ho

def Outcome.lost : Outcome := .fails none (by decide)

/-- Without a filter on a content with students: when both statements fail each
entry sends the response of the empty tables, and when only the pivot statement
fails it sends a page without score data. -/
theorem lost_connection_shown_as_data :
    ¬ Distinguishable .A (Session.sorting .bytewise sampleTables) [] .lost .lost ∧
      ¬ Distinguishable .D (Session.sorting .bytewise sampleTables) [] .lost .lost ∧
      ¬ FailureNeverData .A (Session.sorting .bytewise sampleTables) [] .succeeds .lost ∧
      ¬ FailureNeverData .D (Session.sorting .bytewise sampleTables) [] .succeeds .lost := by
  have hboth (entry : Entry) :
      ¬ Distinguishable entry (Session.sorting .bytewise sampleTables) [] .lost .lost := by
    simp [distinguishable_iff, Outcome.lost, Outcome.failed]
  have hpivot (entry : Entry) :
      ¬ FailureNeverData entry (Session.sorting .bytewise sampleTables) [] .succeeds .lost := by
    intro h
    have hrows := getStudentScores_withOutcomes
      (Session.sorting .bytewise sampleTables).exec .succeeds .lost []
    exact absurd (h.emptyTable ((showsEmptyState_document entry _ []).2 hrows)).2.1 (by decide)
  exact ⟨hboth .A, hboth .D, hpivot .A, hpivot .D⟩

end StudentGrades
