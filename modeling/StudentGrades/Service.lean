import StudentGrades.ClassList

/-!
# Filtering by the options of the dropdown

The service functions pass through to the queries. A listed class filters to its
own students as long as it is not the empty text, which the interface reserves
for "no filter"; a filter that names no listed class shows nothing. What a filter
names is the text handed to the server, which ends before the first NUL byte.
-/

namespace StudentGrades
open ByteText Sql Dao

namespace Service

def getClasses (g_conn : Option Exec) : List Bytes := queryClasses g_conn

def getStudentScores (g_conn : Option Exec) (classFilter : Bytes) : List PivotRow :=
  queryPivot g_conn classFilter

end Service

open Service

def shownIds (rows : List PivotRow) : List ℤ := rows.map PivotRow.studentId

def idsOf (students : List Student) : List ℤ := students.map Student.id

def studentsOfClass (db : Tables) (c : Bytes) : List Student :=
  db.students.filter fun s => s.className.bytes = c

variable {db : Tables} {col : Collation}

/-- Every option filters to its class and every other filter shows nothing. -/
structure OptionsFilterExactly (session : Session col db) : Prop where
  each : ∀ c ∈ getClasses (some session.exec),
    (shownIds (getStudentScores (some session.exec) c)).Perm (idsOf (studentsOfClass db c))
  together : ((getClasses (some session.exec)).flatMap fun c =>
    shownIds (getStudentScores (some session.exec) c)).Perm (idsOf db.students)
  others : ∀ f : Bytes, f ≠ [] → f ∉ getClasses (some session.exec) →
    getStudentScores (some session.exec) f = []

/-- The same with the empty text as "no filter" and filters read up to the first NUL. -/
structure NamedOptionsFilterExactly (session : Session col db) : Prop where
  each : ∀ c ∈ getClasses (some session.exec), c ≠ [] →
    (shownIds (getStudentScores (some session.exec) c)).Perm (idsOf (studentsOfClass db c))
  together : (((getClasses (some session.exec)).filter (· ≠ [])).flatMap fun c =>
    shownIds (getStudentScores (some session.exec) c)).Perm
      (idsOf (db.students.filter fun s => s.className.bytes ≠ []))
  unfiltered : (shownIds (getStudentScores (some session.exec) [])).Perm (idsOf db.students)
  others : ∀ f : Bytes, f ≠ [] → cstr f ∉ getClasses (some session.exec) →
    getStudentScores (some session.exec) f = []

theorem shownIds_perm (session : Session col db) (f : Bytes) :
    (shownIds (getStudentScores (some session.exec) f)).Perm (idsOf (shownStudents db f)) := by
  obtain ⟨ss, hp, -, hr⟩ := queryPivot_rows session f
  have he : shownIds (ss.map (rowOf db)) = idsOf ss := by simp [shownIds, idsOf, rowOf]
  rw [getStudentScores, hr, he]
  exact hp.map _

theorem shownStudents_of_named {c : Bytes} (hc : NulFree c) (hne : c ≠ []) :
    shownStudents db c = studentsOfClass db c := by
  apply List.filter_congr
  intro s _
  simp [passes, hne, cstr_eq_self hc]

theorem nulFree_of_mem_getClasses (session : Session col db) {c : Bytes}
    (h : c ∈ getClasses (some session.exec)) : NulFree c := by
  obtain ⟨s, -, rfl⟩ := (mem_queryClasses session).1 h
  exact s.className.nulFree

theorem getStudentScores_eq_nil (session : Session col db) {f : Bytes}
    (h : shownStudents db f = []) : getStudentScores (some session.exec) f = [] := by
  have hp := shownIds_perm session f
  simpa [h, idsOf, shownIds] using hp

theorem named_options_filter (session : Session col db) : NamedOptionsFilterExactly session where
  each c hc hne := by
    rw [← shownStudents_of_named (nulFree_of_mem_getClasses session hc) hne]
    exact shownIds_perm session c
  together := by
    have hn : ((getClasses (some session.exec)).filter (· ≠ [])).Nodup :=
      (queryClasses_nodup session).filter _
    have hkeys := (@flatMap_filter_perm _ _ _ (fun s : Student => s.className.bytes) _ hn
      db.students).map Student.id
    rw [List.map_flatMap] at hkeys
    refine List.Perm.trans ?_ (hkeys.trans (.of_eq (congrArg _ (List.filter_congr fun s hs => ?_))))
    rotate_left
    · have hin : s.className.bytes ∈ getClasses (some session.exec) :=
        (mem_queryClasses session).2 ⟨s, hs, rfl⟩
      simp [hin]
    apply List.Perm.flatMap_left
    intro c hc
    obtain ⟨hc, hne⟩ := List.mem_filter.1 hc
    have hne : c ≠ [] := by simpa using hne
    refine (shownIds_perm session c).trans (.of_eq ?_)
    rw [shownStudents_of_named (nulFree_of_mem_getClasses session hc) hne]
    rfl
  unfiltered := by
    have h := shownIds_perm session []
    rwa [shownStudents_nil] at h
  others f hne hnot := by
    apply getStudentScores_eq_nil session
    rw [shownStudents, List.filter_eq_nil_iff]
    intro s hs he
    have hclass : s.className.bytes = cstr f := by simpa [passes, hne] using he
    exact hnot ((mem_queryClasses session).2 ⟨s, hs, hclass⟩)

def unnamedClassTables : Tables where
  students := [⟨1, .lit "张三" rfl, ⟨[], by decide, by decide⟩⟩,
    ⟨2, .lit "李四" rfl, .lit "一年一班" rfl⟩]
  scores := []
  primaryKey := by decide
  foreignKey := by simp

theorem unnamed_each_fails :
    ¬ OptionsFilterExactly (Session.sorting .bytewise unnamedClassTables) := by
  intro h
  have hin : [] ∈ getClasses (some (Session.sorting .bytewise unnamedClassTables).exec) :=
    (mem_queryClasses _).2 ⟨_, List.mem_cons_self, rfl⟩
  have hlen := ((shownIds_perm (Session.sorting .bytewise unnamedClassTables) []).symm.trans
    (h.each [] hin)).length_eq
  exact absurd hlen (by decide)

/-- The option of the unnamed class shows both students of the content, and a
filter that continues a class name after a NUL byte is no option and shows that class. -/
theorem options_filter_fails :
    ¬ OptionsFilterExactly (Session.sorting .bytewise unnamedClassTables) ∧
      ∃ f : Bytes, f ≠ [] ∧
        f ∉ getClasses (some (Session.sorting .bytewise unnamedClassTables).exec) ∧
        getStudentScores (some (Session.sorting .bytewise unnamedClassTables).exec) f ≠ [] := by
  refine ⟨unnamed_each_fails, utf8 "一年一班" ++ [0], by decide, fun h => ?_, fun h => ?_⟩
  · exact absurd (nulFree_of_mem_getClasses _ h) (by decide)
  · have hlen := (shownIds_perm (Session.sorting .bytewise unnamedClassTables)
      (utf8 "一年一班" ++ [0])).length_eq
    rw [h] at hlen
    exact absurd hlen (by decide)

end StudentGrades
