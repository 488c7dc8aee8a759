import StudentGrades.SqlMeaning

/-!
# The two tables of the schema

A content of `students` and `scores` that satisfies the column types, the
primary key of `students` and the foreign key of `scores`. The column `id` of
`scores` and the two `created_at` columns are read by no statement and are left
out. A score is the number of hundredths of its `NUMERIC(5,2)`.
-/

namespace StudentGrades
open ByteText Sql

/-- Characters of a UTF-8 text: its bytes that continue no character. -/
def charCount (b : Bytes) : ℕ := b.countP fun c => c &&& 192 ≠ 128

structure Varchar (n : ℕ) where
  bytes : Bytes
  nulFree : NulFree bytes
  fits : charCount bytes ≤ n
deriving DecidableEq

/-- A literal text; `rfl` checks that it fits. -/
def Varchar.lit {n : ℕ} (s : String)
    (h : true = decide (NulFree (utf8 s) ∧ charCount (utf8 s) ≤ n)) : Varchar n :=
  ⟨utf8 s, (of_decide_eq_true h.symm).1, (of_decide_eq_true h.symm).2⟩

/-- A number of the column; its `NaN` is left out. -/
structure Numeric52 where
  hundredths : ℤ
  fits : hundredths.natAbs ≤ 99999
deriving DecidableEq

def Numeric52.value (x : Numeric52) : ℚ := x.hundredths / 100

structure Student where
  id : ℤ
  name : Varchar 100
  className : Varchar 50
deriving DecidableEq

structure Score where
  studentId : ℤ
  subject : Varchar 50
  score : Option Numeric52
deriving DecidableEq

structure Tables where
  students : List Student
  scores : List Score
  primaryKey : (students.map Student.id).Nodup
  foreignKey : ∀ sc ∈ scores, sc.studentId ∈ students.map Student.id

namespace Tables

def empty : Tables := ⟨[], [], List.nodup_nil, by simp⟩

def studentRow (s : Student) : Row :=
  [(utf8 "id", .int s.id), (utf8 "name", .text s.name.bytes),
    (utf8 "class", .text s.className.bytes)]

def scoreRow (sc : Score) : Row :=
  [(utf8 "student_id", .int sc.studentId), (utf8 "subject", .text sc.subject.bytes),
    (utf8 "score", ofNumeric 2 (sc.score.map Numeric52.hundredths))]

def catalog (db : Tables) : Catalog := fun t =>
  if t = utf8 "students" then db.students.map studentRow
  else if t = utf8 "scores" then db.scores.map scoreRow
  else []

def subjectScores (db : Tables) (id : ℤ) (subject : Bytes) : List ℤ :=
  db.scores.filterMap fun sc =>
    if sc.studentId = id ∧ sc.subject.bytes = subject then sc.score.map Numeric52.hundredths
    else none

theorem mem_subjectScores {db : Tables} {id h : ℤ} {subject : Bytes} :
    h ∈ db.subjectScores id subject ↔ ∃ sc ∈ db.scores, sc.studentId = id ∧
      sc.subject.bytes = subject ∧ ∃ x, sc.score = some x ∧ x.hundredths = h := by
  simp only [subjectScores, List.mem_filterMap, Option.ite_none_right_eq_some, Option.map_eq_some_iff,
    and_assoc]

end Tables
end StudentGrades
