import Mathlib.Data.Finmap
import StudentGrades.Libpq

/-!
# The data access layer

The two statements as the program assembles them, the decoding of their results
and the query functions over a connection. The connection is null or executes
statements; every status other than `PGRES_TUPLES_OK` gives an empty list.
-/

namespace StudentGrades
open ByteText

structure PivotRow where
  studentId : ℤ
  studentName : Bytes
  className : Bytes
  scores : Finmap fun _ : Bytes => ℚ
deriving DecidableEq

namespace Dao

def kSubjects : List Bytes := [utf8 "语文", utf8 "数学", utf8 "英语", utf8 "科学"]

def kSubjectCount : ℕ := 4

def getString (res : Option PGresult) (row col : ℕ) : Bytes :=
  match cell res row col with
  | none => []
  | some v => cstr v

def classesSql : Bytes := utf8 "SELECT DISTINCT class FROM students ORDER BY class"

def classesQuery : Query := ⟨classesSql, []⟩

def subjectColumn (i : ℕ) : Bytes :=
  utf8 ", MAX(CASE WHEN sc.subject = '" ++ kSubjects.getD i [] ++
    utf8 "' THEN sc.score END) AS \"subject_" ++ natText i ++ utf8 "\""

def pivotSql (classFilter : Bytes) : Bytes :=
  utf8 "SELECT s.id, s.name, s.class" ++
  (List.range kSubjectCount).flatMap subjectColumn ++
  utf8 " FROM students s" ++
  utf8 " LEFT JOIN scores sc ON s.id = sc.student_id" ++
  (if classFilter.isEmpty then [] else utf8 " WHERE s.class = $1") ++
  utf8 " GROUP BY s.id, s.name, s.class" ++
  utf8 " ORDER BY s.class, s.name"

/-- The parameter is passed as a C string, without a length. -/
def pivotQuery (classFilter : Bytes) : Query :=
  ⟨pivotSql classFilter, if classFilter.isEmpty then [] else [some (cstr classFilter)]⟩

def classesOf (res : Option PGresult) : List Bytes :=
  if PQresultStatus res ≠ .PGRES_TUPLES_OK then []
  else (List.range (PQntuples res)).map fun i => getString res i 0

/-- A NULL cell leaves its subject out of the map. -/
def insertScore (scores : Finmap fun _ : Bytes => ℚ) (subject : Bytes) (cell : Option ℚ) :
    Finmap fun _ : Bytes => ℚ :=
  match cell with
  | none => scores
  | some score => scores.insert subject score

def subjectScores (res : Option PGresult) (r : ℕ) : Finmap fun _ : Bytes => ℚ :=
  (List.range kSubjectCount).foldl (fun scores i =>
    insertScore scores (kSubjects.getD i []) ((cell res r (3 + i)).map atof)) ∅

def pivotRow (res : Option PGresult) (r : ℕ) : PivotRow where
  studentId := atoi (getString res r 0)
  studentName := getString res r 1
  className := getString res r 2
  scores := subjectScores res r

def pivotRowsOf (res : Option PGresult) : List PivotRow :=
  if PQresultStatus res ≠ .PGRES_TUPLES_OK then []
  else (List.range (PQntuples res)).map (pivotRow res)

def queryClasses (g_conn : Option Exec) : List Bytes :=
  match g_conn with
  | none => []
  | some exec => classesOf (exec classesQuery)

def queryPivot (g_conn : Option Exec) (classFilter : Bytes) : List PivotRow :=
  match g_conn with
  | none => []
  | some exec => pivotRowsOf (exec (pivotQuery classFilter))

end Dao
end StudentGrades
