import StudentGrades.Dao

/-!
# The page the program replaces

`index.php` trims the class parameter, sends the same two statements, with the
subjects as column names, and formats a score by cutting the suffix `.00` off its
decimal text. The driver throws where a statement gives no rows.
-/

namespace StudentGrades
open ByteText

namespace IndexPhp

def subjects : List Bytes := [utf8 "语文", utf8 "数学", utf8 "英语", utf8 "科学"]

/-- The bytes that PHP's `trim` strips by default. -/
def isTrimByte (b : UInt8) : Bool := b == 32 || b == 9 || b == 10 || b == 13 || b == 0 || b == 11

def trim (s : Bytes) : Bytes := ((s.dropWhile isTrimByte).reverse.dropWhile isTrimByte).reverse

/-- The filter from `$_GET['class']`, `none` where the parameter is absent. -/
def classFilter (param : Option Bytes) : Bytes := trim (param.getD [])

def quote (s : Bytes) : Bytes :=
  39 :: (s.flatMap fun b => if b = 39 then [39, 39] else [b]) ++ [39]

def subjectColumn (subject : Bytes) : Bytes :=
  utf8 ", MAX(CASE WHEN sc.subject = " ++ quote subject ++ utf8 " THEN sc.score END) AS \"" ++
    subject ++ utf8 "\""

/-- The source writes the placeholder `:class`. -/
def pivotSql (placeholder classFilter : Bytes) : Bytes :=
  utf8 "SELECT s.id, s.name, s.class" ++
  subjects.flatMap subjectColumn ++
  utf8 " FROM students s" ++
  utf8 " LEFT JOIN scores sc ON s.id = sc.student_id" ++
  (if classFilter = [] then [] else utf8 " WHERE s.class = " ++ placeholder) ++
  utf8 " GROUP BY s.id, s.name, s.class" ++
  utf8 " ORDER BY s.class, s.name"

/-- What the driver sends: a positional placeholder and its value as a C string. -/
def pivotQuery (classFilter : Bytes) : Query :=
  ⟨pivotSql (utf8 "$1") classFilter, if classFilter = [] then [] else [some (cstr classFilter)]⟩

def classesQuery : Query := ⟨utf8 "SELECT DISTINCT class FROM students ORDER BY class", []⟩

abbrev AssocRow := List (Bytes × Option Bytes)

def columnNames : List Bytes := [utf8 "id", utf8 "name", utf8 "class"] ++ subjects

def assocRow (names : List Bytes) (res : Option PGresult) (r : ℕ) : AssocRow :=
  (List.range names.length).map fun c => (names.getD c [], cell res r c)

def AssocRow.column (row : AssocRow) (name : Bytes) : Option Bytes := (row.lookup name).join

/-- The fetched rows, `none` where the driver throws. -/
def fetchAll (names : List Bytes) (res : Option PGresult) : Option (List AssocRow) :=
  if PQresultStatus res ≠ .PGRES_TUPLES_OK then none
  else some ((List.range (PQntuples res)).map (assocRow names res))

def strEndsWith (s suffix : Bytes) : Bool := suffix.isSuffixOf s

def formatScore : Option Bytes → Bytes
  | none => utf8 "-"
  | some score => if strEndsWith score (utf8 ".00") then score.take (score.length - 3) else score

structure Page where
  options : List (Bytes × Bool)
  rows : List AssocRow

def page (pdo : Exec) (param : Option Bytes) : Option Page := do
  let classFilter := classFilter param
  let classes ← fetchAll [utf8 "class"] (pdo classesQuery)
  let rows ← fetchAll columnNames (pdo (pivotQuery classFilter))
  return {
    options := classes.map fun c =>
      let name := (AssocRow.column c (utf8 "class")).getD []
      (name, decide (name = classFilter))
    rows := rows
  }

end IndexPhp
end StudentGrades
