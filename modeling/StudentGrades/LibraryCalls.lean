import StudentGrades.ClassList
import StudentGrades.Connection
import StudentGrades.Lifecycle
import StudentGrades.PivotRows

/-!
# The calls to the client library

The data access layer once more, with every call it makes: statements and the results
they return, the reads of a result, `PQclear`, and the connection of a whole program
around them. The answers to the statements are arbitrary, and change with time. The
values are those of the functions without calls.
-/

namespace StudentGrades
open ByteText Lifecycle

namespace Calls

inductive Access
  | resultStatus
  | ntuples
  | getisnull (row col : ℕ)
  | getvalue (row col : ℕ)
deriving DecidableEq

/-- A result is named by the number of its statement. -/
inductive Call
  | connectdb
  | status
  | exec (res : ℕ) (q : Query)
  | access (res : ℕ) (a : Access)
  | clear (res : ℕ)
  | finish
deriving DecidableEq

/-- What a call does to the connection, named `none`, and to its result. -/
def Call.acts : Call → Trace (Option ℕ)
  | .connectdb => [(none, .acquire)]
  | .status => [(none, .read)]
  | .exec res _ => [(none, .read), (some res, .acquire)]
  | .access res _ => [(some res, .read)]
  | .clear res => [(some res, .release)]
  | .finish => [(none, .release)]

/-- The status of a handle the server would give, and its answer to each statement. -/
structure Client where
  conn : ConnStatusType
  answers : ℕ → Exec
  g_conn : Option ConnStatusType
  sent : ℕ
  calls : List Call

def Client.start (conn : ConnStatusType) (answers : ℕ → Exec) : Client := ⟨conn, answers, none, 0, []⟩

def Client.log (s : Client) (cs : List Call) : Client := { s with calls := s.calls ++ cs }

abbrev Pq := StateM Client

structure ResultPtr where
  number : ℕ
  res : Option PGresult

def PQconnectdb : Pq Unit := fun s => ((), { s.log [.connectdb] with g_conn := some s.conn })

def PQstatus : Pq ConnStatusType := fun s =>
  (s.g_conn.getD .CONNECTION_BAD, s.log [.status])

def PQfinish : Pq Unit := fun s => ((), s.log [.finish])

def PQexec (q : Query) : Pq ResultPtr := fun s =>
  (⟨s.sent, s.answers s.sent q⟩, { s.log [.exec s.sent q] with sent := s.sent + 1 })

def access (p : ResultPtr) (a : Access) : Pq Unit := fun s => ((), s.log [.access p.number a])

def PQresultStatus (p : ResultPtr) : Pq ExecStatusType := do
  access p .resultStatus
  return StudentGrades.PQresultStatus p.res

def PQntuples (p : ResultPtr) : Pq ℕ := do
  access p .ntuples
  return StudentGrades.PQntuples p.res

def PQgetisnull (p : ResultPtr) (row col : ℕ) : Pq Bool := do
  access p (.getisnull row col)
  return (cell p.res row col).isNone

def PQgetvalue (p : ResultPtr) (row col : ℕ) : Pq Bytes := do
  access p (.getvalue row col)
  return (cell p.res row col).getD []

def PQclear (p : ResultPtr) : Pq Unit := fun s => ((), s.log [.clear p.number])

def connectDb : Pq Bool := do
  PQconnectdb
  return (← PQstatus) = .CONNECTION_OK

def disconnectDb : Pq Unit := do
  if (← get).g_conn.isSome then
    PQfinish
    modify fun s => { s with g_conn := none }

def getString (res : ResultPtr) (row col : ℕ) : Pq Bytes := do
  if ← PQgetisnull res row col then
    return []
  else
    return cstr (← PQgetvalue res row col)

def rowsOf {α : Type} (res : ResultPtr) (row : ResultPtr → ℕ → Pq α) : Pq (List α) := do
  if (← PQresultStatus res) ≠ .PGRES_TUPLES_OK then
    PQclear res
    return []
  else
    let rowCount ← PQntuples res
    let rows ← (List.range rowCount).mapM (row res)
    PQclear res
    return rows

def queryClasses : Pq (List Bytes) := do
  if (← get).g_conn.isNone then
    return []
  else
    let res ← PQexec Dao.classesQuery
    rowsOf res fun res i => getString res i 0

def readScore (res : ResultPtr) (r : ℕ) (scores : Finmap fun _ : Bytes => ℚ) (i : ℕ) :
    Pq (Finmap fun _ : Bytes => ℚ) := do
  if ← PQgetisnull res r (3 + i) then
    return scores
  else
    let score := atof (← PQgetvalue res r (3 + i))
    return scores.insert (Dao.kSubjects.getD i []) score

def readRow (res : ResultPtr) (r : ℕ) : Pq PivotRow := do
  let studentId := atoi (← getString res r 0)
  let studentName ← getString res r 1
  let className ← getString res r 2
  let scores ← (List.range Dao.kSubjectCount).foldlM (readScore res r) ∅
  return ⟨studentId, studentName, className, scores⟩

def queryPivot (classFilter : Bytes) : Pq (List PivotRow) := do
  if (← get).g_conn.isNone then
    return []
  else
    let res ← PQexec (Dao.pivotQuery classFilter)
    rowsOf res readRow

def handleIndex (classFilter : Bytes) : Pq Bytes := do
  let classes ← queryClasses
  let rows ← queryPivot classFilter
  return Template.renderPage classes rows classFilter

/-- The accept loop of the second entry, with the pages it prints. -/
def mainD (requests : List Bytes) : Pq (List Bytes) := do
  if ← connectDb then
    let pages ← requests.mapM handleIndex
    disconnectDb
    return pages
  else
    return []

def Does {α : Type} (m : Pq α) (v : α) (cs : List Call) : Prop := ∀ s, m s = (v, s.log cs)

@[simp] theorem log_log (s : Client) (as bs : List Call) : (s.log as).log bs = s.log (as ++ bs) := by
  simp [Client.log]

@[simp] theorem log_nil (s : Client) : s.log [] = s := by simp [Client.log]

variable {α β : Type}

theorem Does.pure (v : α) : Does (pure v) v [] := fun s => by
  rw [log_nil]
  rfl

theorem Does.bind {m : Pq α} {v : α} {as : List Call} {f : α → Pq β} {w : β} {bs : List Call}
    (hm : Does m v as) (hf : Does (f v) w bs) : Does (m >>= f) w (as ++ bs) := by
  intro s
  change f (m s).1 (m s).2 = _
  rw [hm s, hf, log_log]

theorem Does.mapM {f : α → Pq β} {g : α → β} {cs : α → List Call} {l : List α}
    (h : ∀ a ∈ l, Does (f a) (g a) (cs a)) : Does (l.mapM f) (l.map g) (l.flatMap cs) := by
  induction l with
  | nil => exact .pure _
  | cons a l ih =>
    rw [List.mapM_cons]
    have hrest : Does (do let bs ← l.mapM f; Pure.pure (g a :: bs)) (g a :: l.map g)
        (l.flatMap cs ++ []) := (ih fun b hb => h b (by simp [hb])).bind (.pure _)
    rw [List.append_nil] at hrest
    exact (h a (by simp)).bind (f := fun b => do let bs ← l.mapM f; Pure.pure (b :: bs)) hrest

theorem Does.foldlM {f : β → α → Pq β} {g : β → α → β} {cs : α → List Call} {l : List α}
    (h : ∀ b, ∀ a ∈ l, Does (f b a) (g b a) (cs a)) (b : β) :
    Does (l.foldlM f b) (l.foldl g b) (l.flatMap cs) := by
  induction l generalizing b with
  | nil => exact .pure b
  | cons a l ih =>
    rw [List.foldlM_cons]
    exact (h b a (by simp)).bind (ih (fun c x hx => h c x (by simp [hx])) (g b a))

def cellReads (res : Option PGresult) (row col : ℕ) : List Access :=
  .getisnull row col :: if (cell res row col).isNone then [] else [.getvalue row col]

def rowReads (width : ℕ) (res : Option PGresult) (r : ℕ) : List Access :=
  (List.range width).flatMap (cellReads res r)

/-- The rows are read only of a result that holds tuples. -/
def tableReads (width : ℕ) (res : Option PGresult) : List Access :=
  .resultStatus :: if StudentGrades.PQresultStatus res ≠ .PGRES_TUPLES_OK then []
    else .ntuples :: (List.range (StudentGrades.PQntuples res)).flatMap (rowReads width res)

def reads (n : ℕ) (as : List Access) : List Call := as.map (.access n)

theorem reads_append (n : ℕ) (as bs : List Access) : reads n (as ++ bs) = reads n as ++ reads n bs :=
  List.map_append

theorem reads_flatMap {γ : Type} (n : ℕ) (f : γ → List Access) (cs : List γ) :
    reads n (cs.flatMap f) = cs.flatMap fun c => reads n (f c) := by
  induction cs with
  | nil => rfl
  | cons c cs ih => rw [List.flatMap_cons, reads_append, ih, List.flatMap_cons]

theorem does_read {α : Type} (p : ResultPtr) (a : Access) (v : α) :
    Does (do access p a; return v) v (reads p.number [a]) := fun _ => rfl

theorem does_cell {α : Type} (p : ResultPtr) (row col : ℕ) (null : α) (value : Bytes → α) :
    Does (do if ← PQgetisnull p row col then return null else return value (← PQgetvalue p row col))
      (match cell p.res row col with
        | none => null
        | some b => value b)
      (reads p.number (cellReads p.res row col)) := by
  have hnull := does_read p (.getisnull row col) (cell p.res row col).isNone
  rw [cellReads, ← List.singleton_append, reads_append]
  refine hnull.bind ?_
  cases hcell : cell p.res row col with
  | none => exact .pure null
  | some b =>
    have hvalue : Does (PQgetvalue p row col) ((cell p.res row col).getD [])
        (reads p.number [.getvalue row col]) := does_read p (.getvalue row col) _
    have hcall := hvalue.bind (f := fun b => return value b) (.pure _)
    rw [hcell, List.append_nil] at hcall
    exact hcall

theorem does_getString (p : ResultPtr) (row col : ℕ) :
    Does (getString p row col) (Dao.getString p.res row col)
      (reads p.number (cellReads p.res row col)) := does_cell p row col [] cstr

theorem does_readScore (p : ResultPtr) (r : ℕ) (scores : Finmap fun _ : Bytes => ℚ) (i : ℕ) :
    Does (readScore p r scores i)
      (Dao.insertScore scores (Dao.kSubjects.getD i []) ((cell p.res r (3 + i)).map atof))
      (reads p.number (cellReads p.res r (3 + i))) := by
  have h := does_cell p r (3 + i) scores fun b => scores.insert (Dao.kSubjects.getD i []) (atof b)
  cases hcell : cell p.res r (3 + i) with
  | none =>
    rw [hcell] at h
    exact h
  | some b =>
    rw [hcell] at h
    exact h

def pivotWidth : ℕ := 3 + Dao.kSubjectCount

theorem rowReads_pivot (res : Option PGresult) (r : ℕ) :
    rowReads pivotWidth res r = cellReads res r 0 ++ (cellReads res r 1 ++ (cellReads res r 2 ++
      (List.range Dao.kSubjectCount).flatMap fun i => cellReads res r (3 + i))) := by
  rw [rowReads, pivotWidth, List.range_add, List.flatMap_append, List.flatMap_map]
  simp [List.range_succ, List.append_assoc]

theorem does_readRow (p : ResultPtr) (r : ℕ) :
    Does (readRow p r) (Dao.pivotRow p.res r) (reads p.number (rowReads pivotWidth p.res r)) := by
  have hscores := Does.foldlM (l := List.range Dao.kSubjectCount)
    (fun scores i _ => does_readScore p r scores i) ∅
  have hrow := (does_getString p r 0).bind (f := fun t => do
    let name ← getString p r 1
    let className ← getString p r 2
    let scores ← (List.range Dao.kSubjectCount).foldlM (readScore p r) ∅
    return PivotRow.mk (atoi t) name className scores)
    ((does_getString p r 1).bind ((does_getString p r 2).bind (hscores.bind (.pure _))))
  rw [rowReads_pivot, reads_append, reads_append, reads_append, reads_flatMap]
  rw [List.append_nil] at hrow
  exact hrow

def block (n : ℕ) (q : Query) (as : List Access) : List Call := .exec n q :: (reads n as ++ [.clear n])

def Client.executed (s : Client) (q : Query) (as : List Access) : Client :=
  { s.log (block s.sent q as) with sent := s.sent + 1 }

theorem does_rowsOf {α : Type} {row : ResultPtr → ℕ → Pq α} {g : ℕ → α} {width : ℕ}
    (p : ResultPtr) (h : ∀ r, Does (row p r) (g r) (reads p.number (rowReads width p.res r))) :
    Does (rowsOf p row)
      (if StudentGrades.PQresultStatus p.res ≠ .PGRES_TUPLES_OK then []
        else (List.range (StudentGrades.PQntuples p.res)).map g)
      (reads p.number (tableReads width p.res) ++ [.clear p.number]) := by
  have hclear {γ : Type} (v : γ) : Does (do PQclear p; return v) v [.clear p.number] := fun _ => rfl
  have hstatus := does_read p .resultStatus (StudentGrades.PQresultStatus p.res)
  by_cases hs : StudentGrades.PQresultStatus p.res ≠ .PGRES_TUPLES_OK
  · rw [tableReads, if_pos hs, if_pos hs]
    refine @Does.bind _ _ _ _ _ _ _ [.clear p.number] hstatus ?_
    rw [if_pos hs]
    exact hclear []
  · rw [tableReads, if_neg hs, if_neg hs, ← List.singleton_append, reads_append, List.append_assoc]
    refine hstatus.bind ?_
    rw [if_neg hs, ← List.singleton_append, reads_append, reads_flatMap, List.append_assoc]
    have hrows := does_read p .ntuples (StudentGrades.PQntuples p.res)
    exact hrows.bind ((Does.mapM fun r _ => h r).bind (hclear _))

theorem executed_eq (s : Client) (q : Query) (as : List Access) :
    ({ s.log [.exec s.sent q] with sent := s.sent + 1 } : Client).log
      (reads s.sent as ++ [.clear s.sent]) = s.executed q as := by
  simp [Client.log, Client.executed, block]

theorem query_run {α : Type} {row : ResultPtr → ℕ → Pq α} {g : Option PGresult → ℕ → α} {width : ℕ}
    (h : ∀ p r, Does (row p r) (g p.res r) (reads p.number (rowReads width p.res r))) (q : Query)
    {s : Client} (hs : s.g_conn ≠ none) :
    (do
      if (← get).g_conn.isNone then
        return []
      else
        let res ← PQexec q
        rowsOf res row : Pq (List α)) s =
      (if StudentGrades.PQresultStatus (s.answers s.sent q) ≠ .PGRES_TUPLES_OK then []
        else (List.range (StudentGrades.PQntuples (s.answers s.sent q))).map (g (s.answers s.sent q)),
        s.executed q (tableReads width (s.answers s.sent q))) := by
  have hopen : ¬ s.g_conn.isNone := by simpa using hs
  have hrows := does_rowsOf ⟨s.sent, s.answers s.sent q⟩ (h _)
    { s.log [.exec s.sent q] with sent := s.sent + 1 }
  change (if s.g_conn.isNone then _ else _ : Pq _) s = _
  rw [if_neg hopen, ← executed_eq]
  exact hrows

theorem queryClasses_run {s : Client} (h : s.g_conn ≠ none) :
    queryClasses s = (Dao.classesOf (s.answers s.sent Dao.classesQuery),
      s.executed Dao.classesQuery (tableReads 1 (s.answers s.sent Dao.classesQuery))) := by
  have hclass (p : ResultPtr) (r : ℕ) :
      Does (getString p r 0) (Dao.getString p.res r 0) (reads p.number (rowReads 1 p.res r)) := by
    have hone : rowReads 1 p.res r = cellReads p.res r 0 := List.append_nil _
    rw [hone]
    exact does_getString p r 0
  exact query_run (g := fun res i => Dao.getString res i 0)
    hclass Dao.classesQuery h

theorem queryPivot_run {s : Client} (h : s.g_conn ≠ none) (classFilter : Bytes) :
    queryPivot classFilter s = (Dao.pivotRowsOf (s.answers s.sent (Dao.pivotQuery classFilter)),
      s.executed (Dao.pivotQuery classFilter)
        (tableReads pivotWidth (s.answers s.sent (Dao.pivotQuery classFilter)))) :=
  query_run (g := Dao.pivotRow) does_readRow (Dao.pivotQuery classFilter) h

end Calls
end StudentGrades
