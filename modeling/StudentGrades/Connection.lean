import StudentGrades.FailedQueries

/-!
# The life of the database connection

`connectDb` stores the handle that the library returns and reports whether it is
usable. Nothing replaces the handle afterwards: once the server went down or
dropped the session, the handle stays broken, and every statement on it fails.
A run is a sequence of events after a successful `connectDb`; each request event
carries the content at that time and a server session on it.
-/

namespace StudentGrades
open ByteText Sql Dao Service

inductive ConnStatusType
  | CONNECTION_OK
  | CONNECTION_BAD
deriving DecidableEq

structure Link where
  serverUp : Bool
  g_conn : Option ConnStatusType
deriving DecidableEq

namespace Link

/-- A handle for an attempt to connect; `accepted` says whether a running server
accepts the settings. -/
def PQconnectdb (w : Link) (accepted : Bool) : ConnStatusType :=
  if w.serverUp ∧ accepted then .CONNECTION_OK else .CONNECTION_BAD

def connectDb (w : Link) (accepted : Bool) : Bool × Link :=
  let conn := w.PQconnectdb accepted
  (conn = .CONNECTION_OK, { w with g_conn := some conn })

def breakHandle (w : Link) : Link := { w with g_conn := w.g_conn.map fun _ => .CONNECTION_BAD }

end Link

structure BrokenConn where
  exec : Exec
  fails : ∀ q, PQresultStatus (exec q) ≠ .PGRES_TUPLES_OK

inductive Event (col : Collation)
  | serverDown
  | serverUp
  | dropSession
  | request (db : Tables) (session : Session col db) (classFilter : Bytes)

structure Answered (col : Collation) where
  serverUp : Bool
  db : Tables
  session : Session col db
  classFilter : Bytes
  classes : List Bytes
  rows : List PivotRow

variable {col : Collation}

def Link.conn (broken : BrokenConn) (w : Link) (exec : Exec) : Option Exec :=
  w.g_conn.map fun
    | .CONNECTION_OK => exec
    | .CONNECTION_BAD => broken.exec

def Link.step (broken : BrokenConn) (w : Link) : Event col → Link × List (Answered col)
  | .serverDown => ({ w with serverUp := false }.breakHandle, [])
  | .serverUp => ({ w with serverUp := true }, [])
  | .dropSession => (w.breakHandle, [])
  | .request db session f =>
    let conn := w.conn broken session.exec
    (w, [⟨w.serverUp, db, session, f, getClasses conn, getStudentScores conn f⟩])

def Link.run (broken : BrokenConn) (w : Link) (events : List (Event col)) :
    Link × List (Answered col) :=
  Transducer.run (Link.step broken) w events

def Answered.Current (a : Answered col) : Prop :=
  a.serverUp = true → a.classes = getClasses (some a.session.exec) ∧
    a.rows = getStudentScores (some a.session.exec) a.classFilter

def Event.breaks : Event col → Bool
  | .serverDown | .dropSession => true
  | .serverUp | .request _ _ _ => false

def serverUpAfter : List (Event col) → Bool → Bool
  | [], up => up
  | .serverDown :: es, _ => serverUpAfter es false
  | .serverUp :: es, _ => serverUpAfter es true
  | .dropSession :: es, up => serverUpAfter es up
  | .request _ _ _ :: es, up => serverUpAfter es up

/-- Every request handled while the server is up comes before the first breaking
event, or finds tables without students. -/
def RequestsBeforeBreak (events : List (Event col)) : Prop :=
  ∀ pre db session f post, events = pre ++ Event.request db session f :: post →
    serverUpAfter pre true = true → (∀ e ∈ pre, e.breaks = false) ∨ db.students = []

theorem connectDb_true {w : Link} {accepted : Bool} (h : (w.connectDb accepted).1 = true) :
    (w.connectDb accepted).2 = ⟨true, some .CONNECTION_OK⟩ := by
  simp only [Link.connectDb, Link.PQconnectdb, decide_eq_true_eq, ite_eq_left_iff, reduceCtorEq,
    imp_false, not_not] at h
  simp [Link.connectDb, Link.PQconnectdb, h]

theorem run_g_conn (broken : BrokenConn) (events : List (Event col)) (up : Bool)
    (st : ConnStatusType) :
    (Link.run broken ⟨up, some st⟩ events).1 =
      ⟨serverUpAfter events up,
        some (if events.any Event.breaks then .CONNECTION_BAD else st)⟩ := by
  induction events generalizing up st with
  | nil => rfl
  | cons e es ih =>
    simp only [Link.run] at ih
    cases e <;>
      simp [Link.run, Transducer.run, Link.step, Link.breakHandle, ih, serverUpAfter, Event.breaks]

theorem queries_broken (broken : BrokenConn) (f : Bytes) :
    getClasses (some broken.exec) = [] ∧ getStudentScores (some broken.exec) f = [] := by
  simp [getClasses, queryClasses, classesOf, getStudentScores, queryPivot, pivotRowsOf,
    broken.fails]

theorem request_current (broken : BrokenConn) {w : Link} {st : ConnStatusType}
    (hw : w.g_conn = some st) {db : Tables} (session : Session col db) (f : Bytes) :
    (∀ a ∈ (w.step broken (.request db session f)).2, a.Current) ↔
      (w.serverUp = true → st = .CONNECTION_OK ∨ db.students = []) := by
  have hbroken := queries_broken broken f
  simp only [Link.step, List.mem_singleton, forall_eq, Answered.Current, Link.conn, hw,
    Option.map_some]
  apply imp_congr_right
  intro _
  cases st with
  | CONNECTION_OK => simp
  | CONNECTION_BAD =>
    simp only [hbroken, reduceCtorEq, false_or]
    rw [eq_comm, getClasses_eq_nil, and_iff_left_iff_imp]
    intro hs
    exact ((getStudentScores_eq_nil_iff session f).2 (by simp [shownStudents, hs])).symm

/-- After a successful `connectDb`, all requests of a run that are handled while
the server is up are answered from the current content exactly when each of them
precedes every loss of the connection or finds no students. -/
theorem run_current_iff (broken : BrokenConn) {w : Link} {accepted : Bool}
    (h : (w.connectDb accepted).1 = true) (events : List (Event col)) :
    (∀ a ∈ (Link.run broken (w.connectDb accepted).2 events).2, a.Current) ↔
      RequestsBeforeBreak events := by
  rw [connectDb_true h]
  have hstate (pre : List (Event col)) := run_g_conn broken pre true .CONNECTION_OK
  have hreq (pre : List (Event col)) {db : Tables} (session : Session col db) (f : Bytes) :
      (∀ a ∈ ((Link.run broken ⟨true, some .CONNECTION_OK⟩ pre).1.step broken
          (.request db session f)).2, a.Current) ↔
        (serverUpAfter pre true = true → (∀ e ∈ pre, e.breaks = false) ∨ db.students = []) := by
    rw [hstate pre, request_current broken rfl session f]
    simp
  constructor
  · intro hall pre db session f post he
    refine (hreq pre session f).1 fun a ha => hall a ?_
    exact Transducer.mem_run.2 ⟨pre, _, post, he, ha⟩
  · intro hcond a ha
    obtain ⟨pre, e, post, he, ha⟩ := Transducer.mem_run.1 ha
    cases e with
    | request db session f => exact (hreq pre session f).2 (hcond pre db session f post he) a ha
    | serverDown => cases ha
    | serverUp => cases ha
    | dropSession => cases ha

def BrokenConn.noResult : BrokenConn := ⟨fun _ => none, fun _ => by decide⟩

def restartRun : List (Event .bytewise) :=
  [.serverDown, .serverUp, .request sampleTables (Session.sorting .bytewise sampleTables) []]

theorem run_current_iff_restart :
    (Link.connectDb ⟨true, none⟩ true).1 = true ∧
      ((∀ a ∈ (Link.run .noResult (Link.connectDb ⟨true, none⟩ true).2 restartRun).2, a.Current) ↔
        RequestsBeforeBreak restartRun) :=
  ⟨rfl, run_current_iff .noResult rfl restartRun⟩

/-- After a restart of the server a request on tables with students is handled
while the server is up, and answered from nothing. -/
theorem restart_not_current :
    (Link.connectDb ⟨true, none⟩ true).1 = true ∧
      ∃ a ∈ (Link.run .noResult (Link.connectDb ⟨true, none⟩ true).2 restartRun).2,
        a.serverUp = true ∧ a.db.students ≠ [] ∧ a.classes = [] ∧ ¬ a.Current := by
  have hempty := queries_broken BrokenConn.noResult []
  refine ⟨rfl, ⟨true, sampleTables, Session.sorting .bytewise sampleTables, [], [], []⟩, ?_, rfl,
    by decide, rfl, fun h => ?_⟩
  · simp only [restartRun, connectDb_true (show (Link.connectDb ⟨true, none⟩ true).1 = true from rfl),
      Link.run, Transducer.run, Link.step, Link.breakHandle, Link.conn, Option.map_some, hempty,
      List.append_nil, List.nil_append, List.mem_singleton]
  · have hstudents := (getClasses_eq_nil _).1 (h rfl).1.symm
    exact absurd hstudents (by decide)

end StudentGrades
