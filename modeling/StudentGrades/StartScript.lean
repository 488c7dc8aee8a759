import StudentGrades.Schema
import StudentGrades.StatementSession

/-!
# The start script's database steps

The cluster holds the application's database and role; the database holds the
two tables with their serial counters. Statements run on it one by one, each with
its fate. A run of the script goes through the setup and the initialisation of
the database and leaves two marker files, which later runs trust. An existence
check succeeds only when its statement does and finds a row; a failing command
ends the script, a file of statements only when its session is cut off.
-/

namespace StudentGrades
open ByteText StatementSession

namespace Deploy

structure StudentsTable where
  rows : List Student
  nextId : ℤ
deriving DecidableEq

structure Database where
  students : Option StudentsTable
  scores : Option (List Score)
deriving DecidableEq

structure Cluster where
  database : Option Database
  role : Bool
deriving DecidableEq

inductive Stmt
  | createDatabase
  | createUser
  | grantAll
  | createStudents
  | createScores
  | insertStudent (name : Varchar 100) (className : Varchar 50)
  | insertScores (rows : List Score)
deriving DecidableEq

/-- A row takes the next serial number, which is spent even when it is taken. -/
def StudentsTable.insert (t : StudentsTable) (name : Varchar 100) (className : Varchar 50) :
    StudentsTable × Bool :=
  if t.nextId ∈ t.rows.map Student.id then ({ t with nextId := t.nextId + 1 }, false)
  else (⟨t.rows ++ [⟨t.nextId, name, className⟩], t.nextId + 1⟩, true)

/-- `CREATE TABLE IF NOT EXISTS` keeps an existing table; `scores` refers to `students`. -/
def Database.exec : Stmt → Database → Database × Bool
  | .createStudents, db => ({ db with students := some (db.students.getD ⟨[], 1⟩) }, true)
  | .createScores, db =>
    if db.scores.isSome then (db, true)
    else if db.students.isSome then ({ db with scores := some [] }, true)
    else (db, false)
  | .insertStudent name className, db =>
    match db.students with
    | none => (db, false)
    | some t => ({ db with students := some (t.insert name className).1 }, (t.insert name className).2)
  | .insertScores rows, db =>
    match db.students, db.scores with
    | some t, some old =>
      if ∀ sc ∈ rows, sc.studentId ∈ t.rows.map Student.id then
        ({ db with scores := some (old ++ rows) }, true)
      else (db, false)
    | _, _ => (db, false)
  | _, db => (db, false)

def Cluster.exec : Stmt → Cluster → Cluster × Bool
  | .createDatabase, c =>
    if c.database.isSome then (c, false) else ({ c with database := some ⟨none, none⟩ }, true)
  | .createUser, c => if c.role then (c, false) else ({ c with role := true }, true)
  | .grantAll, c => (c, c.database.isSome && c.role)
  | st, c =>
    match c.database with
    | none => (c, false)
    | some db => ({ c with database := some (db.exec st).1 }, (db.exec st).2)

/-- What a statement leaves behind that is taken back: a spent serial number. -/
def Database.undone : Stmt → Database → Database
  | .insertStudent _ _, db =>
    { db with students := db.students.map fun t => { t with nextId := t.nextId + 1 } }
  | _, db => db

def Cluster.undone (st : Stmt) (c : Cluster) : Cluster :=
  { c with database := c.database.map (Database.undone st) }

abbrev Server := Logged Cluster Stmt

def schemaFile : List Stmt := [.createStudents, .createScores]

def seedStudents : List (Varchar 100 × Varchar 50) :=
  [(.lit "张三" rfl, .lit "一年一班" rfl),
    (.lit "李四" rfl, .lit "一年一班" rfl),
    (.lit "王五" rfl, .lit "一年二班" rfl),
    (.lit "赵六" rfl, .lit "一年二班" rfl),
    (.lit "孙七" rfl, .lit "一年三班" rfl),
    (.lit "周八" rfl, .lit "一年三班" rfl)]

def seedScoresOf (id : ℤ) (chinese maths english science : Fin 101) : List Score :=
  let score (p : Fin 101) : Option Numeric52 := some ⟨p.val * 100, by omega⟩
  [⟨id, .lit "语文" rfl, score chinese⟩,
    ⟨id, .lit "数学" rfl, score maths⟩,
    ⟨id, .lit "英语" rfl, score english⟩,
    ⟨id, .lit "科学" rfl, score science⟩]

def seedScores : List Score :=
  seedScoresOf 1 85 90 78 92 ++ seedScoresOf 2 88 76 95 81 ++ seedScoresOf 3 92 88 72 85 ++
    seedScoresOf 4 79 95 88 90 ++ seedScoresOf 5 85 82 90 78 ++ seedScoresOf 6 91 87 84 93

def seedFile : List Stmt :=
  (seedStudents.map fun p => Stmt.insertStudent p.1 p.2) ++ [.insertScores seedScores]

structure Run where
  ready : Bool
  psqlFound : Bool
  adminPassword : Bool
  skipDbSetup : Bool
  skipDbInit : Bool
  forceReinit : Bool
  findDatabase : Fate
  createDatabase : Fate
  findUser : Fate
  createUser : Fate
  grant : Fate
  schema : List Fate
  seed : List Fate
deriving DecidableEq

structure State where
  server : Server
  dbSetupDone : Bool
  dbInitialized : Bool
deriving DecidableEq

/-- Without the client program every administrator command fails. -/
def Run.admin (r : Run) (fate : Fate) : Fate := if r.psqlFound then fate else .lostBefore

/-- An existence check holds when its query succeeds and finds a row. -/
def found (fate : Fate) (present : Bool) : Bool := fate == .ok && present

/-- `psql -c`: the script goes on only when the statement is done. -/
def command (fate : Fate) (st : Stmt) (s : Server) : Server × Bool :=
  let r := statement Cluster.exec Cluster.undone fate st s
  (r.1, r.2 == .done)

def databaseStep (r : Run) (s : Server) : Server × Bool :=
  if found (r.admin r.findDatabase) s.state.database.isSome then (s, true)
  else command (r.admin r.createDatabase) .createDatabase s

/-- The role is granted its privileges only when this run creates it. -/
def userStep (r : Run) (s : Server) : Server × Bool :=
  if found (r.admin r.findUser) s.state.role then (s, true)
  else
    let created := command (r.admin r.createUser) .createUser s
    if created.2 then command (r.admin r.grant) .grantAll created.1 else created

/-- `FORCE_REINIT` removes the marker of a step, and nothing else. -/
def Run.dropSetupMarker (r : Run) (s : State) : State :=
  { s with dbSetupDone := s.dbSetupDone && !r.forceReinit }

def Run.dropInitMarker (r : Run) (s : State) : State :=
  { s with dbInitialized := s.dbInitialized && !r.forceReinit }

@[simp] theorem server_dropSetupMarker (r : Run) (s : State) :
    (r.dropSetupMarker s).server = s.server := rfl

@[simp] theorem dbInitialized_dropSetupMarker (r : Run) (s : State) :
    (r.dropSetupMarker s).dbInitialized = s.dbInitialized := rfl

@[simp] theorem dbSetupDone_dropInitMarker (r : Run) (s : State) :
    (r.dropInitMarker s).dbSetupDone = s.dbSetupDone := rfl

@[simp] theorem server_dropInitMarker (r : Run) (s : State) :
    (r.dropInitMarker s).server = s.server := rfl

def setupDatabase (r : Run) (s : State) : State × Bool :=
  if r.skipDbSetup then (s, true)
  else
    let s := r.dropSetupMarker s
    if s.dbSetupDone then (s, true)
    else if !r.adminPassword then (s, true)
    else
      let db := databaseStep r s.server
      if db.2 then
        let user := userStep r db.1
        if user.2 then (⟨user.1, true, s.dbInitialized⟩, true)
        else ({ s with server := user.1 }, false)
      else ({ s with server := db.1 }, false)

def entersSetup (r : Run) (s : State) : Bool :=
  !r.skipDbSetup && !(r.dropSetupMarker s).dbSetupDone && r.adminPassword

theorem setupDatabase_cases (r : Run) (s : State) :
    (setupDatabase r s = (s, true) ∨ setupDatabase r s = (r.dropSetupMarker s, true)) ∨
    (entersSetup r s ∧ (databaseStep r s.server).2 = false ∧
      setupDatabase r s =
        ({ r.dropSetupMarker s with server := (databaseStep r s.server).1 }, false)) ∨
    (entersSetup r s ∧ (databaseStep r s.server).2 = true ∧
      (((userStep r (databaseStep r s.server).1).2 = false ∧
        setupDatabase r s = ({ r.dropSetupMarker s with
          server := (userStep r (databaseStep r s.server).1).1 }, false)) ∨
      ((userStep r (databaseStep r s.server).1).2 = true ∧
        setupDatabase r s = (⟨(userStep r (databaseStep r s.server).1).1, true,
          s.dbInitialized⟩, true)))) := by
  cases hskip : r.skipDbSetup with
  | true => exact .inl (.inl (by simp [setupDatabase, hskip]))
  | false =>
    cases hmarker : (r.dropSetupMarker s).dbSetupDone with
    | true => exact .inl (.inr (by simp [setupDatabase, hskip, hmarker]))
    | false =>
      cases hpassword : r.adminPassword with
      | false => exact .inl (.inr (by simp [setupDatabase, hskip, hmarker, hpassword]))
      | true =>
        have henters : entersSetup r s := by simp [entersSetup, hskip, hmarker, hpassword]
        cases hdb : (databaseStep r s.server).2 with
        | false =>
          exact .inr (.inl ⟨henters, rfl, by simp [setupDatabase, hskip, hmarker, hpassword, hdb]⟩)
        | true =>
          refine .inr (.inr ⟨henters, rfl, ?_⟩)
          cases huser : (userStep r (databaseStep r s.server).1).2 with
          | false =>
            exact .inl ⟨rfl, by simp [setupDatabase, hskip, hmarker, hpassword, hdb, huser]⟩
          | true =>
            exact .inr ⟨rfl, by simp [setupDatabase, hskip, hmarker, hpassword, hdb, huser]⟩

/-- `psql -f`: the role connects to the database, or nothing is sent. -/
def psqlFile (file : List Stmt) (fates : List Fate) (s : Server) : Server × Bool :=
  if s.state.database.isSome && s.state.role then
    let r := session Cluster.exec Cluster.undone file fates s
    (r.1, ExitsZero r.2)
  else (s, false)

def schemaStep (r : Run) (s : Server) : Server × Bool := psqlFile schemaFile r.schema s

def seedStep (r : Run) (s : Server) : Server × Bool := psqlFile seedFile r.seed s

inductive InitResult | skipped | completed | died
deriving DecidableEq

def initDatabase (r : Run) (s : State) : State × InitResult :=
  if r.skipDbInit then (s, .skipped)
  else
    let s := r.dropInitMarker s
    if s.dbInitialized then (s, .skipped)
    else if !r.psqlFound then (s, .skipped)
    else
      let schema := schemaStep r s.server
      if schema.2 then
        let seed := seedStep r schema.1
        if seed.2 then (⟨seed.1, s.dbSetupDone, true⟩, .completed)
        else ({ s with server := seed.1 }, .died)
      else ({ s with server := schema.1 }, .died)

def entersInit (r : Run) (s : State) : Bool :=
  !r.skipDbInit && !(r.dropInitMarker s).dbInitialized && r.psqlFound

theorem initDatabase_cases (r : Run) (s : State) :
    (initDatabase r s = (s, .skipped) ∨ initDatabase r s = (r.dropInitMarker s, .skipped)) ∨
    (entersInit r s ∧ (schemaStep r s.server).2 = false ∧
      initDatabase r s = ({ r.dropInitMarker s with server := (schemaStep r s.server).1 }, .died)) ∨
    (entersInit r s ∧ (schemaStep r s.server).2 = true ∧
      (((seedStep r (schemaStep r s.server).1).2 = false ∧
        initDatabase r s = ({ r.dropInitMarker s with
          server := (seedStep r (schemaStep r s.server).1).1 }, .died)) ∨
      ((seedStep r (schemaStep r s.server).1).2 = true ∧
        initDatabase r s = (⟨(seedStep r (schemaStep r s.server).1).1, s.dbSetupDone, true⟩,
          .completed)))) := by
  cases hskip : r.skipDbInit with
  | true => exact .inl (.inl (by simp [initDatabase, hskip]))
  | false =>
    cases hmarker : (r.dropInitMarker s).dbInitialized with
    | true => exact .inl (.inr (by simp [initDatabase, hskip, hmarker]))
    | false =>
      cases hpsql : r.psqlFound with
      | false => exact .inl (.inr (by simp [initDatabase, hskip, hmarker, hpsql]))
      | true =>
        have henters : entersInit r s := by simp [entersInit, hskip, hmarker, hpsql]
        cases hschema : (schemaStep r s.server).2 with
        | false =>
          exact .inr (.inl ⟨henters, rfl, by simp [initDatabase, hskip, hmarker, hpsql, hschema]⟩)
        | true =>
          refine .inr (.inr ⟨henters, rfl, ?_⟩)
          cases hseed : (seedStep r (schemaStep r s.server).1).2 with
          | false =>
            exact .inl ⟨rfl, by simp [initDatabase, hskip, hmarker, hpsql, hschema, hseed]⟩
          | true =>
            exact .inr ⟨rfl, by simp [initDatabase, hskip, hmarker, hpsql, hschema, hseed]⟩

def startRun (r : Run) (s : State) : State × InitResult :=
  if r.ready then
    let setup := setupDatabase r s
    if setup.2 then initDatabase r setup.1 else (setup.1, .died)
  else (s, .died)

def startRuns (s : State) (runs : List Run) : State := runs.foldl (fun s r => (startRun r s).1) s

end Deploy
end StudentGrades
