import StudentGrades.Markers

/-!
# How often the seed rows are there

Runs that are cut off by lost connections and reject nothing, started on a blank
database. The seed file begins with its first student, so a table of students is
empty or holds that student already; a completed initialisation then appends all
six students and all scores. The rows are there exactly once when the run found
no student, and twice or more otherwise, since nothing ever empties the tables.
-/

namespace StudentGrades
open ByteText StatementSession

namespace Deploy

/-- A run that may be cut off between two statements of either file, where none is rejected. -/
structure CutRun extends Run where
  schemaAccepted : ∀ fate ∈ schema, fate.whole = true
  seedAccepted : ∀ fate ∈ seed, fate.whole = true

def blankState (created role : Bool) : State :=
  .fresh ⟨if created then some ⟨none, none⟩ else none, role⟩

def afterRuns (created role : Bool) (runs : List CutRun) : State :=
  startRuns (blankState created role) (runs.map CutRun.toRun)

def Completes (r : CutRun) (s : State) : Prop := (startRun r.toRun s).2 = .completed

instance (r : CutRun) (s : State) : Decidable (Completes r s) := inferInstanceAs (Decidable (_ = _))

def Database.studentRows (db : Database) : List Student := (db.students.map (·.rows)).getD []

def Database.scoreRows (db : Database) : List Score := db.scores.getD []

def tablesOf (s : Server) : Database := s.state.database.getD ⟨none, none⟩

abbrev Entry := Option (Varchar 100) × Varchar 50 × Option Numeric52

def Database.entries (db : Database) : List Entry :=
  db.scoreRows.map fun sc =>
    ((db.studentRows.find? fun s => s.id = sc.studentId).map Student.name, sc.subject, sc.score)

def seedEntries : List Entry :=
  seedScores.map fun sc =>
    ((seedStudents[(sc.studentId - 1).toNat]?).map Prod.fst, sc.subject, sc.score)

def nameClass (s : Student) : Varchar 100 × Varchar 50 := (s.name, s.className)

/-- Every seed student and every seed score is there exactly once, after a forced
run beside nothing else. -/
structure SeededOnce (forced : Bool) (db : Database) : Prop where
  students : ∀ p ∈ seedStudents, (db.studentRows.map nameClass).count p = 1
  scores : ∀ e ∈ seedEntries, db.entries.count e = 1
  alone : forced → db.studentRows.length = 6 ∧ db.scoreRows.length = 24

def firstStudent : Varchar 100 × Varchar 50 :=
  (.lit "张三" rfl, .lit "一年一班" rfl)

structure SeedInv (db : Database) : Prop where
  next : ∀ t ∈ db.students, t.nextId = t.rows.length + 1
  fresh : ∀ t ∈ db.students, ∀ s ∈ t.rows, s.id < t.nextId
  first : ∀ t ∈ db.students, t.rows ≠ [] → firstStudent ∈ t.rows.map nameClass
  scores : db.scoreRows ≠ [] → db.studentRows ≠ []

theorem seedInv_blank : SeedInv ⟨none, none⟩ where
  next t h := by cases h
  fresh t h := by cases h
  first t h := by cases h
  scores h := absurd rfl h

theorem insert_fresh {t : StudentsTable} (h : ∀ s ∈ t.rows, s.id < t.nextId) (name : Varchar 100)
    (className : Varchar 50) :
    t.insert name className = (⟨t.rows ++ [⟨t.nextId, name, className⟩], t.nextId + 1⟩, true) := by
  have hnew : t.nextId ∉ t.rows.map Student.id := by
    intro hm
    obtain ⟨s, hs, he⟩ := List.mem_map.1 hm
    exact absurd (h s hs) (by omega)
  rw [StudentsTable.insert, if_neg hnew]

theorem seedInv_schema {db : Database} (h : SeedInv db) {st : Stmt} (hst : st ∈ schemaFile) :
    SeedInv (db.exec st).1 := by
  obtain ⟨students, scores⟩ := db
  simp only [schemaFile, List.mem_cons, List.not_mem_nil, or_false] at hst
  rcases hst with rfl | rfl
  · cases students with
    | none =>
      have hscores := h.scores
      constructor <;> simp_all [Database.exec, Database.studentRows, Database.scoreRows]
    | some t => exact h
  · have hscores := h.scores
    simp only [Database.exec]
    split_ifs
    · exact h
    · exact ⟨h.next, h.fresh, h.first, fun hne => absurd rfl hne⟩
    · exact h

def StudentsTable.add (t : StudentsTable) (p : Varchar 100 × Varchar 50) : StudentsTable :=
  ⟨t.rows ++ [⟨t.nextId, p.1, p.2⟩], t.nextId + 1⟩

theorem exec_insertStudent {db : Database} (h : SeedInv db) {t : StudentsTable}
    (ht : db.students = some t) (p : Varchar 100 × Varchar 50) :
    db.exec (.insertStudent p.1 p.2) = ({ db with students := some (t.add p) }, true) := by
  simp [Database.exec, ht, insert_fresh (h.fresh t ht), StudentsTable.add]

@[simp] theorem names_add (t : StudentsTable) (p : Varchar 100 × Varchar 50) :
    (t.add p).rows.map nameClass = t.rows.map nameClass ++ [p] := by
  simp [StudentsTable.add, nameClass]

theorem seedInv_insertStudent {db : Database} (h : SeedInv db) {t : StudentsTable}
    (ht : db.students = some t) {p : Varchar 100 × Varchar 50}
    (hfirst : firstStudent = p ∨ firstStudent ∈ db.studentRows.map nameClass) :
    SeedInv (db.exec (.insertStudent p.1 p.2)).1 ∧
      firstStudent ∈ (db.exec (.insertStudent p.1 p.2)).1.studentRows.map nameClass := by
  have hnext := h.next t ht
  have hmem : firstStudent ∈ (t.add p).rows.map nameClass := by
    have hrows : db.studentRows = t.rows := by simp [Database.studentRows, ht]
    rw [hrows] at hfirst
    rw [names_add, List.mem_append, List.mem_singleton]
    exact hfirst.symm
  rw [exec_insertStudent h ht p]
  refine ⟨⟨?_, ?_, ?_, ?_⟩, hmem⟩
  · rintro _ ⟨⟩
    simp [StudentsTable.add, hnext]
  · rintro _ ⟨⟩ s hs
    simp only [StudentsTable.add, List.mem_append, List.mem_singleton] at hs ⊢
    rcases hs with hs | rfl
    · exact (h.fresh t ht s hs).trans (lt_add_one _)
    · exact lt_add_one _
  · rintro _ ⟨⟩ -
    exact hmem
  · intro _
    simp [Database.studentRows, StudentsTable.add]

theorem seedInv_insertScores {db : Database} (h : SeedInv db)
    (hfirst : firstStudent ∈ db.studentRows.map nameClass) (rows : List Score) :
    SeedInv (db.exec (.insertScores rows)).1 ∧
      firstStudent ∈ (db.exec (.insertScores rows)).1.studentRows.map nameClass := by
  have hne : db.studentRows ≠ [] := by
    intro he
    simp [he] at hfirst
  simp only [Database.exec]
  split
  · split_ifs
    · exact ⟨⟨h.next, h.fresh, h.first, fun _ => hne⟩, hfirst⟩
    · exact ⟨h, hfirst⟩
  · exact ⟨h, hfirst⟩

def Stmt.onTables : Stmt → Bool
  | .createDatabase | .createUser | .grantAll => false
  | .createStudents | .createScores | .insertStudent _ _ | .insertScores _ => true

theorem tablesOf_perform_admin {st : Stmt} (hst : st.onTables = false) (s : Server) :
    tablesOf (perform Cluster.exec st s).1 = tablesOf s := by
  obtain ⟨⟨database, role⟩, log⟩ := s
  cases st with
  | createDatabase => cases database <;> rfl
  | createUser => cases role <;> rfl
  | grantAll => rfl
  | createStudents => cases hst
  | createScores => cases hst
  | insertStudent name className => cases hst
  | insertScores rows => cases hst

theorem tablesOf_perform {st : Stmt} (hst : st.onTables = true) {s : Server}
    (hs : s.state.database.isSome) :
    tablesOf (perform Cluster.exec st s).1 = ((tablesOf s).exec st).1 := by
  obtain ⟨⟨database, role⟩, log⟩ := s
  cases database with
  | none => cases hs
  | some db => cases st <;> first | rfl | cases hst

theorem tablesOf_rollBack {st : Stmt} (hst : ∀ db : Database, db.undone st = db) (s : Server) :
    tablesOf (rollBack Cluster.undone st s) = tablesOf s := by
  obtain ⟨⟨database, role⟩, log⟩ := s
  cases database with
  | none => rfl
  | some db => exact hst db

theorem undone_schema {st : Stmt} (hst : st ∈ schemaFile) (db : Database) : db.undone st = db := by
  simp only [schemaFile, List.mem_cons, List.not_mem_nil, or_false] at hst
  rcases hst with rfl | rfl <;> rfl

theorem undone_admin {st : Stmt} (hst : st.onTables = false) (db : Database) : db.undone st = db := by
  cases st <;> first | rfl | cases hst

theorem tablesOf_setup (r : Run) (s : State) :
    tablesOf (setupDatabase r s).1.server = tablesOf s.server := by
  have hcommand (fate : Fate) {st : Stmt} (hst : st.onTables = false) (t : Server) :
      tablesOf (command fate st t).1 = tablesOf t :=
    statement_preserves (P := fun u => tablesOf u = tablesOf t)
      (fun _ => tablesOf_perform_admin hst t) (fun _ _ => tablesOf_rollBack (undone_admin hst) t) rfl
  have hdb : tablesOf (databaseStep r s.server).1 = tablesOf s.server := by
    rw [databaseStep]
    split_ifs
    · rfl
    · exact hcommand _ rfl _
  have huser (t : Server) : tablesOf (userStep r t).1 = tablesOf t := by
    simp only [userStep]
    split_ifs
    · rfl
    · exact (hcommand _ rfl _).trans (hcommand _ rfl _)
    · exact hcommand _ rfl _
  rcases setupDatabase_cases r s
    with (he | he) | ⟨-, -, he⟩ | ⟨-, -, ⟨-, he⟩ | ⟨-, he⟩⟩ <;> rw [he]
  · rfl
  · exact hdb
  · exact (huser _).trans hdb
  · exact (huser _).trans hdb

def execAll (file : List Stmt) (db : Database) : Database :=
  file.foldl (fun d st => (d.exec st).1) db

theorem perform_isSome (st : Stmt) {s : Server} (hs : s.state.database.isSome) :
    (perform Cluster.exec st s).1.state.database.isSome := (grows_perform st s).database hs

theorem tablesOf_performAll {file : List Stmt} (hfile : ∀ st ∈ file, st.onTables = true)
    {s : Server} (hs : s.state.database.isSome) :
    tablesOf (file.foldl (fun t st => (perform Cluster.exec st t).1) s) =
      execAll file (tablesOf s) := by
  induction file generalizing s with
  | nil => rfl
  | cons st sts ih =>
    rw [List.foldl_cons, ih (fun x hx => hfile x (by simp [hx])) (perform_isSome st hs),
      tablesOf_perform (hfile st (by simp)) hs]
    rfl

theorem tablesOf_psqlFile {file : List Stmt} {fates : List Fate} {s : Server}
    (hfile : ∀ st ∈ file, st.onTables = true) (hfates : ∀ fate ∈ fates, fate.whole = true)
    (h : (psqlFile file fates s).2 = true) :
    tablesOf (psqlFile file fates s).1 = execAll file (tablesOf s) := by
  obtain ⟨hconnected, he, hzero⟩ := psqlFile_done h
  rw [Bool.and_eq_true] at hconnected
  rw [he, session_complete hfates hzero, tablesOf_performAll hfile hconnected.1]

theorem seedInv_schemaStep (r : Run) {s : Server} (h : SeedInv (tablesOf s)) :
    SeedInv (tablesOf (schemaStep r s).1) := by
  rw [schemaStep, psqlFile]
  split_ifs with hconnected
  · rw [Bool.and_eq_true] at hconnected
    refine (session_preserves (P := fun t => t.state.database.isSome ∧ SeedInv (tablesOf t))
      (fun st hst t ht => ⟨perform_isSome st ht.1, ?_⟩)
      (fun _ _ _ st hst t ht => ⟨(grows_rollBack st t).database ht.1, ?_⟩) ⟨hconnected.1, h⟩).2
    · rw [tablesOf_perform (by revert st; decide) ht.1]
      exact seedInv_schema ht.2 hst
    · rw [tablesOf_rollBack (undone_schema hst)]
      exact ht.2
  · exact h

def Started (s : Server) : Prop :=
  s.state.database.isSome ∧ SeedInv (tablesOf s) ∧
    firstStudent ∈ (tablesOf s).studentRows.map nameClass

theorem started_perform {st : Stmt} (hst : st ∈ seedFile) {s : Server} (h : Started s) :
    Started (perform Cluster.exec st s).1 := by
  obtain ⟨hsome, hinv, hfirst⟩ := h
  obtain ⟨t, ht⟩ : ∃ t, (tablesOf s).students = some t := by
    cases ht : (tablesOf s).students with
    | none => simp [Database.studentRows, ht] at hfirst
    | some t => exact ⟨t, rfl⟩
  refine ⟨perform_isSome st hsome, ?_⟩
  rw [seedFile, List.mem_append, List.mem_map, List.mem_singleton] at hst
  rcases hst with ⟨p, -, rfl⟩ | rfl
  · rw [tablesOf_perform rfl hsome]
    exact seedInv_insertStudent hinv ht (.inr hfirst)
  · rw [tablesOf_perform rfl hsome]
    exact seedInv_insertScores hinv hfirst _

theorem seedInv_seedStep {r : Run} (hr : ∀ fate ∈ r.seed, fate.whole = true) {s : Server} {t : StudentsTable}
    (ht : (tablesOf s).students = some t) (h : SeedInv (tablesOf s)) :
    SeedInv (tablesOf (seedStep r s).1) := by
  rw [seedStep, psqlFile]
  split_ifs with hconnected
  · rw [Bool.and_eq_true] at hconnected
    have hstarted : Started (perform Cluster.exec
        (.insertStudent firstStudent.1 firstStudent.2) s).1 := by
      refine ⟨perform_isSome _ hconnected.1, ?_⟩
      rw [tablesOf_perform rfl hconnected.1]
      exact seedInv_insertStudent h ht (.inl rfl)
    change SeedInv (tablesOf (session Cluster.exec Cluster.undone
      (.insertStudent firstStudent.1 firstStudent.2 :: seedFile.tail) r.seed s).1)
    rcases session_first hr with he | he | he <;> rw [he]
    · exact h
    · exact hstarted.2.1
    · exact (session_preserves (P := Started)
        (fun st hst t ht => started_perform (List.mem_of_mem_tail hst) ht)
        (fun fate hfate hback => absurd (hr fate (List.mem_of_mem_tail hfate))
          (whole_of_rollsBack hback)) hstarted).2.1
  · exact h

theorem schemaFile_onTables : ∀ st ∈ schemaFile, st.onTables = true := by decide

theorem seedFile_onTables : ∀ st ∈ seedFile, st.onTables = true := by decide

theorem students_schema (db : Database) :
    (execAll schemaFile db).students = some (db.students.getD ⟨[], 1⟩) := by
  simp only [execAll, schemaFile, List.foldl_cons, List.foldl_nil, Database.exec]
  split_ifs <;> rfl

theorem startRun_inv_seed (r : CutRun) {s : State} (h : SeedInv (tablesOf s.server)) :
    SeedInv (tablesOf (startRun r.toRun s).1.server) := by
  have hsetup : SeedInv (tablesOf (setupDatabase r.toRun s).1.server) := by rwa [tablesOf_setup]
  have hinit {t : State} (ht : SeedInv (tablesOf t.server)) :
      SeedInv (tablesOf (initDatabase r.toRun t).1.server) := by
    have hschema := seedInv_schemaStep r.toRun ht
    rcases initDatabase_cases r.toRun t with (he | he) | ⟨-, -, he⟩ | ⟨-, hdone, hcase⟩
    · rwa [he]
    · rwa [he]
    · rwa [he]
    · have hstudents := students_schema (tablesOf t.server)
      rw [← tablesOf_psqlFile schemaFile_onTables r.schemaAccepted hdone] at hstudents
      have hseed := seedInv_seedStep r.seedAccepted hstudents hschema
      rcases hcase with ⟨-, he⟩ | ⟨-, he⟩ <;> rwa [he]
  simp only [startRun]
  split_ifs
  · exact hinit hsetup
  · exact hsetup
  · exact h

theorem completed_tables {r : CutRun} {s : State} (h : Completes r s) :
    tablesOf (startRun r.toRun s).1.server =
      execAll seedFile (execAll schemaFile (tablesOf s.server)) := by
  simp only [Completes, startRun] at h ⊢
  split_ifs at h ⊢
  rw [← tablesOf_setup r.toRun s]
  rcases initDatabase_cases r.toRun (setupDatabase r.toRun s).1
    with (he | he) | ⟨-, -, he⟩ | ⟨-, hschema, hcase⟩
  · simp [he] at h
  · simp [he] at h
  · simp [he] at h
  · rcases hcase with ⟨-, he⟩ | ⟨hseed, he⟩
    · simp [he] at h
    · rw [he]
      exact (tablesOf_psqlFile seedFile_onTables r.seedAccepted hseed).trans
        (congrArg _ (tablesOf_psqlFile schemaFile_onTables r.schemaAccepted hschema))

theorem names_insertAll (ps : List (Varchar 100 × Varchar 50)) {db : Database} (h : SeedInv db)
    {t : StudentsTable} (ht : db.students = some t)
    (hfirst : firstStudent ∈ db.studentRows.map nameClass) :
    (execAll (ps.map fun p => Stmt.insertStudent p.1 p.2) db).studentRows.map nameClass =
      db.studentRows.map nameClass ++ ps := by
  induction ps generalizing db t with
  | nil => simp [execAll]
  | cons p ps ih =>
    obtain ⟨hinv, hmem⟩ := seedInv_insertStudent h ht (.inr hfirst) (p := p)
    have hexec := exec_insertStudent h ht p
    rw [List.map_cons]
    change (execAll _ (db.exec (.insertStudent p.1 p.2)).1).studentRows.map nameClass = _
    rw [ih hinv (by rw [hexec]) hmem, hexec]
    simp [Database.studentRows, ht]

theorem studentRows_insertScores (db : Database) (rows : List Score) :
    (db.exec (.insertScores rows)).1.studentRows = db.studentRows := by
  simp only [Database.exec]
  split
  · split_ifs <;> rfl
  · rfl

theorem seedInv_schemaAll {db : Database} (h : SeedInv db) : SeedInv (execAll schemaFile db) := by
  have hfirst := seedInv_schema h (show Stmt.createStudents ∈ schemaFile by decide)
  exact seedInv_schema hfirst (show Stmt.createScores ∈ schemaFile by decide)

theorem studentRows_schema (db : Database) :
    (execAll schemaFile db).studentRows = db.studentRows := by
  rw [Database.studentRows, students_schema, Database.studentRows]
  cases db.students <;> rfl

theorem names_completed {db : Database} (h : SeedInv db) (hne : db.studentRows ≠ []) :
    firstStudent ∈ db.studentRows.map nameClass ∧
      (execAll seedFile (execAll schemaFile db)).studentRows.map nameClass =
        db.studentRows.map nameClass ++ seedStudents := by
  have hrows := studentRows_schema db
  have hfirst : firstStudent ∈ db.studentRows.map nameClass := by
    cases ht : db.students with
    | none => simp [Database.studentRows, ht] at hne
    | some t =>
      have he : db.studentRows = t.rows := by simp [Database.studentRows, ht]
      exact he ▸ h.first t ht (he ▸ hne)
  have hall := names_insertAll seedStudents (seedInv_schemaAll h) (students_schema db)
    (hrows ▸ hfirst)
  refine ⟨hfirst, ?_⟩
  rw [hrows] at hall
  rw [← hall, seedFile, execAll, List.foldl_append, List.foldl_cons, List.foldl_nil,
    studentRows_insertScores]
  rfl

def seededTables : Database := execAll seedFile ⟨some ⟨[], 1⟩, some []⟩

theorem seededOnce_seededTables (forced : Bool) : SeededOnce forced seededTables where
  students := by decide +kernel
  scores := by decide +kernel
  alone _ := by decide +kernel

theorem schema_empty {db : Database} (h : SeedInv db) (hempty : db.studentRows = []) :
    execAll schemaFile db = ⟨some ⟨[], 1⟩, some []⟩ := by
  have hscores : db.scoreRows = [] := by
    by_contra hne
    exact h.scores hne hempty
  obtain ⟨students, scores⟩ := db
  have hs : students.getD ⟨[], 1⟩ = ⟨[], 1⟩ := by
    cases students with
    | none => rfl
    | some t =>
      obtain ⟨rows, next⟩ := t
      have hrows : rows = [] := hempty
      have hnext : next = rows.length + 1 := h.next _ rfl
      simp [hnext, hrows]
  simp only [execAll, schemaFile, List.foldl_cons, List.foldl_nil, Database.exec, hs]
  cases scores with
  | none => rfl
  | some rows =>
    have hrows : rows = [] := hscores
    simp [hrows]

theorem seededOnce_iff {db : Database} (h : SeedInv db) (forced : Bool) :
    SeededOnce forced (execAll seedFile (execAll schemaFile db)) ↔ db.studentRows = [] := by
  constructor
  · intro hs
    by_contra hne
    obtain ⟨hfirst, hnames⟩ := names_completed h hne
    have hcount := hs.students firstStudent (by decide)
    rw [hnames, List.count_append] at hcount
    have hold := List.count_pos_iff.2 hfirst
    have hseed : seedStudents.count firstStudent = 1 := by decide
    omega
  · intro hempty
    rw [schema_empty h hempty]
    exact seededOnce_seededTables forced

theorem seedInv_blankState (created role : Bool) :
    SeedInv (tablesOf (blankState created role).server) := by
  cases created <;> exact seedInv_blank

theorem seedInv_afterRuns (created role : Bool) (runs : List CutRun) :
    SeedInv (tablesOf (afterRuns created role runs).server) := by
  have hall (s : State) (h : SeedInv (tablesOf s.server)) :
      SeedInv (tablesOf (startRuns s (runs.map CutRun.toRun)).server) := by
    induction runs generalizing s with
    | nil => exact h
    | cons r rs ih => exact ih _ (startRun_inv_seed r h)
  exact hall _ (seedInv_blankState created role)

theorem afterRuns_concat (created role : Bool) (runs : List CutRun) (r : CutRun) :
    afterRuns created role (runs ++ [r]) = (startRun r.toRun (afterRuns created role runs)).1 := by
  simp [afterRuns, startRuns]

/-- In every sequence of runs on a blank database, all runs that complete the
initialisation leave the seed rows exactly once if and only if each of them
finds no student, so that no run before it has committed a row of the seed file. -/
theorem seeded_once_iff (created role : Bool) (runs : List CutRun) :
    (∀ pre r post, runs = pre ++ r :: post → Completes r (afterRuns created role pre) →
      SeededOnce r.forceReinit (tablesOf (afterRuns created role (pre ++ [r])).server)) ↔
    (∀ pre r post, runs = pre ++ r :: post → Completes r (afterRuns created role pre) →
      (tablesOf (afterRuns created role pre).server).studentRows = []) := by
  have hrun (pre : List CutRun) (r : CutRun) (hc : Completes r (afterRuns created role pre)) :
      SeededOnce r.forceReinit (tablesOf (afterRuns created role (pre ++ [r])).server) ↔
        (tablesOf (afterRuns created role pre).server).studentRows = [] := by
    rw [afterRuns_concat, completed_tables hc]
    exact seededOnce_iff (seedInv_afterRuns created role pre) _
  constructor
  · intro h pre r post he hc
    exact (hrun pre r hc).1 (h pre r post he hc)
  · intro h pre r post he hc
    exact (hrun pre r hc).2 (h pre r post he hc)

def smoothCut : CutRun := ⟨smoothRun, by decide, by decide⟩

def forcedCut : CutRun := ⟨{ smoothRun with forceReinit := true }, by decide, by decide⟩

def thirdCut : CutRun := ⟨{ smoothRun with seed := [.ok, .ok, .lostAfter] }, by decide, by decide⟩

/-- A forced run after a completed one, and a run after one that was cut off,
complete the initialisation and leave students twice. -/
theorem seeded_twice :
    (Completes forcedCut (afterRuns true true [smoothCut]) ∧
      ¬ SeededOnce true (tablesOf (afterRuns true true [smoothCut, forcedCut]).server)) ∧
    (Completes smoothCut (afterRuns true true [thirdCut]) ∧
      ¬ SeededOnce false (tablesOf (afterRuns true true [thirdCut, smoothCut]).server)) := by
  refine ⟨⟨by decide, fun h => ?_⟩, by decide, fun h => ?_⟩
  · exact absurd (h.students firstStudent (by decide)) (by decide +kernel)
  · exact absurd (h.students firstStudent (by decide)) (by decide +kernel)

end Deploy
end StudentGrades
