import StudentGrades.StartScript

/-!
# What the marker files promise

The setup marker promises the database, the role and, for a role the script
created, its privileges; the initialisation marker promises both tables and all
seed rows. Nothing the script sends takes back what an earlier statement made.
The promises are kept by runs that grant what they create and whose files are
either cut off or accepted as a whole.
-/

namespace StudentGrades
open ByteText StatementSession

namespace Deploy

def Cluster.hasStudents (c : Cluster) : Bool := (c.database.bind Database.students).isSome

def Cluster.hasScores (c : Cluster) : Bool := (c.database.bind Database.scores).isSome

structure Grows (s t : Server) : Prop where
  database : s.state.database.isSome → t.state.database.isSome
  role : s.state.role → t.state.role
  students : s.state.hasStudents → t.state.hasStudents
  scores : s.state.hasScores → t.state.hasScores
  log : s.log ⊆ t.log

theorem Grows.refl (s : Server) : Grows s s := ⟨id, id, id, id, List.Subset.refl _⟩

theorem Grows.trans {s t u : Server} (h : Grows s t) (h' : Grows t u) : Grows s u :=
  ⟨h'.database ∘ h.database, h'.role ∘ h.role, h'.students ∘ h.students, h'.scores ∘ h.scores,
    List.Subset.trans h.log h'.log⟩

theorem Database.exec_keeps (st : Stmt) (db : Database) :
    (db.students.isSome → (db.exec st).1.students.isSome) ∧
      (db.scores.isSome → (db.exec st).1.scores.isSome) := by
  cases st with
  | createStudents => exact ⟨fun _ => rfl, id⟩
  | createScores =>
    rw [exec]
    split_ifs
    · exact ⟨id, id⟩
    · exact ⟨id, fun _ => rfl⟩
    · exact ⟨id, id⟩
  | insertStudent name className => cases hs : db.students <;> simp [exec, hs]
  | insertScores rows =>
    cases hs : db.students <;> cases hc : db.scores <;> simp only [exec, hs, hc]
    any_goals exact ⟨id, id⟩
    split_ifs <;> simp [hs, hc]
  | createDatabase => exact ⟨id, id⟩
  | createUser => exact ⟨id, id⟩
  | grantAll => exact ⟨id, id⟩

theorem Cluster.exec_keeps (st : Stmt) (c : Cluster) :
    (c.database.isSome → (c.exec st).1.database.isSome) ∧ (c.role → (c.exec st).1.role) ∧
      (c.hasStudents → (c.exec st).1.hasStudents) ∧ (c.hasScores → (c.exec st).1.hasScores) := by
  have hdb (db : Database) := db.exec_keeps st
  obtain ⟨database, role⟩ := c
  cases database with
  | none => cases role <;> cases st <;> simp [exec, hasStudents, hasScores]
  | some db =>
    cases st <;> simp_all [exec, hasStudents, hasScores]
    split_ifs <;> simp

theorem grows_perform (st : Stmt) (s : Server) : Grows s (perform Cluster.exec st s).1 := by
  obtain ⟨hd, hr, hst, hsc⟩ := s.state.exec_keeps st
  exact ⟨hd, hr, hst, hsc, log_perform st s⟩

theorem Database.undone_keeps (st : Stmt) (db : Database) :
    (db.undone st).students.isSome = db.students.isSome ∧ (db.undone st).scores = db.scores := by
  cases st <;> simp [undone]

theorem Cluster.undone_keeps (st : Stmt) (c : Cluster) :
    (c.undone st).database.isSome = c.database.isSome ∧ (c.undone st).role = c.role ∧
      (c.undone st).hasStudents = c.hasStudents ∧ (c.undone st).hasScores = c.hasScores := by
  obtain ⟨database, role⟩ := c
  cases database with
  | none => simp [undone, hasStudents, hasScores]
  | some db =>
    obtain ⟨hst, hsc⟩ := db.undone_keeps st
    simp [undone, hasStudents, hasScores, hst, hsc]

theorem grows_rollBack (st : Stmt) (s : Server) : Grows s (rollBack Cluster.undone st s) := by
  obtain ⟨hd, hr, hst, hsc⟩ := s.state.undone_keeps st
  exact ⟨(hd ▸ ·), (hr ▸ ·), (hst ▸ ·), (hsc ▸ ·), List.Subset.refl _⟩

theorem grows_statement (fate : Fate) (st : Stmt) (s : Server) :
    Grows s (statement Cluster.exec Cluster.undone fate st s).1 :=
  statement_preserves (P := Grows s) (fun _ => grows_perform st s) (fun _ _ => grows_rollBack st s)
    (.refl s)

theorem grows_session (file : List Stmt) (fates : List Fate) (s : Server) :
    Grows s (session Cluster.exec Cluster.undone file fates s).1 :=
  session_preserves (P := Grows s) (fun st _ t h => h.trans (grows_perform st t))
    (fun _ _ _ st _ t h => h.trans (grows_rollBack st t)) (.refl s)

theorem grows_psqlFile (file : List Stmt) (fates : List Fate) (s : Server) :
    Grows s (psqlFile file fates s).1 := by
  rw [psqlFile]
  split_ifs
  · exact grows_session file fates s
  · exact .refl s

theorem grows_databaseStep (r : Run) (s : Server) : Grows s (databaseStep r s).1 := by
  rw [databaseStep]
  split_ifs
  · exact .refl s
  · exact grows_statement _ _ s

theorem grows_userStep (r : Run) (s : Server) : Grows s (userStep r s).1 := by
  simp only [userStep]
  split_ifs
  · exact .refl s
  · exact (grows_statement _ _ s).trans (grows_statement _ _ _)
  · exact grows_statement _ _ s

theorem command_done {fate : Fate} {st : Stmt} {s : Server} (h : (command fate st s).2 = true) :
    fate = .ok ∧ (s.state.exec st).2 = true ∧
      (command fate st s).1 = ⟨(s.state.exec st).1, st :: s.log⟩ := by
  have hdone : (statement Cluster.exec Cluster.undone fate st s).2 = .done := by simpa [command] using h
  obtain ⟨rfl, hexec⟩ := statement_done_iff.1 hdone
  exact ⟨rfl, hexec, by simp [command, statement, perform, hexec]⟩

theorem exec_createUser (c : Cluster) : c.exec .createUser = ({ c with role := true }, !c.role) := by
  obtain ⟨database, role⟩ := c
  cases role <;> rfl

theorem databaseStep_done {r : Run} {s : Server} (h : (databaseStep r s).2 = true) :
    (databaseStep r s).1.state.database.isSome := by
  rw [databaseStep] at h ⊢
  split_ifs at h ⊢ with hfound
  · simp only [found, Bool.and_eq_true] at hfound
    exact hfound.2
  · obtain ⟨-, hexec, he⟩ := command_done h
    rw [he]
    simp only [Cluster.exec] at hexec ⊢
    split_ifs at hexec ⊢
    rfl

theorem userStep_done {r : Run} {s : Server} (h : (userStep r s).2 = true) :
    (userStep r s).1.state.role := by
  simp only [userStep] at h ⊢
  split_ifs at h ⊢ with hfound hcreated
  · simp only [found, Bool.and_eq_true] at hfound
    exact hfound.2
  · obtain ⟨-, -, he⟩ := command_done hcreated
    apply (grows_statement _ _ _).role
    rw [he, exec_createUser]
  · exact absurd h hcreated

/-- A role that the script created has been granted its privileges. -/
def Granted (s : Server) : Prop := Stmt.createUser ∈ s.log → Stmt.grantAll ∈ s.log

theorem granted_perform {st : Stmt} {s : Server} (hne : st ≠ .createUser) (h : Granted s) :
    Granted (perform Cluster.exec st s).1 := by
  intro hcreated
  have hmem := log_perform_subset st s hcreated
  exact log_perform st s (h ((List.mem_cons.1 hmem).resolve_left hne.symm))

def createsUser (r : Run) (s : Server) : Bool :=
  !s.state.role && (r.admin r.createUser).takesEffect

theorem userStep_granted {r : Run} {s : Server} (hdb : s.state.database.isSome)
    (hgrants : createsUser r s → r.admin r.createUser = .ok ∧ (r.admin r.grant).takesEffect)
    (h : Granted s) : Granted (userStep r s).1 := by
  simp only [userStep]
  split_ifs with hfound hcreated
  · exact h
  · obtain ⟨hok, hexec, he⟩ := command_done hcreated
    rw [exec_createUser] at hexec he
    have heffect := (hgrants (by simpa [createsUser, hok, Fate.takesEffect] using hexec)).2
    intro _
    rcases @statement_cases _ _ Cluster.exec Cluster.undone (r.admin r.grant) .grantAll
      (command (r.admin r.createUser) .createUser s).1 with ⟨-, hp⟩ | ⟨hn, -⟩ | ⟨hn, -⟩
    · rw [command, hp, he]
      simp [perform, Cluster.exec, hdb]
    · simp [hn] at heffect
    · simp [hn] at heffect
  · rcases @statement_cases _ _ Cluster.exec Cluster.undone (r.admin r.createUser) .createUser s
      with ⟨heffect, hp⟩ | ⟨-, -, hp⟩ | ⟨-, -, hp⟩
    · cases hrole : s.state.role with
      | true =>
        rw [command, hp]
        simpa [Granted, perform, exec_createUser, hrole] using h
      | false =>
        have hok := (hgrants (by simp [createsUser, hrole, heffect])).1
        have hdone : (statement Cluster.exec Cluster.undone .ok .createUser s).2 = .done :=
          statement_done_iff.2 ⟨rfl, by simp [exec_createUser, hrole]⟩
        simp [command, hok, hdone] at hcreated
    · rwa [command, hp]
    · rw [command, hp]
      exact h

structure TablesLogged (s : Server) : Prop where
  students : Stmt.createStudents ∈ s.log → s.state.hasStudents
  scores : Stmt.createScores ∈ s.log → s.state.hasScores

theorem exec_createTables (c : Cluster) :
    ((c.exec .createStudents).2 = true → (c.exec .createStudents).1.hasStudents) ∧
      ((c.exec .createScores).2 = true → (c.exec .createScores).1.hasScores) := by
  obtain ⟨database, role⟩ := c
  cases database with
  | none => simp [Cluster.exec]
  | some db =>
    refine ⟨fun _ => rfl, ?_⟩
    simp only [Cluster.exec, Database.exec, Cluster.hasScores]
    split_ifs with hscores hstudents
    · exact fun _ => hscores
    · exact fun _ => rfl
    · simp

theorem tablesLogged_perform (st : Stmt) {s : Server} (h : TablesLogged s) :
    TablesLogged (perform Cluster.exec st s).1 := by
  have hgrows := grows_perform st s
  constructor
  · intro hm
    rcases mem_log_perform.1 hm with ⟨rfl, hexec⟩ | hm
    · exact (exec_createTables s.state).1 hexec
    · exact hgrows.students (h.students hm)
  · intro hm
    rcases mem_log_perform.1 hm with ⟨rfl, hexec⟩ | hm
    · exact (exec_createTables s.state).2 hexec
    · exact hgrows.scores (h.scores hm)

theorem tablesLogged_rollBack (st : Stmt) {s : Server} (h : TablesLogged s) :
    TablesLogged (rollBack Cluster.undone st s) :=
  ⟨(grows_rollBack st s).students ∘ h.students, (grows_rollBack st s).scores ∘ h.scores⟩

structure ServerInv (s : Server) : Prop where
  granted : Granted s
  tables : TablesLogged s

theorem serverInv_perform {st : Stmt} {s : Server} (hne : st ≠ .createUser) (h : ServerInv s) :
    ServerInv (perform Cluster.exec st s).1 :=
  ⟨granted_perform hne h.granted, tablesLogged_perform st h.tables⟩

theorem serverInv_rollBack (st : Stmt) {s : Server} (h : ServerInv s) :
    ServerInv (rollBack Cluster.undone st s) :=
  ⟨h.granted, tablesLogged_rollBack st h.tables⟩

theorem serverInv_psqlFile {file : List Stmt} (hfile : Stmt.createUser ∉ file) (fates : List Fate)
    {s : Server} (h : ServerInv s) : ServerInv (psqlFile file fates s).1 := by
  rw [psqlFile]
  split_ifs
  · exact session_preserves
      (fun st hst _ ht => serverInv_perform (fun he => hfile (he ▸ hst)) ht)
      (fun _ _ _ st _ _ ht => serverInv_rollBack st ht) h
  · exact h

theorem serverInv_databaseStep (r : Run) {s : Server} (h : ServerInv s) :
    ServerInv (databaseStep r s).1 := by
  rw [databaseStep]
  split_ifs
  · exact h
  · exact statement_preserves (serverInv_perform (by simp)) (fun _ => serverInv_rollBack _) h

theorem tablesLogged_userStep (r : Run) {s : Server} (h : TablesLogged s) :
    TablesLogged (userStep r s).1 := by
  simp only [userStep]
  split_ifs
  · exact h
  · exact statement_preserves (tablesLogged_perform _) (fun _ => tablesLogged_rollBack _)
      (statement_preserves (tablesLogged_perform _) (fun _ => tablesLogged_rollBack _) h)
  · exact statement_preserves (tablesLogged_perform _) (fun _ => tablesLogged_rollBack _) h

structure MarkersTrue (s : State) : Prop where
  setup : s.dbSetupDone → s.server.state.database.isSome ∧ s.server.state.role ∧
    (Stmt.createUser ∈ s.server.log → Stmt.grantAll ∈ s.server.log)
  initialized : s.dbInitialized → s.server.state.hasStudents ∧ s.server.state.hasScores ∧
    ∀ st ∈ seedFile, st ∈ s.server.log

structure Inv (s : State) : Prop where
  server : ServerInv s.server
  markers : MarkersTrue s

theorem Inv.grow {s t : State} (h : Inv s) (hserver : ServerInv t.server)
    (hgrows : Grows s.server t.server) (hsetup : t.dbSetupDone → s.dbSetupDone)
    (hinit : t.dbInitialized → s.dbInitialized) : Inv t where
  server := hserver
  markers := by
    refine ⟨fun hm => ?_, fun hm => ?_⟩
    · obtain ⟨hd, hr, -⟩ := h.markers.setup (hsetup hm)
      exact ⟨hgrows.database hd, hgrows.role hr, hserver.granted⟩
    · obtain ⟨hst, hsc, hseed⟩ := h.markers.initialized (hinit hm)
      exact ⟨hgrows.students hst, hgrows.scores hsc, fun st hst => hgrows.log (hseed st hst)⟩

theorem Inv.dropMarkers {s : State} (r : Run) (h : Inv s) :
    Inv (r.dropSetupMarker s) ∧ Inv (r.dropInitMarker s) := by
  refine ⟨h.grow h.server (.refl _) (fun hm => ?_) id, h.grow h.server (.refl _) id fun hm => ?_⟩
  · simp only [Run.dropSetupMarker, Bool.and_eq_true] at hm
    exact hm.1
  · simp only [Run.dropInitMarker, Bool.and_eq_true] at hm
    exact hm.1

def GrantsRole (r : Run) (s : State) : Prop :=
  entersSetup r s → (databaseStep r s.server).2 → createsUser r (databaseStep r s.server).1 →
    r.admin r.createUser = .ok ∧ (r.admin r.grant).takesEffect

instance (r : Run) (s : State) : Decidable (GrantsRole r s) := inferInstanceAs (Decidable (_ → _))

theorem setupDatabase_inv {r : Run} {s : State} (h : Inv s) (hg : GrantsRole r s) :
    Inv (setupDatabase r s).1 := by
  have hdrop := (h.dropMarkers r).1
  have hdb := serverInv_databaseStep r h.server
  have hgrows := grows_databaseStep r s.server
  rcases setupDatabase_cases r s with (he | he) | ⟨-, -, he⟩ | ⟨henters, hdone, hcase⟩
  · rwa [he]
  · rwa [he]
  · rw [he]
    exact hdrop.grow hdb hgrows id id
  · have hex := databaseStep_done hdone
    have hgranted := userStep_granted hex (hg henters hdone) hdb.granted
    have huser := hdrop.grow (t := { r.dropSetupMarker s with server := _ })
      ⟨hgranted, tablesLogged_userStep r hdb.tables⟩ (hgrows.trans (grows_userStep r _)) id id
    rcases hcase with ⟨-, he⟩ | ⟨huserDone, he⟩ <;> rw [he]
    · exact huser
    · exact ⟨huser.server, fun _ => ⟨(grows_userStep r _).database hex, userStep_done huserDone,
        hgranted⟩, huser.markers.initialized⟩

/-- When both files are executed to their ends, no statement of them is rejected. -/
def FilesAccepted (r : Run) (s : State) : Prop :=
  entersInit r s → (s.server.state.database.isSome && s.server.state.role) = true →
    let schema := session Cluster.exec Cluster.undone schemaFile r.schema s.server
    let seed := session Cluster.exec Cluster.undone seedFile r.seed schema.1
    ExitsZero schema.2 → ExitsZero seed.2 → ∀ reply ∈ schema.2 ++ seed.2, reply = .done

instance (r : Run) (s : State) : Decidable (FilesAccepted r s) := inferInstanceAs (Decidable (_ → _))

theorem psqlFile_done {file : List Stmt} {fates : List Fate} {s : Server}
    (h : (psqlFile file fates s).2 = true) :
    (s.state.database.isSome && s.state.role) = true ∧
      (psqlFile file fates s).1 = (session Cluster.exec Cluster.undone file fates s).1 ∧
      ExitsZero (session Cluster.exec Cluster.undone file fates s).2 := by
  simp only [psqlFile] at h ⊢
  split_ifs at h ⊢ with hconnected
  simp only [decide_eq_true_eq] at h
  exact ⟨hconnected, rfl, h⟩

theorem accepted_log {schemaFates seedFates : List Fate} {s : Server}
    (h : ∀ reply ∈ (session Cluster.exec Cluster.undone schemaFile schemaFates s).2 ++
      (session Cluster.exec Cluster.undone seedFile seedFates (session Cluster.exec Cluster.undone schemaFile schemaFates s).1).2,
      reply = .done) :
    ∀ st ∈ schemaFile ++ seedFile, st ∈ (session Cluster.exec Cluster.undone seedFile seedFates
      (session Cluster.exec Cluster.undone schemaFile schemaFates s).1).1.log := by
  rw [List.forall_mem_append] at h ⊢
  exact ⟨fun st hst => log_session _ _ _ (mem_log_of_all_done h.1 st hst), mem_log_of_all_done h.2⟩

theorem completed_log {r : Run} {s : State} (ha : FilesAccepted r s) (henters : entersInit r s)
    (hschema : (schemaStep r s.server).2 = true)
    (hseed : (seedStep r (schemaStep r s.server).1).2 = true) :
    ∀ st ∈ schemaFile ++ seedFile, st ∈ (seedStep r (schemaStep r s.server).1).1.log := by
  obtain ⟨hconnected, hschemaEq, hzero⟩ := psqlFile_done hschema
  obtain ⟨-, hseedEq, hzero'⟩ := psqlFile_done hseed
  rw [schemaStep, hschemaEq] at hseedEq hzero'
  have hlog := accepted_log (ha henters hconnected hzero hzero')
  rwa [← hseedEq, ← hschemaEq] at hlog

theorem initDatabase_inv {r : Run} {s : State} (h : Inv s) (ha : FilesAccepted r s) :
    Inv (initDatabase r s).1 := by
  have hdrop := (h.dropMarkers r).2
  have hschema := serverInv_psqlFile (show Stmt.createUser ∉ schemaFile by decide) r.schema h.server
  have hseed := serverInv_psqlFile (show Stmt.createUser ∉ seedFile by decide) r.seed hschema
  have hgrows := grows_psqlFile schemaFile r.schema s.server
  rcases initDatabase_cases r s with (he | he) | ⟨-, -, he⟩ | ⟨henters, hschemaDone, hcase⟩
  · rwa [he]
  · rwa [he]
  · rw [he]
    exact hdrop.grow hschema hgrows id id
  · have hgrown := hdrop.grow (t := { r.dropInitMarker s with server := _ }) hseed
      (hgrows.trans (grows_psqlFile seedFile r.seed _)) id id
    rcases hcase with ⟨-, he⟩ | ⟨hseedDone, he⟩ <;> rw [he]
    · exact hgrown
    · have hlog := completed_log ha henters hschemaDone hseedDone
      rw [List.forall_mem_append] at hlog
      exact ⟨hseed, hgrown.markers.setup, fun _ => ⟨hseed.tables.students (hlog.1 _ (by decide)),
        hseed.tables.scores (hlog.1 _ (by decide)), hlog.2⟩⟩

def KeepsPromises (r : Run) (s : State) : Prop :=
  r.ready → GrantsRole r s ∧
    ((setupDatabase r s).2 → FilesAccepted r (setupDatabase r s).1)

instance (r : Run) (s : State) : Decidable (KeepsPromises r s) := inferInstanceAs (Decidable (_ → _))

def AllKeepPromises : State → List Run → Prop
  | _, [] => True
  | s, r :: rs => KeepsPromises r s ∧ AllKeepPromises (startRun r s).1 rs

instance decidableAllKeepPromises : (s : State) → (rs : List Run) → Decidable (AllKeepPromises s rs)
  | _, [] => .isTrue trivial
  | s, r :: rs =>
    have := decidableAllKeepPromises (startRun r s).1 rs
    inferInstanceAs (Decidable (KeepsPromises r s ∧ AllKeepPromises (startRun r s).1 rs))

theorem startRun_inv {r : Run} {s : State} (h : Inv s) (hk : KeepsPromises r s) :
    Inv (startRun r s).1 := by
  simp only [startRun]
  split_ifs with hready hsetup
  · exact initDatabase_inv (setupDatabase_inv h (hk hready).1) ((hk hready).2 hsetup)
  · exact setupDatabase_inv h (hk hready).1
  · exact h

theorem startRuns_inv {s : State} {runs : List Run} (h : Inv s) (hk : AllKeepPromises s runs) :
    Inv (startRuns s runs) := by
  induction runs generalizing s with
  | nil => exact h
  | cons r rs ih => exact ih (startRun_inv h hk.1) hk.2

def State.fresh (c : Cluster) : State := ⟨⟨c, []⟩, false, false⟩

theorem inv_fresh (c : Cluster) : Inv (.fresh c) where
  server := ⟨by simp [Granted, State.fresh], ⟨by simp [State.fresh], by simp [State.fresh]⟩⟩
  markers := ⟨by simp [State.fresh], by simp [State.fresh]⟩

/-- On any cluster, in a sequence of runs that each grant what they create and
whose files are cut off or accepted, the markers are true after every run. -/
theorem markers_true (c : Cluster) {runs : List Run} (h : AllKeepPromises (.fresh c) runs) :
    MarkersTrue (startRuns (.fresh c) runs) :=
  (startRuns_inv (inv_fresh c) h).markers

def smoothRun : Run where
  ready := true
  psqlFound := true
  adminPassword := true
  skipDbSetup := false
  skipDbInit := false
  forceReinit := false
  findDatabase := .ok
  createDatabase := .ok
  findUser := .ok
  createUser := .ok
  grant := .ok
  schema := []
  seed := []

def emptyCluster : Cluster := ⟨none, false⟩

/-- The connection is lost after the third seed row; the next run goes through. -/
def resumedRuns : List Run := [{ smoothRun with seed := [.ok, .ok, .lostAfter] }, smoothRun]

theorem markers_true_resumed :
    AllKeepPromises (.fresh emptyCluster) resumedRuns ∧
      MarkersTrue (startRuns (.fresh emptyCluster) resumedRuns) :=
  ⟨by decide, markers_true emptyCluster (by decide)⟩

def ungrantedRuns : List Run := [{ smoothRun with grant := .sqlError }, smoothRun]

def rejectedRuns : List Run := [{ smoothRun with schema := [.sqlError] }]

/-- After the first sequence the setup marker stands for a role without its
privileges, after the second one the initialisation marker for missing tables. -/
theorem markers_lie :
    ¬ MarkersTrue (startRuns (.fresh emptyCluster) ungrantedRuns) ∧
      ¬ MarkersTrue (startRuns (.fresh emptyCluster) rejectedRuns) := by
  constructor
  · intro h
    exact absurd ((h.setup (by decide)).2.2 (by decide)) (by decide)
  · intro h
    exact absurd (h.initialized (by decide)).1 (by decide)

end Deploy
end StudentGrades
