import StudentGrades.Seeding

/-!
# The content that start runs leave

Whatever the runs of the start script do on a blank database, wherever they are cut
off and whatever is rejected: the numbers of the students grow from one on in the
order they came, with a gap for every insertion that failed, each student has a name
and a class of the seed file, and the scores are whole copies of the seed scores, which
are there only beside the students they belong to. So the tables always satisfy the
keys of the schema.
-/

namespace StudentGrades
open ByteText StatementSession

namespace Deploy

structure Numbered (t : StudentsTable) : Prop where
  next : 1 ≤ t.nextId
  ids : (t.rows.map Student.id).Pairwise (· < ·)
  between : ∀ i ∈ t.rows.map Student.id, 1 ≤ i ∧ i < t.nextId
  seeded : ∀ s ∈ t.rows, nameClass s ∈ seedStudents

theorem Numbered.fresh {t : StudentsTable} (h : Numbered t) : ∀ s ∈ t.rows, s.id < t.nextId :=
  fun _ hs => (h.between _ (List.mem_map_of_mem hs)).2

theorem Numbered.nodup {t : StudentsTable} (h : Numbered t) : (t.rows.map Student.id).Nodup :=
  h.ids.imp fun hlt => hlt.ne

theorem numbered_nil : Numbered ⟨[], 1⟩ := ⟨le_rfl, .nil, by simp, by simp⟩

theorem Numbered.add {t : StudentsTable} (h : Numbered t) {p : Varchar 100 × Varchar 50}
    (hp : p ∈ seedStudents) : Numbered (t.add p) where
  next := by
    have hnext := h.next
    simp only [StudentsTable.add]
    omega
  ids := by
    simp only [StudentsTable.add, List.map_append, List.map_cons, List.map_nil]
    refine List.pairwise_append.2 ⟨h.ids, List.pairwise_singleton _ _, fun i hi j hj => ?_⟩
    rw [List.mem_singleton.1 hj]
    exact (h.between i hi).2
  between := by
    intro i hi
    have hnext := h.next
    simp only [StudentsTable.add, List.map_append, List.map_cons, List.map_nil, List.mem_append,
      List.mem_singleton] at hi ⊢
    rcases hi with hi | rfl
    · have hbetween := h.between i hi
      omega
    · omega
  seeded := by
    intro s hs
    simp only [StudentsTable.add, List.mem_append, List.mem_singleton] at hs
    rcases hs with hs | rfl
    · exact h.seeded s hs
    · exact hp

theorem Numbered.skip {t : StudentsTable} (h : Numbered t) : Numbered { t with nextId := t.nextId + 1 } where
  next := by
    have hnext := h.next
    simp only
    omega
  ids := h.ids
  between i hi := ⟨(h.between i hi).1, (h.between i hi).2.trans (lt_add_one _)⟩
  seeded := h.seeded

structure ContentInv (db : Database) : Prop where
  students : ∀ t ∈ db.students, Numbered t
  scores : ∃ copies, db.scoreRows = (List.replicate copies seedScores).flatten
  owners : db.scoreRows ≠ [] → ∀ sc ∈ seedScores, sc.studentId ∈ db.studentRows.map Student.id

theorem contentInv_blank : ContentInv ⟨none, none⟩ where
  students t h := by cases h
  scores := ⟨0, rfl⟩
  owners h := absurd rfl h

theorem contentInv_createStudents {db : Database} (h : ContentInv db) :
    ContentInv (db.exec .createStudents).1 := by
  obtain ⟨students, scores⟩ := db
  cases students with
  | none =>
    refine ⟨fun t ht => ?_, h.scores, fun hne => ?_⟩
    · simp only [Database.exec, Option.getD_none, Option.mem_def, Option.some.injEq] at ht
      exact ht ▸ numbered_nil
    · obtain ⟨sc, hsc⟩ := List.exists_mem_of_ne_nil seedScores (by decide)
      exact absurd (h.owners hne sc hsc) (by simp [Database.studentRows])
  | some t => exact h

theorem contentInv_createScores {db : Database} (h : ContentInv db) :
    ContentInv (db.exec .createScores).1 := by
  simp only [Database.exec]
  split_ifs
  · exact h
  · exact ⟨h.students, ⟨0, rfl⟩, fun hne => absurd rfl hne⟩
  · exact h

theorem contentInv_insertStudent {db : Database} (h : ContentInv db)
    {p : Varchar 100 × Varchar 50} (hp : p ∈ seedStudents) :
    ContentInv (db.exec (.insertStudent p.1 p.2)).1 := by
  obtain ⟨students, scores⟩ := db
  cases students with
  | none => exact h
  | some t =>
    have ht := h.students t rfl
    have hexec : (Database.exec (.insertStudent p.1 p.2) ⟨some t, scores⟩).1 =
        ⟨some (t.add p), scores⟩ := by
      simp [Database.exec, insert_fresh ht.fresh, StudentsTable.add]
    rw [hexec]
    refine ⟨fun u hu => ?_, h.scores, fun hne => ?_⟩
    · rw [Option.mem_def, Option.some.injEq] at hu
      exact hu ▸ ht.add hp
    · intro sc hsc
      have howner : sc.studentId ∈ t.rows.map Student.id := h.owners hne sc hsc
      simp only [Database.studentRows, Option.map_some, Option.getD_some, StudentsTable.add,
        List.map_append, List.mem_append]
      exact .inl howner

theorem seedScores_owners : ∀ sc ∈ seedScores, 1 ≤ sc.studentId ∧ sc.studentId ≤ 6 := by
  decide

theorem contentInv_insertScores {db : Database} (h : ContentInv db) :
    ContentInv (db.exec (.insertScores seedScores)).1 := by
  obtain ⟨students, scores⟩ := db
  cases students with
  | none => exact h
  | some t =>
    cases scores with
    | none => exact h
    | some old =>
      simp only [Database.exec]
      split_ifs with howners
      · obtain ⟨copies, hold⟩ := h.scores
        refine ⟨h.students, ⟨copies + 1, ?_⟩, fun _ => howners⟩
        rw [List.replicate_succ', List.flatten_append, ← hold]
        simp [Database.scoreRows]
      · exact h

theorem contentInv_exec {db : Database} (h : ContentInv db) {st : Stmt}
    (hst : st ∈ schemaFile ∨ st ∈ seedFile) : ContentInv (db.exec st).1 := by
  simp only [schemaFile, seedFile, List.mem_append, List.mem_map, List.mem_cons, List.not_mem_nil,
    or_false] at hst
  rcases hst with (rfl | rfl) | ⟨p, hp, rfl⟩ | rfl
  · exact contentInv_createStudents h
  · exact contentInv_createScores h
  · exact contentInv_insertStudent h hp
  · exact contentInv_insertScores h

theorem studentRows_undone (st : Stmt) (db : Database) :
    (db.undone st).studentRows = db.studentRows ∧ (db.undone st).scoreRows = db.scoreRows := by
  obtain ⟨students, scores⟩ := db
  cases st with
  | insertStudent name className => cases students <;> exact ⟨rfl, rfl⟩
  | _ => exact ⟨rfl, rfl⟩

theorem contentInv_undone {db : Database} (h : ContentInv db) (st : Stmt) : ContentInv (db.undone st) := by
  obtain ⟨hstudents, hscores⟩ := studentRows_undone st db
  refine ⟨fun u hu => ?_, hscores ▸ h.scores, hscores ▸ hstudents ▸ h.owners⟩
  cases st with
  | insertStudent name className =>
    obtain ⟨t, ht, rfl⟩ := Option.map_eq_some_iff.1 hu
    exact (h.students t ht).skip
  | _ => exact h.students u hu

theorem tablesOf_rollBack_some {st : Stmt} {s : Server} (hs : s.state.database.isSome) :
    tablesOf (rollBack Cluster.undone st s) = (tablesOf s).undone st := by
  obtain ⟨⟨database, role⟩, log⟩ := s
  cases database with
  | none => cases hs
  | some db => rfl

theorem contentInv_psqlFile {file : List Stmt} (hfile : ∀ st ∈ file, st ∈ schemaFile ∨ st ∈ seedFile)
    (fates : List Fate) {s : Server} (h : ContentInv (tablesOf s)) :
    ContentInv (tablesOf (psqlFile file fates s).1) := by
  rw [psqlFile]
  split_ifs with hconnected
  · rw [Bool.and_eq_true] at hconnected
    refine (session_preserves (P := fun t => t.state.database.isSome ∧ ContentInv (tablesOf t))
      (fun st hst t ht => ⟨perform_isSome st ht.1, ?_⟩)
      (fun _ _ _ st _ t ht => ⟨(grows_rollBack st t).database ht.1, ?_⟩) ⟨hconnected.1, h⟩).2
    · have htables : st.onTables = true :=
        (hfile st hst).elim (schemaFile_onTables st) (seedFile_onTables st)
      rw [tablesOf_perform htables ht.1]
      exact contentInv_exec ht.2 (hfile st hst)
    · rw [tablesOf_rollBack_some ht.1]
      exact contentInv_undone ht.2 st
  · exact h

theorem contentInv_startRun (r : Run) {s : State} (h : ContentInv (tablesOf s.server)) :
    ContentInv (tablesOf (startRun r s).1.server) := by
  have hsetup : ContentInv (tablesOf (setupDatabase r s).1.server) := by rwa [tablesOf_setup]
  have hinit {t : State} (ht : ContentInv (tablesOf t.server)) :
      ContentInv (tablesOf (initDatabase r t).1.server) := by
    have hschema : ContentInv (tablesOf (schemaStep r t.server).1) :=
      contentInv_psqlFile (fun _ => .inl) r.schema ht
    have hseed : ContentInv (tablesOf (seedStep r (schemaStep r t.server).1).1) :=
      contentInv_psqlFile (fun _ => .inr) r.seed hschema
    rcases initDatabase_cases r t with (he | he) | ⟨-, -, he⟩ | ⟨-, -, ⟨-, he⟩ | ⟨-, he⟩⟩ <;> rwa [he]
  simp only [startRun]
  split_ifs
  · exact hinit hsetup
  · exact hsetup
  · exact h

theorem contentInv_startRuns (created role : Bool) (runs : List Run) :
    ContentInv (tablesOf (startRuns (blankState created role) runs).server) := by
  have hall (s : State) (h : ContentInv (tablesOf s.server)) :
      ContentInv (tablesOf (startRuns s runs).server) := by
    induction runs generalizing s with
    | nil => exact h
    | cons r rs ih => exact ih _ (contentInv_startRun r h)
  apply hall
  cases created <;> exact contentInv_blank

theorem ContentInv.primaryKey {db : Database} (h : ContentInv db) :
    (db.studentRows.map Student.id).Nodup := by
  cases ht : db.students with
  | none => simp [Database.studentRows, ht]
  | some t => simpa [Database.studentRows, ht] using (h.students t ht).nodup

theorem ContentInv.foreignKey {db : Database} (h : ContentInv db) :
    ∀ sc ∈ db.scoreRows, sc.studentId ∈ db.studentRows.map Student.id := by
  intro sc hsc
  have howners := h.owners (List.ne_nil_of_mem hsc)
  obtain ⟨copies, hscores⟩ := h.scores
  rw [hscores] at hsc
  obtain ⟨l, hl, hsc⟩ := List.mem_flatten.1 hsc
  rw [List.eq_of_mem_replicate hl] at hsc
  exact howners sc hsc

def ContentInv.tables {db : Database} (h : ContentInv db) : Tables :=
  ⟨db.studentRows, db.scoreRows, h.primaryKey, h.foreignKey⟩

def Extends (db db' : Database) : Prop :=
  db.studentRows <+: db'.studentRows ∧ db.scoreRows <+: db'.scoreRows

theorem Extends.refl (db : Database) : Extends db db := ⟨List.prefix_rfl, List.prefix_rfl⟩

theorem Extends.trans {a b c : Database} (hab : Extends a b) (hbc : Extends b c) : Extends a c :=
  ⟨hab.1.trans hbc.1, hab.2.trans hbc.2⟩

theorem extends_exec (st : Stmt) (db : Database) : Extends db (db.exec st).1 := by
  obtain ⟨students, scores⟩ := db
  cases st with
  | createDatabase => exact .refl _
  | createUser => exact .refl _
  | grantAll => exact .refl _
  | createStudents => cases students <;> exact .refl _
  | createScores =>
    simp only [Database.exec]
    split_ifs with hscores
    · exact .refl _
    · cases scores with
      | none => exact .refl _
      | some old => simp at hscores
    · exact .refl _
  | insertStudent name className =>
    cases students with
    | none => exact .refl _
    | some t =>
      refine ⟨?_, List.prefix_rfl⟩
      simp only [Database.exec, Database.studentRows, Option.map_some, Option.getD_some,
        StudentsTable.insert]
      split_ifs
      · exact List.prefix_rfl
      · exact List.prefix_append _ _
  | insertScores rows =>
    cases students with
    | none => exact .refl _
    | some t =>
      cases scores with
      | none => exact .refl _
      | some old =>
        simp only [Database.exec]
        split_ifs
        · exact ⟨List.prefix_rfl, List.prefix_append _ _⟩
        · exact .refl _

theorem extends_perform (st : Stmt) (s : Server) :
    Extends (tablesOf s) (tablesOf (perform Cluster.exec st s).1) := by
  cases hst : st.onTables with
  | false =>
    rw [tablesOf_perform_admin hst]
    exact .refl _
  | true =>
    by_cases hs : s.state.database.isSome
    · rw [tablesOf_perform hst hs]
      exact extends_exec st _
    · obtain ⟨⟨database, role⟩, log⟩ := s
      cases database with
      | none => exact ⟨List.nil_prefix, List.nil_prefix⟩
      | some db => simp at hs

theorem extends_rollBack (st : Stmt) (s : Server) :
    Extends (tablesOf s) (tablesOf (rollBack Cluster.undone st s)) := by
  obtain ⟨⟨database, role⟩, log⟩ := s
  cases database with
  | none => exact .refl _
  | some db =>
    obtain ⟨hstudents, hscores⟩ := studentRows_undone st db
    have hsame : tablesOf (rollBack Cluster.undone st ⟨⟨some db, role⟩, log⟩) = db.undone st := rfl
    rw [hsame, Extends, hstudents, hscores]
    exact ⟨List.prefix_rfl, List.prefix_rfl⟩

theorem extends_psqlFile (file : List Stmt) (fates : List Fate) (s : Server) :
    Extends (tablesOf s) (tablesOf (psqlFile file fates s).1) := by
  rw [psqlFile]
  split_ifs
  · exact session_preserves (P := fun t => Extends (tablesOf s) (tablesOf t))
      (fun st _ t ht => ht.trans (extends_perform st t))
      (fun _ _ _ st _ t ht => ht.trans (extends_rollBack st t)) (.refl _)
  · exact .refl _

theorem extends_startRun (r : Run) (s : State) :
    Extends (tablesOf s.server) (tablesOf (startRun r s).1.server) := by
  have hinit (t : State) : Extends (tablesOf t.server) (tablesOf (initDatabase r t).1.server) := by
    have hschema := extends_psqlFile schemaFile r.schema t.server
    have hseed := extends_psqlFile seedFile r.seed (schemaStep r t.server).1
    rcases initDatabase_cases r t with (he | he) | ⟨-, -, he⟩ | ⟨-, -, ⟨-, he⟩ | ⟨-, he⟩⟩ <;> rw [he]
    · exact .refl _
    · exact .refl _
    · exact hschema
    · exact hschema.trans hseed
    · exact hschema.trans hseed
  have hsetup := tablesOf_setup r s
  simp only [startRun]
  split_ifs
  · have h := hinit (setupDatabase r s).1
    rwa [hsetup] at h
  · rw [hsetup]
    exact .refl _
  · exact .refl _

theorem extends_startRuns (s : State) (runs : List Run) :
    Extends (tablesOf s.server) (tablesOf (startRuns s runs).server) := by
  induction runs generalizing s with
  | nil => exact .refl _
  | cons r rs ih => exact (extends_startRun r s).trans (ih (startRun r s).1)

end Deploy
end StudentGrades
