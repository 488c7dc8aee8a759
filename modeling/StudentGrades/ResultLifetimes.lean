import StudentGrades.LibraryCalls

/-!
# The lifetimes of results and of the connection

Every result is cleared exactly once and is read only before, and every cell of its
columns is read once, whatever the server answers. The handler threads of the first
entry keep this in every interleaving of their calls. A program that could not
connect exits without releasing its handle.
-/

namespace StudentGrades
open ByteText Lifecycle

namespace Calls

structure Statement where
  query : Query
  width : ℕ
  parsed : ∃ s, Sql.parse query.sql = some s ∧ s.items.length = width

def classesStatement : Statement := ⟨Dao.classesQuery, 1, _, Dao.parse_classesSql, rfl⟩

def pivotStatement (classFilter : Bytes) : Statement :=
  ⟨Dao.pivotQuery classFilter, pivotWidth, _, Dao.parse_pivotSql classFilter, rfl⟩

def requestStatements (classFilter : Bytes) : List Statement :=
  [classesStatement, pivotStatement classFilter]

def statementCalls (answers : ℕ → Exec) (n : ℕ) (sts : List Statement) : List Call :=
  (sts.zipIdx n).flatMap fun e => block e.2 e.1.query (tableReads e.1.width (answers e.2 e.1.query))

theorem statementCalls_append (answers : ℕ → Exec) (n : ℕ) (as bs : List Statement) :
    statementCalls answers n (as ++ bs) =
      statementCalls answers n as ++ statementCalls answers (n + as.length) bs := by
  rw [statementCalls, List.zipIdx_append, List.flatMap_append]
  rfl

theorem mem_statementCalls {answers : ℕ → Exec} {n : ℕ} {sts : List Statement} {c : Call} :
    c ∈ statementCalls answers n sts ↔ ∃ st m, (st, m) ∈ sts.zipIdx n ∧
      c ∈ block m st.query (tableReads st.width (answers m st.query)) := by
  simp [statementCalls, List.mem_flatMap]

def page (answers : ℕ → Exec) (n : ℕ) (classFilter : Bytes) : Bytes :=
  Template.renderPage (Dao.classesOf (answers n Dao.classesQuery))
    (Dao.pivotRowsOf (answers (n + 1) (Dao.pivotQuery classFilter))) classFilter

def Client.ran (s : Client) (sts : List Statement) : Client :=
  { s.log (statementCalls s.answers s.sent sts) with sent := s.sent + sts.length }

theorem ran_ran (s : Client) (as bs : List Statement) : (s.ran as).ran bs = s.ran (as ++ bs) := by
  simp [Client.ran, Client.log, statementCalls_append, Nat.add_assoc]

theorem handleIndex_run {s : Client} (h : s.g_conn ≠ none) (classFilter : Bytes) :
    handleIndex classFilter s =
      (page s.answers s.sent classFilter, s.ran (requestStatements classFilter)) := by
  have hclasses := queryClasses_run h
  have hpivot := queryPivot_run
    (s := s.executed Dao.classesQuery (tableReads 1 (s.answers s.sent Dao.classesQuery))) h classFilter
  change (let r := queryClasses s; let t := queryPivot classFilter r.2;
    (Template.renderPage r.1 t.1 classFilter, t.2)) = _
  rw [hclasses]
  dsimp only
  rw [hpivot]
  have hran : (s.executed Dao.classesQuery (tableReads 1 (s.answers s.sent Dao.classesQuery))).executed
      (Dao.pivotQuery classFilter) (tableReads pivotWidth
        (s.answers (s.sent + 1) (Dao.pivotQuery classFilter))) =
      s.ran (requestStatements classFilter) := by
    simp [Client.executed, Client.ran, Client.log, requestStatements, statementCalls, classesStatement,
      pivotStatement]
  exact Prod.ext rfl hran

theorem handleIndex_page {s : Client} (h : s.g_conn ≠ none) {exec : Exec}
    (he : s.answers = fun _ => exec) (classFilter : Bytes) :
    (handleIndex classFilter s).1 = Handler.handleIndex (some exec) classFilter := by
  rw [handleIndex_run h, page, he]
  rfl

def pages (answers : ℕ → Exec) (n : ℕ) : List Bytes → List Bytes
  | [] => []
  | f :: fs => page answers n f :: pages answers (n + 2) fs

theorem handleAll_run {s : Client} (h : s.g_conn ≠ none) (requests : List Bytes) :
    requests.mapM handleIndex s =
      (pages s.answers s.sent requests, s.ran (requests.flatMap requestStatements)) := by
  induction requests generalizing s with
  | nil =>
    have hran : s.ran [] = s := log_nil s
    rw [List.flatMap_nil, hran]
    rfl
  | cons f fs ih =>
    rw [List.mapM_cons]
    change (let r := handleIndex f s; let t := fs.mapM handleIndex r.2; (r.1 :: t.1, t.2)) = _
    rw [handleIndex_run h]
    dsimp only
    rw [ih (s := s.ran (requestStatements f)) h, ran_ran]
    rfl

theorem mainD_run (conn : ConnStatusType) (answers : ℕ → Exec) (requests : List Bytes) :
    ((mainD requests (Client.start conn answers)).1,
        (mainD requests (Client.start conn answers)).2.calls) =
      if conn = .CONNECTION_OK then
        (pages answers 0 requests, .connectdb :: .status ::
          (statementCalls answers 0 (requests.flatMap requestStatements) ++ [.finish]))
      else ([], [.connectdb, .status]) := by
  cases conn with
  | CONNECTION_BAD => rfl
  | CONNECTION_OK =>
    have hall := handleAll_run (s := ⟨.CONNECTION_OK, answers, some .CONNECTION_OK, 0,
      [.connectdb, .status]⟩) (by simp) requests
    change (let r := requests.mapM handleIndex ⟨.CONNECTION_OK, answers, some .CONNECTION_OK, 0,
      [.connectdb, .status]⟩; let t := disconnectDb r.2; (r.1, t.2.calls)) = _
    rw [hall]
    rfl

theorem mainD_pages (exec : Exec) (requests : List Bytes) :
    (mainD requests (Client.start .CONNECTION_OK fun _ => exec)).1 =
      requests.map (Handler.handleIndex (some exec)) := by
  have hpages (n : ℕ) :
      pages (fun _ => exec) n requests = requests.map (Handler.handleIndex (some exec)) := by
    induction requests generalizing n with
    | nil => rfl
    | cons f fs ih => exact congrArg (Handler.handleIndex (some exec) f :: ·) (ih (n + 2))
  have hrun := mainD_run .CONNECTION_OK (fun _ => exec) requests
  rw [if_pos rfl, hpages] at hrun
  exact congrArg Prod.fst hrun

theorem acts_reads (n : ℕ) (as : List Access) :
    (reads n as).flatMap Call.acts = List.replicate as.length (some n, .read) := by
  induction as with
  | nil => rfl
  | cons a as ih => exact congrArg ((some n, Act.read) :: ·) ih

theorem acts_block (n : ℕ) (q : Query) (as : List Access) :
    (block n q as).flatMap Call.acts = (none, .read) :: (some n, .acquire) ::
      (List.replicate as.length (some n, .read) ++ [(some n, .release)]) := by
  rw [block, List.flatMap_cons, List.flatMap_append, acts_reads]
  rfl

theorem actsOn_block_self (n : ℕ) (q : Query) (as : List Access) :
    actsOn (some n) ((block n q as).flatMap Call.acts) =
      .acquire :: (List.replicate as.length .read ++ [.release]) := by
  rw [acts_block]
  simp [actsOn]

theorem actsOn_block_other {k n : ℕ} (h : n ≠ k) (q : Query) (as : List Access) :
    actsOn (some k) ((block n q as).flatMap Call.acts) = [] := by
  rw [acts_block]
  apply actsOn_of_ne
  intro e he
  simp only [List.mem_cons, List.mem_append, List.mem_replicate, List.not_mem_nil, or_false] at he
  rcases he with rfl | rfl | ⟨-, rfl⟩ | rfl <;> simp [h]

theorem actsOn_block_shared (n : ℕ) (q : Query) (as : List Access) :
    actsOn none ((block n q as).flatMap Call.acts) = [.read] := by
  rw [acts_block]
  simp [actsOn]

theorem statementCalls_cons (answers : ℕ → Exec) (n : ℕ) (st : Statement) (sts : List Statement) :
    statementCalls answers n (st :: sts) =
      block n st.query (tableReads st.width (answers n st.query)) ++ statementCalls answers (n + 1) sts :=
  rfl

theorem actsOn_statementCalls_lt {answers : ℕ → Exec} {k n : ℕ} (h : k < n) (sts : List Statement) :
    actsOn (some k) ((statementCalls answers n sts).flatMap Call.acts) = [] := by
  induction sts generalizing n with
  | nil => rfl
  | cons st sts ih =>
    rw [statementCalls_cons, List.flatMap_append, actsOn_append, actsOn_block_other (by omega),
      ih (by omega), List.append_nil]

theorem closed_statementCalls (answers : ℕ → Exec) (k n : ℕ) (sts : List Statement) :
    Closed (some k) ((statementCalls answers n sts).flatMap Call.acts) := by
  induction sts generalizing n with
  | nil => exact .inl rfl
  | cons st sts ih =>
    rw [statementCalls_cons, List.flatMap_append]
    by_cases hk : n = k
    · subst hk
      refine Closed.append (.inr ⟨_, fun a ha => ?_, actsOn_block_self _ _ _⟩) (ih (n + 1))
        (.inr (actsOn_statementCalls_lt (by omega) sts))
      exact List.eq_of_mem_replicate ha
    · exact Closed.append (.inl (actsOn_block_other hk _ _)) (ih (n + 1))
        (.inl (actsOn_block_other hk _ _))

theorem shared_statementCalls (answers : ℕ → Exec) (n : ℕ) (sts : List Statement) :
    ∀ a ∈ actsOn none ((statementCalls answers n sts).flatMap Call.acts), a = Act.read := by
  induction sts generalizing n with
  | nil => simp [statementCalls]
  | cons st sts ih =>
    rw [statementCalls_cons, List.flatMap_append, actsOn_append, actsOn_block_shared]
    exact List.forall_mem_cons.2 ⟨rfl, ih (n + 1)⟩

/-- Reads within the result: its status, and if it holds tuples their number, the
null flag of every cell of the columns, and the text of the cells that are not NULL. -/
def Access.Fits (width : ℕ) (res : Option PGresult) : Access → Prop
  | .resultStatus => True
  | .ntuples => StudentGrades.PQresultStatus res = .PGRES_TUPLES_OK
  | .getisnull row col => StudentGrades.PQresultStatus res = .PGRES_TUPLES_OK ∧
      row < StudentGrades.PQntuples res ∧ col < width
  | .getvalue row col => StudentGrades.PQresultStatus res = .PGRES_TUPLES_OK ∧
      row < StudentGrades.PQntuples res ∧ col < width ∧ cell res row col ≠ none

theorem mem_cellReads {res : Option PGresult} {row col : ℕ} {a : Access} :
    a ∈ cellReads res row col ↔
      a = .getisnull row col ∨ a = .getvalue row col ∧ cell res row col ≠ none := by
  rw [cellReads, List.mem_cons]
  cases h : cell res row col <;> simp

theorem mem_rowReads {width : ℕ} {res : Option PGresult} {r : ℕ} {a : Access} :
    a ∈ rowReads width res r ↔ ∃ col < width,
      a = .getisnull r col ∨ a = .getvalue r col ∧ cell res r col ≠ none := by
  simp only [rowReads, List.mem_flatMap, List.mem_range, mem_cellReads]

theorem mem_tableReads {width : ℕ} {res : Option PGresult} {a : Access} :
    a ∈ tableReads width res ↔ a.Fits width res := by
  rw [tableReads, List.mem_cons]
  by_cases hs : StudentGrades.PQresultStatus res = .PGRES_TUPLES_OK
  · rw [if_neg (not_not.2 hs), List.mem_cons]
    simp only [List.mem_flatMap, List.mem_range, mem_rowReads]
    cases a <;> simp [Access.Fits, hs]
  · rw [if_pos hs]
    cases a <;> simp [Access.Fits, hs]

theorem nodup_flatMap_of_key {α β γ : Type*} (key : β → γ) (g : α → γ) {f : α → List β} {l : List α}
    (hl : (l.map g).Nodup) (hf : ∀ a ∈ l, (f a).Nodup) (hk : ∀ a ∈ l, ∀ b ∈ f a, key b = g a) :
    (l.flatMap f).Nodup := by
  induction l with
  | nil => exact List.nodup_nil
  | cons a l ih =>
    rw [List.map_cons, List.nodup_cons] at hl
    rw [List.flatMap_cons]
    refine List.nodup_append.2 ⟨hf a (by simp), ih hl.2 (fun c hc => hf c (by simp [hc]))
      (fun c hc => hk c (by simp [hc])), ?_⟩
    rintro b hb b' hb' rfl
    obtain ⟨c, hc, hbc⟩ := List.mem_flatMap.1 hb'
    have hkey : g a = g c := (hk a (by simp) b hb).symm.trans (hk c (by simp [hc]) b hbc)
    exact hl.1 (hkey ▸ List.mem_map_of_mem hc)

def Access.row : Access → ℕ
  | .getisnull row _ | .getvalue row _ => row
  | _ => 0

def Access.col : Access → ℕ
  | .getisnull _ col | .getvalue _ col => col
  | _ => 0

theorem nodup_rowReads (width : ℕ) (res : Option PGresult) (r : ℕ) : (rowReads width res r).Nodup := by
  apply nodup_flatMap_of_key Access.col id
  · simpa using List.nodup_range
  · intro col _
    rw [cellReads]
    split_ifs <;> simp
  · intro col _ a ha
    rcases mem_cellReads.1 ha with rfl | ⟨rfl, -⟩ <;> rfl

theorem nodup_tableReads (width : ℕ) (res : Option PGresult) : (tableReads width res).Nodup := by
  rw [tableReads]
  split_ifs
  · simp
  · have hrows : ((List.range (StudentGrades.PQntuples res)).flatMap (rowReads width res)).Nodup := by
      apply nodup_flatMap_of_key Access.row id
      · simpa using List.nodup_range
      · exact fun r _ => nodup_rowReads width res r
      · intro r _ a ha
        obtain ⟨col, -, rfl | ⟨rfl, -⟩⟩ := mem_rowReads.1 ha <;> rfl
    refine List.nodup_cons.2 ⟨by simp [mem_rowReads], List.nodup_cons.2 ⟨by simp [mem_rowReads], hrows⟩⟩

def Call.result : Call → Option ℕ
  | .exec res _ | .access res _ | .clear res => some res
  | _ => none

theorem mem_reads {n : ℕ} {as : List Access} {c : Call} :
    c ∈ reads n as ↔ ∃ a ∈ as, c = .access n a := by
  simp [reads, eq_comm]

theorem mem_block {n : ℕ} {q : Query} {as : List Access} {c : Call} :
    c ∈ block n q as ↔ c = .exec n q ∨ (∃ a ∈ as, c = .access n a) ∨ c = .clear n := by
  simp [block, mem_reads]

theorem nodup_block {n : ℕ} {q : Query} {as : List Access} (h : as.Nodup) : (block n q as).Nodup := by
  have hreads : (reads n as).Nodup := h.map fun a b hab => by simpa using hab
  have hclear : ∀ c ∈ reads n as, ¬ c = .clear n := by
    intro c hc
    obtain ⟨a, -, rfl⟩ := mem_reads.1 hc
    simp
  simpa [block, List.nodup_append, hreads, mem_reads] using hclear

theorem nodup_statementCalls (answers : ℕ → Exec) (n : ℕ) (sts : List Statement) :
    (statementCalls answers n sts).Nodup := by
  apply nodup_flatMap_of_key Call.result fun e => some e.2
  · have hnumbers : (sts.zipIdx n).map (fun e => some e.2) = (List.range' n sts.length).map some := by
      rw [← List.zipIdx_map_snd n sts, List.map_map]
      rfl
    rw [hnumbers]
    exact (List.nodup_range' ..).map fun a b hab => by simpa using hab
  · exact fun e _ => nodup_block (nodup_tableReads _ _)
  · intro e _ c hc
    rcases mem_block.1 hc with rfl | ⟨a, -, rfl⟩ | rfl <;> rfl

/-- Every call is made once, and of the result of a statement is read what its columns
and its rows offer, all of it and nothing else. -/
structure ReadsAll (answers : ℕ → Exec) (calls : List Call) : Prop where
  once : calls.Nodup
  reads : ∀ n q, .exec n q ∈ calls → ∃ s, Sql.parse q.sql = some s ∧
    ∀ a, .access n a ∈ calls ↔ a.Fits s.items.length (answers n q)

theorem access_mem_statementCalls {answers : ℕ → Exec} {n m : ℕ} {sts : List Statement} {st : Statement}
    {a : Access} (h : (st, m) ∈ sts.zipIdx n) :
    .access m a ∈ statementCalls answers n sts ↔ a.Fits st.width (answers m st.query) := by
  constructor
  · intro ha
    obtain ⟨st', m', h', hc⟩ := mem_statementCalls.1 ha
    simp only [mem_block, Call.access.injEq, reduceCtorEq, false_or, or_false] at hc
    obtain ⟨a', ha', rfl, rfl⟩ := hc
    have hst : st' = st := by
      rw [List.mk_mem_zipIdx_iff_le_and_getElem?_sub] at h h'
      exact Option.some.inj (h'.2.symm.trans h.2)
    subst hst
    exact mem_tableReads.1 ha'
  · intro ha
    exact mem_statementCalls.2 ⟨st, m, h, mem_block.2 (.inr (.inl ⟨a, mem_tableReads.2 ha, rfl⟩))⟩

theorem readsAll_statementCalls (answers : ℕ → Exec) (sts : List Statement) :
    ReadsAll answers (statementCalls answers 0 sts) where
  once := nodup_statementCalls answers 0 sts
  reads n q h := by
    obtain ⟨st, m, hst, hc⟩ := mem_statementCalls.1 h
    simp only [mem_block, Call.exec.injEq, reduceCtorEq, and_false, exists_false, or_false] at hc
    obtain ⟨rfl, rfl⟩ := hc
    obtain ⟨s, hs, hwidth⟩ := st.parsed
    refine ⟨s, hs, fun a => ?_⟩
    rw [hwidth]
    exact access_mem_statementCalls hst

theorem result_of_mem_statementCalls {answers : ℕ → Exec} {n : ℕ} {sts : List Statement} {c : Call}
    (h : c ∈ statementCalls answers n sts) : c.result ≠ none := by
  obtain ⟨st, m, -, hc⟩ := mem_statementCalls.1 h
  rcases mem_block.1 hc with rfl | ⟨a, -, rfl⟩ | rfl <;> simp [Call.result]

def aroundCalls (calls : List Call) : List Call := .connectdb :: .status :: (calls ++ [.finish])

theorem mem_aroundCalls {calls : List Call} {c : Call} (h : c.result ≠ none) :
    c ∈ aroundCalls calls ↔ c ∈ calls := by
  have hconn : c ≠ .connectdb ∧ c ≠ .status ∧ c ≠ .finish := by
    refine ⟨?_, ?_, ?_⟩ <;> rintro rfl <;> exact h rfl
  simp [aroundCalls, hconn]

theorem readsAll_around (answers : ℕ → Exec) (sts : List Statement) :
    ReadsAll answers (aroundCalls (statementCalls answers 0 sts)) where
  once := by
    have hother {c : Call} (h : c.result = none) : c ∉ statementCalls answers 0 sts := fun hc =>
      result_of_mem_statementCalls hc h
    have hcalls := nodup_statementCalls answers 0 sts
    have hfinish : ∀ c ∈ statementCalls answers 0 sts, ¬ c = .finish := by
      rintro c hc rfl
      exact hother rfl hc
    simpa [aroundCalls, List.nodup_append, hcalls] using ⟨hother rfl, hother rfl, hfinish⟩
  reads n q hq := by
    have hall := readsAll_statementCalls answers sts
    obtain ⟨s, hs, hreads⟩ := hall.reads n q ((mem_aroundCalls (by simp [Call.result])).1 hq)
    exact ⟨s, hs, fun a => (mem_aroundCalls (by simp [Call.result])).trans (hreads a)⟩

theorem balanced_around (answers : ℕ → Exec) (sts : List Statement) :
    Balanced ((aroundCalls (statementCalls answers 0 sts)).flatMap Call.acts) := by
  have hacts : (aroundCalls (statementCalls answers 0 sts)).flatMap Call.acts =
      (none, .acquire) :: (none, .read) ::
        ((statementCalls answers 0 sts).flatMap Call.acts ++ [(none, .release)]) := by
    simp [aroundCalls, Call.acts]
  rw [hacts]
  apply balanced_of_closed
  intro k
  cases k with
  | none =>
    refine .inr ⟨.read :: actsOn none ((statementCalls answers 0 sts).flatMap Call.acts), ?_, ?_⟩
    · exact List.forall_mem_cons.2 ⟨rfl, shared_statementCalls answers 0 sts⟩
    · simp [actsOn]
  | some k =>
    have hk : actsOn (some k) ((none, Act.acquire) :: (none, .read) ::
        ((statementCalls answers 0 sts).flatMap Call.acts ++ [(none, .release)])) =
        actsOn (some k) ((statementCalls answers 0 sts).flatMap Call.acts) := by
      simp [actsOn]
    rw [Closed, hk]
    exact closed_statementCalls answers k 0 sts

theorem acquired_not_released (κ : Type*) [DecidableEq κ] :
    InTurn [((none : Option κ), Act.acquire), (none, .read)] ∧
      ¬ Balanced [((none : Option κ), Act.acquire), (none, .read)] := by
  constructor
  · intro k
    cases k with
    | none => rfl
    | some k => simp [actsOn, Phase.run]
  · intro h
    rcases h none with hn | hn <;> cases hn

def executed (calls : List Call) : List Query :=
  calls.filterMap fun
    | .exec _ q => some q
    | _ => none

theorem executed_statementCalls (answers : ℕ → Exec) (n : ℕ) (sts : List Statement) :
    executed (statementCalls answers n sts) = sts.map Statement.query := by
  induction sts generalizing n with
  | nil => rfl
  | cons st sts ih =>
    have hblock (as : List Access) : executed (block n st.query as) = [st.query] := by
      simp [executed, block, reads, List.filterMap_map]
    rw [statementCalls_cons, executed, List.filterMap_append, ← executed, ← executed, hblock, ih]
    rfl

/-- Whatever the server answers to each statement: a connected run of the second entry, up to
the return of `main`, sends two statements for each request, reads of every result exactly what it offers,
clears it once and reads it before that only, and closes the connection after all of
them. A run that could not connect leaves its handle open. -/
theorem mainD_calls (conn : ConnStatusType) (answers : ℕ → Exec) (requests : List Bytes) :
    ReadsAll answers (mainD requests (Client.start conn answers)).2.calls ∧
      executed (mainD requests (Client.start conn answers)).2.calls =
        (if conn = .CONNECTION_OK then
          requests.flatMap fun f => [Dao.classesQuery, Dao.pivotQuery f] else []) ∧
      InTurn ((mainD requests (Client.start conn answers)).2.calls.flatMap Call.acts) ∧
      (Balanced ((mainD requests (Client.start conn answers)).2.calls.flatMap Call.acts) ↔
        conn = .CONNECTION_OK) := by
  have hrun := congrArg Prod.snd (mainD_run conn answers requests)
  cases conn with
  | CONNECTION_OK =>
    rw [if_pos rfl] at hrun
    dsimp only at hrun
    rw [hrun]
    have hbalanced := balanced_around answers (requests.flatMap requestStatements)
    refine ⟨readsAll_around answers _, ?_, hbalanced.inTurn, fun _ => rfl, fun _ => hbalanced⟩
    have hqueries := executed_statementCalls answers 0 (requests.flatMap requestStatements)
    rw [List.map_flatMap] at hqueries
    rw [executed, List.filterMap_cons, List.filterMap_cons, List.filterMap_append, ← executed, hqueries]
    simp [requestStatements, classesStatement, pivotStatement]
  | CONNECTION_BAD =>
    rw [if_neg (by simp)] at hrun
    dsimp only at hrun
    rw [hrun]
    obtain ⟨hturn, hopen⟩ := acquired_not_released ℕ
    exact ⟨⟨by simp, by simp⟩, rfl, hturn, fun h => absurd h hopen, by simp⟩

/-- A handler thread finds the connection open and names its results itself. -/
def handlerCalls (answers : ℕ → Exec) (classFilter : Bytes) : List Call :=
  (handleIndex classFilter ⟨.CONNECTION_OK, answers, some .CONNECTION_OK, 0, []⟩).2.calls

section Handlers
variable {ι : Type*}

/-- The calls of the main thread, with those of the handler threads while it listens. It comes
to its end only if `listen` returns, not if a signal ends the process. -/
def mainA (conn : ConnStatusType) (returns : Bool) (served : List (ι × Call)) : List (Option ι × Call) :=
  let connected := connectDb (Client.start conn fun _ _ => none)
  connected.2.calls.map (fun c => (none, c)) ++
    if connected.1 then
      served.map (fun e => (some e.1, e.2)) ++
        if returns then (disconnectDb { connected.2 with calls := [] }).2.calls.map (fun c => (none, c))
        else []
    else []

theorem mainA_ok (served : List (ι × Call)) :
    mainA .CONNECTION_OK true served = (none, .connectdb) :: (none, .status) ::
      (served.map (fun e => (some e.1, e.2)) ++ [(none, .finish)]) := rfl

variable [DecidableEq ι]

def acts (calls : List (Option ι × Call)) : Trace (Option (Option ι × ℕ)) :=
  calls.flatMap fun e => owned e.1 e.2.acts

theorem handlerCalls_eq (answers : ℕ → Exec) (classFilter : Bytes) :
    handlerCalls answers classFilter = statementCalls answers 0 (requestStatements classFilter) := by
  rw [handlerCalls, handleIndex_run (by simp)]
  rfl

theorem project_some (i : ι) (served : List (ι × Call)) :
    project (some i) (mainA .CONNECTION_OK true served) = project i served := by
  have hserved : project (some i) (served.map fun e => (some e.1, e.2)) = project i served := by
    simp [project, List.filter_map, Function.comp_def]
  rw [mainA_ok, project_cons_other (by simp), project_cons_other (by simp), project,
    List.filter_append, List.map_append, ← project, hserved]
  simp

theorem project_none (served : List (ι × Call)) :
    project none (mainA .CONNECTION_OK true served) = [.connectdb, .status, .finish] := by
  have hserved : project none (served.map fun e => (some e.1, e.2)) = [] := by
    simp [project, List.filter_map, Function.comp_def]
  rw [mainA_ok, project_cons_self, project_cons_self, project, List.filter_append, List.map_append,
    ← project, hserved]
  rfl

theorem acquire_mem {n : ℕ} {calls : List Call} :
    .acquire ∈ actsOn (some n) (calls.flatMap Call.acts) ↔ ∃ q, .exec n q ∈ calls := by
  rw [mem_actsOn, List.mem_flatMap]
  constructor
  · rintro ⟨c, hc, ha⟩
    cases c <;> simp_all [Call.acts]
    exact ⟨_, hc⟩
  · rintro ⟨q, hq⟩
    exact ⟨_, hq, by simp [Call.acts]⟩

theorem release_mem {n : ℕ} {calls : List Call} :
    .release ∈ actsOn (some n) (calls.flatMap Call.acts) ↔ .clear n ∈ calls := by
  rw [mem_actsOn, List.mem_flatMap]
  constructor
  · rintro ⟨c, hc, ha⟩
    cases c <;> simp_all [Call.acts]
  · exact fun hc => ⟨_, hc, by simp [Call.acts]⟩

theorem shared_served {filters : ι → Bytes} {answers : ι → ℕ → Exec} {served : List (ι × Call)}
    (h : ∀ i, project i served <+: handlerCalls (answers i) (filters i)) :
    ∀ a ∈ served.flatMap (fun e => actsOn none e.2.acts), a = Act.read := by
  intro a ha
  obtain ⟨⟨i, c⟩, hc, ha⟩ := List.mem_flatMap.1 ha
  have hmem : c ∈ statementCalls (answers i) 0 (requestStatements (filters i)) :=
    handlerCalls_eq (answers i) (filters i) ▸ (h i).subset (mem_project.2 hc)
  refine shared_statementCalls (answers i) 0 (requestStatements (filters i)) a ?_
  exact mem_actsOn.2 (List.mem_flatMap.2 ⟨c, hmem, mem_actsOn.1 ha⟩)

theorem run_shared {filters : ι → Bytes} {answers : ι → ℕ → Exec} {served : List (ι × Call)}
    (h : ∀ i, project i served <+: handlerCalls (answers i) (filters i)) :
    Phase.unborn.run (actsOn none (acts (mainA .CONNECTION_OK true served))) = some .dead := by
  have hacts : actsOn none (acts (mainA .CONNECTION_OK true served)) = .acquire ::
      ((.read :: served.flatMap fun e => actsOn none e.2.acts) ++ [.release]) := by
    rw [acts, actsOn_shared, mainA_ok]
    simp [List.flatMap_map, Call.acts, actsOn]
  rw [hacts]
  exact Phase.run_bracket (List.forall_mem_cons.2 ⟨rfl, shared_served h⟩)

theorem run_main (n : ℕ) (served : List (ι × Call)) :
    Phase.unborn.run (actsOn (some (none, n)) (acts (mainA .CONNECTION_OK true served))) = some .unborn := by
  rw [acts, actsOn_interleaved, project_none]
  simp [Call.acts, actsOn, Phase.run]

theorem run_result {filters : ι → Bytes} {answers : ι → ℕ → Exec} {served : List (ι × Call)} {i : ι}
    (h : project i served <+: handlerCalls (answers i) (filters i)) (n : ℕ) :
    ((∀ q, (i, .exec n q) ∉ served) ∧
        Phase.unborn.run (actsOn (some (some i, n)) (acts (mainA .CONNECTION_OK true served))) =
          some .unborn) ∨
      ((∃ q, (i, .exec n q) ∈ served) ∧ (i, .clear n) ∉ served ∧
        Phase.unborn.run (actsOn (some (some i, n)) (acts (mainA .CONNECTION_OK true served))) =
          some .live) ∨
      ((i, .clear n) ∈ served ∧
        Phase.unborn.run (actsOn (some (some i, n)) (acts (mainA .CONNECTION_OK true served))) =
          some .dead) := by
  have hpre : actsOn (some n) ((project i served).flatMap Call.acts) <+:
      actsOn (some n) ((handlerCalls (answers i) (filters i)).flatMap Call.acts) :=
    ((h.flatMap Call.acts).filter _).map _
  have hclosed := closed_statementCalls (answers i) n 0 (requestStatements (filters i))
  rw [← handlerCalls_eq] at hclosed
  have hrun := hclosed.run_of_prefix hpre
  rw [acquire_mem, release_mem, not_exists] at hrun
  simp only [mem_project] at hrun
  rw [acts, actsOn_interleaved, project_some]
  exact hrun

theorem balanced_of_cleared {filters : ι → Bytes} {answers : ι → ℕ → Exec} {served : List (ι × Call)}
    (h : ∀ i, project i served <+: handlerCalls (answers i) (filters i))
    (hclear : ∀ i n q, (i, .exec n q) ∈ served → (i, .clear n) ∈ served) :
    Balanced (acts (mainA .CONNECTION_OK true served)) := by
  rintro (_ | ⟨_ | i, n⟩)
  · exact .inr (run_shared h)
  · exact .inl (run_main n served)
  · rcases run_result (h i) n with ⟨-, hr⟩ | ⟨⟨q, hq⟩, hno, -⟩ | ⟨-, hr⟩
    · exact .inl hr
    · exact absurd (hclear i n q hq) hno
    · exact .inr hr

theorem exec_cleared {answers : ℕ → Exec} {classFilter : Bytes} {n : ℕ} {q : Query}
    (h : .exec n q ∈ handlerCalls answers classFilter) : .clear n ∈ handlerCalls answers classFilter := by
  have hclosed := closed_statementCalls answers n 0 (requestStatements classFilter)
  rw [← handlerCalls_eq] at hclosed
  have hacquire := acquire_mem.2 ⟨q, h⟩
  rcases hclosed with hnone | ⟨reads, -, hall⟩
  · rw [hnone] at hacquire
    cases hacquire
  · exact release_mem.1 (by simp [hall])

omit [DecidableEq ι] in
theorem acts_killed (served : List (ι × Call)) :
    acts (mainA .CONNECTION_OK true served) =
      acts (mainA .CONNECTION_OK false served) ++ [(none, .release)] := by
  have hkilled : mainA .CONNECTION_OK true served =
      mainA .CONNECTION_OK false served ++ [(none, .finish)] := by
    have hopen : mainA .CONNECTION_OK false served = (none, .connectdb) :: (none, .status) ::
        (served.map (fun e => (some e.1, e.2)) ++ []) := rfl
    rw [hopen, mainA_ok]
    simp
  rw [hkilled, acts, List.flatMap_append]
  rfl

theorem killed_not_balanced {filters : ι → Bytes} {answers : ι → ℕ → Exec} {served : List (ι × Call)}
    (h : ∀ i, project i served <+: handlerCalls (answers i) (filters i)) :
    ¬ Balanced (acts (mainA .CONNECTION_OK false served)) := by
  intro hb
  have hrun := run_shared h
  rw [acts_killed, actsOn_append] at hrun
  have hrelease : actsOn none [((none : Option (Option ι × ℕ)), Act.release)] = [.release] := rfl
  rcases hb none with hn | hn
  · rw [Phase.run_append hn, hrelease] at hrun
    cases hrun
  · rw [Phase.run_append hn, hrelease] at hrun
    cases hrun

/-- Handler threads that are interleaved in any way and cut off anywhere, each with any
answers: no result is read before its statement or after it is cleared, none is cleared
twice, and no call on the connection comes before it is made or after it is closed. What
stays open is the connection if it could not be made or a signal ends the process, and the
results of the statements after which a handler was cut off. -/
theorem mainA_calls (conn : ConnStatusType) (returns : Bool) (filters : ι → Bytes)
    (answers : ι → ℕ → Exec) (served : List (ι × Call))
    (h : ∀ i, project i served <+: handlerCalls (answers i) (filters i)) :
    InTurn (acts (mainA conn returns served)) ∧
      (Balanced (acts (mainA conn returns served)) ↔ conn = .CONNECTION_OK ∧ returns = true ∧
        ∀ i n q, (i, .exec n q) ∈ served → (i, .clear n) ∈ served) := by
  cases conn with
  | CONNECTION_BAD =>
    obtain ⟨hturn, hopen⟩ := acquired_not_released (Option ι × ℕ)
    exact ⟨hturn, fun hb => absurd hb hopen, fun hc => by cases hc.1⟩
  | CONNECTION_OK =>
    have hturn : InTurn (acts (mainA .CONNECTION_OK true served)) := by
      rintro (_ | ⟨_ | i, n⟩)
      · rw [run_shared h]
        rfl
      · rw [run_main]
        rfl
      · rcases run_result (h i) n with ⟨-, hr⟩ | ⟨-, -, hr⟩ | ⟨-, hr⟩ <;> rw [hr] <;> rfl
    cases returns with
    | false =>
      have hopen := killed_not_balanced h
      rw [acts_killed] at hturn
      exact ⟨hturn.of_append, fun hb => absurd hb hopen, fun hc => by cases hc.2.1⟩
    | true =>
      refine ⟨hturn, fun hb => ⟨rfl, rfl, fun i n q hq => ?_⟩, fun hc => balanced_of_cleared h hc.2.2⟩
      have hi := hb (some (some i, n))
      rcases run_result (h i) n with ⟨hno, -⟩ | ⟨-, -, hr⟩ | ⟨hc, -⟩
      · exact absurd hq (hno q)
      · rw [hr] at hi
        rcases hi with hi | hi <;> cases hi
      · exact hc

end Handlers

def oneRow : Exec := fun _ => some ⟨.PGRES_TUPLES_OK, [[some (utf8 "7"), none]]⟩

def takingTurns : List (Bool × Call) :=
  ((handlerCalls (fun _ => oneRow) []).zip ((handlerCalls (fun _ => oneRow) (utf8 "1")).take 9)).flatMap
    fun e => [(true, e.2), (false, e.1)]

theorem takingTurns_calls :
    InTurn (acts (mainA .CONNECTION_OK true takingTurns)) ∧
      (Balanced (acts (mainA .CONNECTION_OK true takingTurns)) ↔
        (.CONNECTION_OK : ConnStatusType) = .CONNECTION_OK ∧ true = true ∧
          ∀ i n q, (i, .exec n q) ∈ takingTurns → (i, .clear n) ∈ takingTurns) :=
  mainA_calls .CONNECTION_OK true (fun i => if i then utf8 "1" else []) (fun _ _ => oneRow) takingTurns
    fun i => by
      cases i with
      | false => exact ⟨(handlerCalls (fun _ => oneRow) []).drop 9, rfl⟩
      | true => exact ⟨(handlerCalls (fun _ => oneRow) (utf8 "1")).drop 9, rfl⟩

end Calls
end StudentGrades
