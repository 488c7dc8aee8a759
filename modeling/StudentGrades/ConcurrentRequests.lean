import StudentGrades.Handler
import StudentGrades.SharedConnection

/-!
# Concurrent requests on the one connection

The handler threads of the first entry share the global connection without a
lock. A request makes two exchanges on it, the class statement and the pivot
statement with its own filter, and renders what it was handed. Requests get
their own results as long as none moves while another waits for a result, and in
a run that is not cut off inside an exchange only then.
-/

namespace StudentGrades
open ByteText Sql Dao Handler SharedConnection

variable {ι : Type*} {db : Tables} {col : Collation}

def script (filters : ι → Bytes) (i : ι) : List Query := [classesQuery, pivotQuery (filters i)]

def responseOf (classFilter : Bytes) : List (Option PGresult) → Option Response
  | [classes, pivot] => some (.http 200 contentType
      (Template.renderPage (classesOf classes) (pivotRowsOf pivot) classFilter))
  | _ => none

theorem exec_ne_none (session : Session col db) (filters : ι → Bytes) (i : ι) :
    ∀ q ∈ script filters i, session.exec q ≠ none := by
  have hparsed {q : Query} {s : Select} (h : parse q.sql = some s) : session.exec q ≠ none := by
    obtain ⟨rows, -, he⟩ := session.answers q s h
    simp [he]
  simp only [script, List.forall_mem_cons]
  exact ⟨hparsed parse_classesSql, hparsed (parse_pivotSql _), List.forall_mem_nil _⟩

variable [DecidableEq ι]

def serveRequests (session : Session col db) (filters : ι → Bytes) (schedule : List ι) :
    State ι Query (Option PGresult) :=
  run session.exec none (start (script filters)) schedule

def responseAfter (session : Session col db) (filters : ι → Bytes) (schedule : List ι) (i : ι) :
    Option Response :=
  responseOf (filters i) ((serveRequests session filters schedule).request i).received

def alone (i : ι) : List ι := List.replicate 6 i

structure OwnResults (session : Session col db) (filters : ι → Bytes) (schedule : List ι) : Prop where
  results : Own session.exec (script filters) (serveRequests session filters schedule)
  responses : ∀ i, responseAfter session filters schedule i ≠ none →
    responseAfter session filters schedule i = responseAfter session filters (alone i) i

def OneAtATime (session : Session col db) (filters : ι → Bytes) (schedule : List ι) : Prop :=
  Exclusive session.exec none (start (script filters)) schedule

theorem received_alone (session : Session col db) (filters : ι → Bytes) (i : ι) :
    ((serveRequests session filters (alone i)).request i).received =
      [session.exec classesQuery, session.exec (pivotQuery (filters i))] := by
  simp [serveRequests, alone, run, List.replicate, step, start, script, Request.finish]

theorem responseAfter_alone (session : Session col db) (filters : ι → Bytes) (i : ι) :
    responseAfter session filters (alone i) i =
      some (MainA.respond (some session.exec) (filters i)) := by
  rw [responseAfter, received_alone]
  rfl

theorem responseOf_ne_none {f : Bytes} {received : List (Option PGresult)}
    (h : responseOf f received ≠ none) : ∃ classes pivot, received = [classes, pivot] := by
  unfold responseOf at h
  split at h
  · exact ⟨_, _, rfl⟩
  · exact absurd rfl h

theorem ownResults_of_own {session : Session col db} {filters : ι → Bytes} {schedule : List ι}
    (h : Own session.exec (script filters) (serveRequests session filters schedule)) :
    OwnResults session filters schedule where
  results := h
  responses i hi := by
    have hown := h i
    obtain ⟨c, p, hr⟩ := responseOf_ne_none hi
    simp only [hr, script, List.map_cons, List.map_nil, List.cons_append, List.nil_append,
      List.cons.injEq] at hown
    rw [responseAfter_alone, responseAfter, hr, hown.1, hown.2.1]
    rfl

/-- Requests that move only while no other one waits for a result get their own
results, and a run that leaves no exchange half done gives them to no other schedule. -/
theorem requests_own_results (session : Session col db) (filters : ι → Bytes) (schedule : List ι) :
    (OneAtATime session filters schedule → OwnResults session filters schedule) ∧
      (Settled (serveRequests session filters schedule) →
        (OwnResults session filters schedule ↔ OneAtATime session filters schedule)) := by
  refine ⟨fun h => ownResults_of_own (inv_run none (inv_start _ _) h).own, fun hs => ?_⟩
  have hiff := own_iff_exclusive none (exec_ne_none session filters) hs
  exact ⟨fun h => hiff.1 h.results, fun h => ownResults_of_own (hiff.2 h)⟩

/-- Two requests for the two classes of the content; the second one sends its
pivot statement while the first one waits for its result. -/
def crossedFilters : Bool → Bytes
  | false => utf8 "一年一班"
  | true => utf8 "一年二班"

def crossedSchedule : List Bool :=
  [false, false, false, true, true, true, false, false, true, true, false, true]

theorem received_crossed (session : Session col db) :
    ((serveRequests session crossedFilters crossedSchedule).request false).received =
        [session.exec classesQuery, session.exec (pivotQuery (crossedFilters true))] ∧
      ((serveRequests session crossedFilters crossedSchedule).request true).received =
        [session.exec classesQuery, none] := by
  simp [serveRequests, crossedSchedule, run, step, start, script, Request.finish]

theorem crossed_not_own (session : Session col db) :
    ¬ OwnResults session crossedFilters crossedSchedule := by
  intro h
  have hown := h.results true
  rw [(received_crossed session).2] at hown
  simp only [script, List.map_cons, List.map_nil, List.cons_append, List.nil_append,
    List.cons.injEq, true_and] at hown
  exact exec_ne_none session crossedFilters true _ (by simp [script]) hown.1.symm

/-- The pivot statement of the first request is answered with the result of the
second one, which is handed none. -/
theorem crossed_requests :
    ((serveRequests (Session.sorting .bytewise sampleTables) crossedFilters
        crossedSchedule).request false).received =
      [(Session.sorting .bytewise sampleTables).exec classesQuery,
        (Session.sorting .bytewise sampleTables).exec (pivotQuery (crossedFilters true))] ∧
    ((serveRequests (Session.sorting .bytewise sampleTables) crossedFilters
        crossedSchedule).request true).received =
      [(Session.sorting .bytewise sampleTables).exec classesQuery, none] ∧
    ¬ OwnResults (Session.sorting .bytewise sampleTables) crossedFilters crossedSchedule :=
  ⟨(received_crossed _).1, (received_crossed _).2, crossed_not_own _⟩

end StudentGrades
