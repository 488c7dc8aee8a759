import StudentGrades.HttpServer
import StudentGrades.ResultLifetimes
import StudentGrades.ThreadPoolRuns

/-!
# The first entry from its start to its end

The threads of the pool serve the connections, each request that is taken from a
connection with the calls of the handler. The listening thread made the database connection
before, and closes it when `listen` returns. Whatever the order of the steps, every request
that was taken has then made all its calls, and nothing is left open.
-/

namespace StudentGrades
namespace Calls
open ByteText Lifecycle GuardedRuns ThreadPool

variable {J : Type*} {n : ℕ}

/-- A request on a connection: the filter that it hands to the handler, if it gets there, and
whether it closes the connection. -/
structure Asked where
  classFilter : Option Bytes
  closes : Bool

/-- The requests that the server takes from a connection. -/
def taken (requests : J → List Asked) (job : J) : List Asked :=
  Httplib.untilClosed Asked.closes Httplib.keepaliveMaxCount (requests job)

def requestCalls (answers : ℕ → Exec) (r : Asked) : List Call := r.classFilter.elim [] (handlerCalls answers)

def connectionCalls (answers : J × ℕ → ℕ → Exec) (requests : J → List Asked) (job : J) : List (ℕ × Call) :=
  (taken requests job).zipIdx.flatMap fun e => (requestCalls (answers (job, e.2)) e.1).map fun c => (e.2, c)

def callsOf (answers : J × ℕ → ℕ → Exec) (requests : J → List Asked) (i : J × ℕ) : List Call :=
  ((taken requests i.1)[i.2]?).elim [] (requestCalls (answers i))

def served (trace : List (J × ℕ × Call)) : List ((J × ℕ) × Call) :=
  trace.map fun e => ((e.1, e.2.1), e.2.2)

theorem project_connectionCalls (answers : J × ℕ → ℕ → Exec) (requests : J → List Asked) (job : J) (m : ℕ) :
    project m (connectionCalls answers requests job) = callsOf answers requests (job, m) := by
  rw [connectionCalls, project_zipIdx, if_pos (Nat.zero_le m)]
  rfl

theorem callsOf_prefix (answers : J × ℕ → ℕ → Exec) (requests : J → List Asked) (i : J × ℕ) :
    ∃ classFilter, callsOf answers requests i <+: handlerCalls (answers i) classFilter ∧
      ∀ {k : ℕ} {q : Query}, .exec k q ∈ callsOf answers requests i →
        .clear k ∈ callsOf answers requests i := by
  rw [callsOf]
  cases (taken requests i.1)[i.2]? with
  | none => exact ⟨[], List.nil_prefix, fun hq => by cases hq⟩
  | some r =>
    rw [Option.elim_some, requestCalls]
    cases r.classFilter with
    | none => exact ⟨[], List.nil_prefix, fun hq => by cases hq⟩
    | some classFilter => exact ⟨classFilter, List.prefix_rfl, exec_cleared⟩

section Projections
variable [DecidableEq J]

theorem project_served (job : J) (m : ℕ) (trace : List (J × ℕ × Call)) :
    project (job, m) (served trace) = project m (project job trace) := by
  induction trace with
  | nil => rfl
  | cons e trace ih =>
    obtain ⟨j, k, c⟩ := e
    rw [served, List.map_cons, ← served]
    by_cases hj : j = job
    · subst hj
      rw [project_cons_self]
      by_cases hk : k = m
      · subst hk
        rw [project_cons_self, project_cons_self, ih]
      · rw [project_cons_other hk, project_cons_other (by simp [hk]), ih]
    · rw [project_cons_other hj, project_cons_other (by simp [hj]), ih]

theorem served_begun {answers : J × ℕ → ℕ → Exec} {requests : J → List Asked}
    {s : State n J (ℕ × Call)} (h : Recorded (connectionCalls answers requests) s) (i : J × ℕ) :
    project i (served s.trace) <+: callsOf answers requests i := by
  obtain ⟨job, m⟩ := i
  rw [project_served, ← project_connectionCalls]
  exact ((h.done_begun job).filter _).map _

theorem served_cleared {answers : J × ℕ → ℕ → Exec} {requests : J → List Asked}
    {s : State n J (ℕ × Call)} (h : Recorded (connectionCalls answers requests) s)
    (hall : ∀ job ∈ s.begun, project job s.trace = connectionCalls answers requests job) (i : J × ℕ)
    {k : ℕ} {q : Query} (hq : (i, .exec k q) ∈ served s.trace) : (i, .clear k) ∈ served s.trace := by
  obtain ⟨job, m⟩ := i
  rw [← mem_project, project_served] at hq ⊢
  by_cases hjob : job ∈ s.begun
  · obtain ⟨-, -, hclear⟩ := callsOf_prefix answers requests (job, m)
    rw [hall job hjob, project_connectionCalls] at hq ⊢
    exact hclear hq
  · rw [h.untouched job hjob] at hq
    cases hq

end Projections

/-- The first entry's whole run, on a pool of at least one thread: the threads take turns
in any order, every database answer may be any, and connections may ask for any classes.
At any time each connection has made a beginning of its requests' calls, one request after the
other. When `listen` has returned, each request that was taken from an accepted connection has
made them all, every result is cleared, and the database connection is closed after the last
call on it. -/
theorem listen_calls [DecidableEq J] (answers : J × ℕ → ℕ → Exec) (requests : J → List Asked)
    (max_queued_requests : ℕ) (hn : 0 < n) {events : List (ThreadPool.Event n J)}
    (h : Meets (step (connectionCalls answers requests) max_queued_requests) Possible
      (start : State n J (ℕ × Call)) events) :
    let s := run (step (connectionCalls answers requests) max_queued_requests)
      (start : State n J (ℕ × Call)) events
    (∀ job, project job s.trace <+: connectionCalls answers requests job) ∧
      (∀ i : J × ℕ, project i (served s.trace) <+: callsOf answers requests i) ∧
      (s.listener = .joining [] →
        Balanced (acts (mainA .CONNECTION_OK true (served s.trace))) ∧
          ∀ job ∈ s.accepted, project job s.trace = connectionCalls answers requests job ∧
            ∀ m, project (job, m) (served s.trace) = callsOf answers requests (job, m)) := by
  intro s
  obtain ⟨hrecord, hawake⟩ : Sound (connectionCalls answers requests) s := sound_run h
  refine ⟨hrecord.done_begun, served_begun hrecord, fun hl => ?_⟩
  have hended : ∀ i, s.threads i = .ended := fun i => hawake.joined [] hl i (by simp)
  have hall := (hrecord.complete (hawake.ended _ (hended ⟨0, hn⟩)).2 hended).2
  have hdone : ∀ job ∈ s.accepted, ∀ m, project (job, m) (served s.trace) =
      callsOf answers requests (job, m) := fun job hjob m => by
    rw [project_served, hall job hjob, project_connectionCalls]
  have hbegun : ∀ job ∈ s.begun, job ∈ s.accepted := fun job hjob =>
    hrecord.queue ▸ List.mem_append_left _ hjob
  have hcleared := served_cleared hrecord fun job hjob => hall job (hbegun job hjob)
  choose filters hfilters using callsOf_prefix answers requests
  have hprefix : ∀ i, project i (served s.trace) <+: handlerCalls (answers i) (filters i) := fun i =>
    (served_begun hrecord i).trans (hfilters i).1
  exact ⟨balanced_of_cleared hprefix fun i _ _ => hcleared i, fun job hjob => ⟨hall job hjob, hdone job hjob⟩⟩

def sampleListen : List (ThreadPool.Event 1 Unit) :=
  .work 0 :: .accept () :: .notify 0 :: (List.replicate 14 (.work 0) ++ [.fail, .notifyAll, .work 0, .join])

def sampleRequests (_ : Unit) : List Asked := [⟨some [], false⟩, ⟨none, false⟩, ⟨some (utf8 "1"), true⟩]

theorem sampleListen_calls :
    let s := run (step (connectionCalls (fun _ _ _ => none) sampleRequests) 0)
      (start : State 1 Unit (ℕ × Call)) sampleListen
    (∀ job, project job s.trace <+: connectionCalls (fun _ _ _ => none) sampleRequests job) ∧
      (∀ i : Unit × ℕ, project i (served s.trace) <+: callsOf (fun _ _ _ => none) sampleRequests i) ∧
      (s.listener = .joining [] →
        Balanced (acts (mainA .CONNECTION_OK true (served s.trace))) ∧
          ∀ job ∈ s.accepted, project job s.trace = connectionCalls (fun _ _ _ => none) sampleRequests job ∧
            ∀ m, project (job, m) (served s.trace) = callsOf (fun _ _ _ => none) sampleRequests (job, m)) :=
  listen_calls (fun _ _ _ => none) sampleRequests 0 (by decide) (by decide)

end Calls
end StudentGrades
