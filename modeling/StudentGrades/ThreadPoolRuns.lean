import Mathlib.Algebra.BigOperators.Group.Finset.Piecewise
import Mathlib.Algebra.Order.BigOperators.Group.Finset
import StudentGrades.ThreadPool

/-!
# Runs of the thread pool

No job waits on the list while every thread sleeps, and no thread sleeps once the pool
is to end. Every step after that brings the end closer, and at the end every job that
was accepted has been done, once and to its end.
-/

namespace StudentGrades
namespace ThreadPool
open GuardedRuns Lifecycle

variable {n : ℕ} {J A : Type*}

def total (f : Worker J A → ℕ) (threads : Fin n → Worker J A) : ℕ := ∑ i, f (threads i)

theorem total_put (f : Worker J A → ℕ) (s : State n J A) (i : Fin n) (w : Worker J A) :
    total f (s.put i w).threads + f (s.threads i) = total f s.threads + f w := by
  have hrest : ∑ j ∈ Finset.univ.erase i, f ((s.put i w).threads j) =
      ∑ j ∈ Finset.univ.erase i, f (s.threads j) :=
    Finset.sum_congr rfl fun j hj => by rw [put_other s w (Finset.ne_of_mem_erase hj)]
  rw [total, total, ← Finset.add_sum_erase _ _ (Finset.mem_univ i),
    ← Finset.add_sum_erase _ (fun j => f (s.threads j)) (Finset.mem_univ i), hrest, put_self]
  omega

theorem exists_of_total_pos {f : Worker J A → ℕ} {threads : Fin n → Worker J A} (h : 0 < total f threads) :
    ∃ i, 0 < f (threads i) := by
  by_contra hnone
  simp only [not_exists, Nat.not_lt, Nat.le_zero] at hnone
  exact absurd h (by simp [total, hnone])

def Worker.readiness : Worker J A → ℕ
  | .ready => 1
  | _ => 0

def Listener.pending : Listener n → ℕ
  | .pushed => 1
  | _ => 0

def Listener.closing : Listener n → Bool
  | .flagged => true
  | .joining _ => true
  | _ => false

/-- While a thread waits, there is a thread at the mutex or a notification on its way for
each job on the list; no thread ends before the list is empty, and none waits after
`notify_all`. -/
structure Awake (s : State n J A) : Prop where
  notified : ∀ i, s.threads i = .waiting →
    s.jobs.length ≤ total Worker.readiness s.threads + s.listener.pending
  ended : ∀ i, s.threads i = .ended → s.shutdown = true ∧ s.jobs = []
  flag : s.shutdown = s.listener.closing
  awake : ∀ left, s.listener = .joining left → ∀ i, s.threads i ≠ .waiting
  joined : ∀ left, s.listener = .joining left → ∀ i, i ∉ left → s.threads i = .ended

theorem awake_start : Awake (start : State n J A) where
  notified i h := by cases h
  ended i h := by cases h
  flag := rfl
  awake left h := by cases h
  joined left h := by cases h

section Steps
variable {script : J → List A} {max_queued_requests : ℕ} {s : State n J A} {i : Fin n}

theorem Awake.put (h : Awake s) {w : Worker J A} (hwait : w ≠ .waiting)
    (hended : w = .ended ↔ s.threads i = .ended)
    (hready : Worker.readiness (s.threads i) ≤ Worker.readiness w) : Awake (s.put i w) where
  notified j hj := by
    have htotal := total_put Worker.readiness s i w
    rcases put_cases hj with ⟨-, hw⟩ | ⟨-, hj⟩
    · exact absurd hw hwait
    · have := h.notified j hj
      rw [put_jobs, put_listener]
      omega
  ended j hj := by
    rcases put_cases hj with ⟨-, hw⟩ | ⟨-, hj⟩
    · exact h.ended i (hended.1 hw)
    · exact h.ended j hj
  flag := h.flag
  awake left hl j hj := by
    rcases put_cases hj with ⟨-, hw⟩ | ⟨-, hj⟩
    · exact hwait hw
    · exact h.awake left hl j hj
  joined left hl j hj := by
    have hold := h.joined left hl j hj
    by_cases hji : j = i
    · subst hji
      rw [put_self]
      exact hended.2 hold
    · rw [put_other s w hji, hold]

theorem Awake.woken (h : Awake s) (hi : s.threads i = .waiting) : Awake (s.put i (s.threads i).woken) := by
  refine h.put (woken_ne_waiting _) woken_ended ?_
  rw [hi]
  exact Nat.zero_le _

theorem Awake.accept (h : Awake s) (hl : s.listener = .accepting) (job : J) (accepted : List J) :
    Awake { s with jobs := s.jobs ++ [job], accepted := accepted, listener := .pushed } := by
  have hopen : s.shutdown = false := by rw [h.flag, hl]; rfl
  exact {
    notified := fun j hj => by
      have hold := h.notified j hj
      rw [hl] at hold
      change (s.jobs ++ [job]).length ≤ total Worker.readiness s.threads + 1
      rw [List.length_append, List.length_singleton]
      exact Nat.succ_le_succ hold
    ended := fun j hj => by
      have hold := (h.ended j hj).1
      rw [hopen] at hold
      cases hold
    flag := hopen
    awake := fun left hleft => by cases hleft
    joined := fun left hleft => by cases hleft }

theorem Awake.notify (h : Awake s) (hl : s.listener = .pushed)
    (hi : s.threads i = .waiting ∨ ∀ j, s.threads j ≠ .waiting) :
    Awake { s.put i (s.threads i).woken with listener := .accepting } where
  notified j hj := by
    rcases put_cases hj with ⟨-, hw⟩ | ⟨-, hj⟩
    · exact absurd hw (woken_ne_waiting _)
    · have hold := h.notified j hj
      have htotal := total_put Worker.readiness s i (s.threads i).woken
      have hwaits : s.threads i = .waiting := hi.resolve_right fun hnone => hnone j hj
      rw [hwaits] at htotal
      rw [hl] at hold
      change s.jobs.length ≤ total Worker.readiness (s.put i (s.threads i).woken).threads + 0
      rw [hwaits]
      simp only [Worker.woken, Worker.readiness, Listener.pending] at htotal hold ⊢
      omega
  ended j hj := by
    rcases put_cases hj with ⟨-, hw⟩ | ⟨-, hj⟩
    · exact h.ended i (woken_ended.1 hw)
    · exact h.ended j hj
  flag := by
    have hopen := h.flag
    rw [hl] at hopen
    exact hopen
  awake left hleft := by cases hleft
  joined left hleft := by cases hleft

theorem Awake.notifyAll (h : Awake s) (hl : s.listener = .flagged) :
    Awake { s with threads := fun i => (s.threads i).woken, listener := .joining (List.finRange n) } where
  notified j hj := absurd hj (woken_ne_waiting _)
  ended j hj := h.ended j (woken_ended.1 hj)
  flag := by
    have hclosing := h.flag
    rw [hl] at hclosing
    exact hclosing
  awake left _ j := woken_ne_waiting _
  joined left hleft j hj := by
    cases hleft
    exact absurd (List.mem_finRange j) hj

theorem Awake.join (h : Awake s) {left : List (Fin n)} (hl : s.listener = .joining (i :: left))
    (hi : s.threads i = .ended) : Awake { s with listener := .joining left } where
  notified j hj := absurd hj (h.awake _ hl j)
  ended := h.ended
  flag := by
    have hclosing := h.flag
    rw [hl] at hclosing
    exact hclosing
  awake _ _ := h.awake _ hl
  joined rest hrest j hj := by
    cases hrest
    by_cases hji : j = i
    · exact hji ▸ hi
    · exact h.joined _ hl j (by simp [hji, hj])

theorem Awake.take (h : Awake s) {job : J} {jobs : List J} (hi : s.threads i = .ready)
    (hjobs : s.jobs = job :: jobs) (todo : List A) (begun : List J) :
    Awake { s.put i (.running job todo) with jobs := jobs, begun := begun } := by
  have hnone : ∀ j, s.threads j ≠ .ended := fun j hj => by
    have hempty := (h.ended j hj).2
    rw [hjobs] at hempty
    cases hempty
  exact {
    notified := fun j hj => by
      rcases put_cases hj with ⟨-, hw⟩ | ⟨-, hj⟩
      · cases hw
      · have hold := h.notified j hj
        have htotal := total_put Worker.readiness s i (.running job todo)
        rw [hjobs, List.length_cons] at hold
        rw [hi] at htotal
        simp only [Worker.readiness] at htotal
        change jobs.length ≤ total Worker.readiness (s.put i (.running job todo)).threads + s.listener.pending
        omega
    ended := fun j hj => by
      rcases put_cases hj with ⟨-, hw⟩ | ⟨-, hj⟩
      · cases hw
      · exact absurd hj (hnone j)
    flag := h.flag
    awake := fun left hl j hj => by
      rcases put_cases hj with ⟨-, hw⟩ | ⟨-, hj⟩
      · cases hw
      · exact h.awake left hl j hj
    joined := fun left hl j hj => absurd (h.joined left hl j hj) (hnone j) }

theorem Awake.idle (h : Awake s) (hjobs : s.jobs = []) :
    Awake (s.put i (if s.shutdown then .ended else .waiting)) where
  notified j _ := by
    rw [put_jobs, hjobs]
    exact Nat.zero_le _
  ended j hj := by
    rcases put_cases hj with ⟨-, hw⟩ | ⟨-, hj⟩
    · have hclosing : s.shutdown = true := by
        by_contra hopen
        rw [if_neg hopen] at hw
        cases hw
      exact ⟨hclosing, hjobs⟩
    · exact h.ended j hj
  flag := h.flag
  awake left hl j hj := by
    have hclosing : s.shutdown = true := by rw [h.flag, show s.listener = .joining left from hl]; rfl
    rcases put_cases hj with ⟨-, hw⟩ | ⟨-, hj⟩
    · rw [if_pos hclosing] at hw
      cases hw
    · exact h.awake left hl j hj
  joined left hl j hj := by
    have hclosing : s.shutdown = true := by rw [h.flag, show s.listener = .joining left from hl]; rfl
    by_cases hji : j = i
    · rw [hji, put_self, if_pos hclosing]
    · rw [put_other s _ hji, h.joined left hl j hj]

theorem Awake.step (h : Awake s) (e : Event n J) (he : Possible s e) :
    Awake (step script max_queued_requests s e) := by
  cases e with
  | accept job =>
    rw [ThreadPool.step]
    split_ifs
    · exact h
    · exact h.accept he.1 job _
  | notify i => exact h.notify he.1 he.2
  | fail =>
    exact {
      notified := fun j hj => by
        have hold := h.notified j hj
        rw [show s.listener = .accepting from he] at hold
        exact hold
      ended := fun j hj => ⟨rfl, (h.ended j hj).2⟩
      flag := rfl
      awake := fun left hleft => by cases hleft
      joined := fun left hleft => by cases hleft }
  | notifyAll => exact h.notifyAll he
  | join =>
    obtain ⟨i, left, hl, hi⟩ := he
    rw [ThreadPool.step, hl]
    exact h.join hl hi
  | wake i => exact h.woken he
  | work i =>
    rcases work_cases script max_queued_requests he with ⟨job, jobs, hi, hjobs, hs⟩ | ⟨hi, hjobs, hs⟩ |
      ⟨job, a, todo, hi, hs⟩ | ⟨job, hi, hs⟩
    · rw [hs]
      exact h.take hi hjobs _ _
    · rw [hs]
      exact h.idle hjobs
    · rw [hs]
      have hput : Awake (s.put i (.running job todo)) :=
        h.put (by simp) (by simp [hi]) (by simp [hi, Worker.readiness])
      exact ⟨hput.notified, hput.ended, hput.flag, hput.awake, hput.joined⟩
    · rw [hs]
      have hput : Awake (s.put i (.ready : Worker J A)) :=
        h.put (by simp) (by simp [hi]) (by simp [hi, Worker.readiness])
      exact ⟨hput.notified, hput.ended, hput.flag, hput.awake, hput.joined⟩

end Steps

section Progress
variable {script : J → List A} {max_queued_requests : ℕ} {s : State n J A}

theorem Awake.queued_moves (h : Awake s) (hn : 0 < n) (hjobs : s.jobs ≠ []) :
    ∃ i, Possible s (.notify i) ∨ Possible s (.work i) := by
  by_cases hwait : ∃ i, s.threads i = .waiting
  · obtain ⟨i, hi⟩ := hwait
    have hlen := h.notified i hi
    have hpos := List.length_pos_iff.2 hjobs
    cases hl : s.listener with
    | pushed => exact ⟨i, .inl ⟨hl, .inl hi⟩⟩
    | accepting | flagged | joining left =>
      rw [hl] at hlen
      simp only [Listener.pending] at hlen
      obtain ⟨j, hj⟩ := exists_of_total_pos (show 0 < total Worker.readiness s.threads by omega)
      refine ⟨j, .inr (.inl ?_)⟩
      cases hw : s.threads j with
      | ready => rfl
      | waiting | running job todo | ended => simp [hw, Worker.readiness] at hj
  · simp only [not_exists] at hwait
    refine ⟨⟨0, hn⟩, .inr ?_⟩
    cases hw : s.threads ⟨0, hn⟩ with
    | ready => exact .inl hw
    | waiting => exact absurd hw (hwait _)
    | running job todo => exact .inr ⟨job, todo, hw⟩
    | ended => exact absurd (h.ended _ hw).2 hjobs

def Worker.weight : Worker J A → ℕ
  | .ready => 1
  | .waiting => 2
  | .running _ todo => todo.length + 2
  | .ended => 0

def Listener.left : Listener n → ℕ
  | .flagged => n + 1
  | .joining left => left.length
  | _ => 0

def listWeight (script : J → List A) : List J → ℕ
  | [] => 0
  | job :: jobs => (script job).length + 2 + listWeight script jobs

theorem weight_woken (w : Worker J A) : w.woken.weight ≤ w.weight := by
  cases w <;> simp [Worker.woken, Worker.weight]

def rank (script : J → List A) (s : State n J A) : ℕ :=
  listWeight script s.jobs + total Worker.weight s.threads + s.listener.left

theorem shutdown_step (e : Event n J) (h : s.shutdown = true) :
    (step script max_queued_requests s e).shutdown = true := by
  cases e with
  | accept job =>
    rw [ThreadPool.step]
    split_ifs <;> exact h
  | notify i => exact h
  | fail => rfl
  | notifyAll => exact h
  | join =>
    rw [ThreadPool.step]
    split <;> exact h
  | wake i => exact h
  | work i =>
    rw [ThreadPool.step]
    split
    · rw [State.enter]
      split <;> exact h
    · exact h
    · exact h
    · exact h

theorem Awake.rank_step (h : Awake s) (hs : s.shutdown = true) {e : Event n J} (he : Possible s e) :
    rank script (ThreadPool.step script max_queued_requests s e) < rank script s := by
  have hclosing : s.listener.closing = true := h.flag ▸ hs
  cases e with
  | accept job =>
    rw [he.1] at hclosing
    cases hclosing
  | notify i =>
    rw [he.1] at hclosing
    cases hclosing
  | fail =>
    rw [show s.listener = .accepting from he] at hclosing
    cases hclosing
  | notifyAll =>
    have htotal : total Worker.weight (fun i => (s.threads i).woken) ≤ total Worker.weight s.threads :=
      Finset.sum_le_sum fun i _ => weight_woken (s.threads i)
    simp only [rank, ThreadPool.step, Listener.left, show s.listener = .flagged from he,
      List.length_finRange]
    omega
  | join =>
    obtain ⟨i, left, hl, -⟩ := he
    simp only [rank, ThreadPool.step, hl, Listener.left, List.length_cons]
    omega
  | wake i =>
    have htotal := total_put Worker.weight s i (s.threads i).woken
    rw [show s.threads i = .waiting from he] at htotal
    simp only [Worker.woken, Worker.weight] at htotal
    simp only [rank, ThreadPool.step, show s.threads i = .waiting from he, put_jobs, put_listener,
      Worker.woken]
    omega
  | work i =>
    rcases work_cases script max_queued_requests he with ⟨job, jobs, hi, hjobs, hstep⟩ | ⟨hi, hjobs, hstep⟩ |
      ⟨job, a, todo, hi, hstep⟩ | ⟨job, hi, hstep⟩
    · have htotal := total_put Worker.weight s i (.running job (script job))
      rw [hi] at htotal
      rw [hstep]
      simp only [rank, put_listener, hjobs, listWeight, Worker.weight] at htotal ⊢
      omega
    · have htotal := total_put Worker.weight s i .ended
      rw [hi] at htotal
      rw [hstep, if_pos hs]
      simp only [rank, put_listener, put_jobs, Worker.weight] at htotal ⊢
      omega
    · have htotal := total_put Worker.weight s i (.running job todo)
      rw [hi] at htotal
      rw [hstep]
      simp only [rank, put_listener, put_jobs, Worker.weight, List.length_cons] at htotal ⊢
      omega
    · have htotal := total_put Worker.weight s i .ready
      rw [hi] at htotal
      rw [hstep]
      simp only [rank, put_listener, put_jobs, Worker.weight, List.length_nil] at htotal ⊢
      omega

theorem Awake.closing_moves (h : Awake s) (hs : s.shutdown = true) :
    s.listener = .joining [] ∨ ∃ e, Possible s e := by
  have hclosing : s.listener.closing = true := h.flag ▸ hs
  cases hl : s.listener with
  | accepting => rw [hl] at hclosing; cases hclosing
  | pushed => rw [hl] at hclosing; cases hclosing
  | flagged => exact .inr ⟨.notifyAll, hl⟩
  | joining left =>
    cases left with
    | nil => exact .inl rfl
    | cons i left =>
      refine .inr ?_
      cases hi : s.threads i with
      | ready => exact ⟨.work i, .inl hi⟩
      | waiting => exact absurd hi (h.awake _ hl i)
      | running job todo => exact ⟨.work i, .inr ⟨job, todo, hi⟩⟩
      | ended => exact ⟨.join, i, left, hl, hi⟩

theorem Awake.returned (h : Awake s) (hl : s.listener = .joining []) (e : Event n J) : ¬ Possible s e := by
  have hended : ∀ i, s.threads i = .ended := fun i => h.joined [] hl i (by simp)
  intro he
  cases e with
  | accept job => cases hl.symm.trans he.1
  | notify i => cases hl.symm.trans he.1
  | fail => cases hl.symm.trans he
  | notifyAll => cases hl.symm.trans he
  | join =>
    obtain ⟨i, left, hleft, -⟩ := he
    cases hl.symm.trans hleft
  | wake i => cases (hended i).symm.trans he
  | work i =>
    rcases he with hi | ⟨job, todo, hi⟩
    · cases (hended i).symm.trans hi
    · cases (hended i).symm.trans hi

end Progress

section Runs
variable [DecidableEq J] {script : J → List A} {max_queued_requests : ℕ} {s : State n J A}

theorem Recorded.done_begun (h : Recorded script s) (job : J) : project job s.trace <+: script job := by
  by_cases hb : job ∈ s.begun
  · rcases h.begun job hb with hf | ⟨i, todo, hi⟩
    · rw [(h.finished job hf).2]
    · exact ⟨todo, (h.running i job todo hi).2.2⟩
  · rw [h.untouched job hb]
    exact List.nil_prefix

theorem Recorded.complete (h : Recorded script s) (hjobs : s.jobs = [])
    (hended : ∀ i, s.threads i = .ended) :
    s.finished.Perm s.accepted ∧ ∀ job ∈ s.accepted, project job s.trace = script job := by
  have hbegun : s.accepted = s.begun := by rw [h.queue, hjobs, List.append_nil]
  have hfinished : ∀ job, job ∈ s.finished ↔ job ∈ s.accepted := by
    intro job
    rw [hbegun]
    refine ⟨fun hf => (h.finished job hf).1, fun hb => (h.begun job hb).resolve_right ?_⟩
    rintro ⟨i, todo, hi⟩
    cases (hended i).symm.trans hi
  exact ⟨(List.perm_ext_iff_of_nodup h.once h.distinct).2 hfinished,
    fun job hjob => (h.finished job ((hfinished job).2 hjob)).2⟩

def Sound (script : J → List A) (s : State n J A) : Prop := Recorded script s ∧ Awake s

theorem sound_run {events : List (Event n J)}
    (h : Meets (step script max_queued_requests) Possible (start : State n J A) events) :
    Sound script (run (step script max_queued_requests) start events) :=
  run_invariant (fun _ e hs he => ⟨hs.1.step e he, hs.2.step e he⟩)
    (show Sound script (start : State n J A) from ⟨recorded_start script, awake_start⟩) h

/-- In every state that a pool of at least one thread can reach, in whatever order its
threads move and however often they wake: the connections have been taken in the order in
which they were accepted, no two threads have the same one, what was done of each is a
beginning of what it asks for, and all of it if its thread is through. While one is on
the list, a thread has it to take or will be notified of it. -/
theorem serves_in_turn (script : J → List A) (max_queued_requests : ℕ) (hn : 0 < n)
    {events : List (Event n J)}
    (h : Meets (step script max_queued_requests) Possible (start : State n J A) events) :
    let s := run (step script max_queued_requests) (start : State n J A) events
    s.accepted = s.begun ++ s.jobs ∧ s.accepted.Nodup ∧ s.finished.Nodup ∧
      (∀ i j job todo todo', s.threads i = .running job todo → s.threads j = .running job todo' → i = j) ∧
      (∀ job, project job s.trace <+: script job) ∧
      (∀ job ∈ s.finished, project job s.trace = script job) ∧
      (s.jobs ≠ [] → ∃ i, Possible s (.notify i) ∨ Possible s (.work i)) := by
  intro s
  obtain ⟨hrecord, hawake⟩ : Sound script s := sound_run h
  exact ⟨hrecord.queue, hrecord.distinct, hrecord.once, hrecord.apart, hrecord.done_begun,
    fun job hjob => (hrecord.finished job hjob).2, hawake.queued_moves hn⟩

/-- Once the listening socket is gone, the threads of the pool can take only so many steps
more, in whatever order. They are stuck exactly when `listen` has returned, and then each
connection that was accepted has been served to its end. -/
theorem shutdown_completes (script : J → List A) (max_queued_requests : ℕ) (hn : 0 < n)
    {front rest : List (Event n J)}
    (h : Meets (step script max_queued_requests) Possible (start : State n J A) (front ++ rest))
    (hs : (run (step script max_queued_requests) (start : State n J A) front).shutdown = true) :
    let s := run (step script max_queued_requests) (start : State n J A) (front ++ rest)
    rest.length ≤ rank script (run (step script max_queued_requests) (start : State n J A) front) ∧
      ((∀ e, ¬ Possible s e) ↔ s.listener = .joining []) ∧
      (s.listener = .joining [] →
        s.finished.Perm s.accepted ∧ ∀ job ∈ s.accepted, project job s.trace = script job) := by
  intro s
  obtain ⟨hfront, hrest⟩ := meets_append.1 h
  have hlen := length_add_rank_le (fun s => Awake s ∧ s.shutdown = true) (rank script)
    (fun s e hs he => ⟨hs.1.step e he, shutdown_step e hs.2⟩)
    (fun s e hs he => hs.1.rank_step hs.2 he) ⟨(sound_run hfront).2, hs⟩ hrest
  have hrun : s = run (step script max_queued_requests)
      (run (step script max_queued_requests) start front) rest := List.foldl_append
  have hclosing : s.shutdown = true :=
    hrun ▸ @run_invariant _ _ _ _ (fun s : State n J A => s.shutdown = true)
      (fun s e hs _ => shutdown_step e hs) _ _ hs hrest
  obtain ⟨hrecord, hawake⟩ : Sound script s := sound_run h
  refine ⟨by omega, ⟨fun hstuck => ?_, hawake.returned⟩, fun hl => ?_⟩
  · exact (hawake.closing_moves hclosing).resolve_right fun ⟨e, he⟩ => hstuck e he
  · have hended : ∀ i, s.threads i = .ended := fun i => hawake.joined [] hl i (by simp)
    exact hrecord.complete (hawake.ended _ (hended ⟨0, hn⟩)).2 hended

end Runs

def samplePool : List (Event 2 ℕ) :=
  [.work 0, .work 1, .accept 7, .notify 1, .work 1, .accept 4, .notify 0, .work 0, .work 0, .work 1, .work 0,
    .work 1, .work 1, .fail]

def sampleEnd : List (Event 2 ℕ) := [.notifyAll, .work 0, .work 1, .join, .join]

theorem samplePool_serves :
    let s := run (step (fun job => [job]) 0) (start : State 2 ℕ ℕ) samplePool
    s.accepted = s.begun ++ s.jobs ∧ s.accepted.Nodup ∧ s.finished.Nodup ∧
      (∀ i j job todo todo', s.threads i = .running job todo → s.threads j = .running job todo' → i = j) ∧
      (∀ job, project job s.trace <+: [job]) ∧ (∀ job ∈ s.finished, project job s.trace = [job]) ∧
      (s.jobs ≠ [] → ∃ i, Possible s (.notify i) ∨ Possible s (.work i)) :=
  serves_in_turn (fun job => [job]) 0 (by decide) (by decide)

theorem samplePool_completes :
    let s := run (step (fun job => [job]) 0) (start : State 2 ℕ ℕ) (samplePool ++ sampleEnd)
    sampleEnd.length ≤ rank (fun job => [job]) (run (step (fun job => [job]) 0) (start : State 2 ℕ ℕ) samplePool) ∧
      ((∀ e, ¬ Possible s e) ↔ s.listener = .joining []) ∧
      (s.listener = .joining [] →
        s.finished.Perm s.accepted ∧ ∀ job ∈ s.accepted, project job s.trace = [job]) :=
  shutdown_completes (fun job => [job]) 0 (by decide) (by decide) rfl

end ThreadPool
end StudentGrades
