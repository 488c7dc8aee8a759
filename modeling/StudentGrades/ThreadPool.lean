import Mathlib.Algebra.BigOperators.Group.Finset.Basic
import Mathlib.Data.Fintype.Basic
import StudentGrades.GuardedRuns
import StudentGrades.Lifecycle

/-!
# The thread pool of the HTTP server

The listening thread puts each connection that it accepts at the end of a list, and the
threads of the pool take them from its front. List and end flag are kept under a mutex;
a thread that finds neither waits to be notified, and may wake without. A step is what
one thread does under the mutex, one action of a job, or a notification.
-/

namespace StudentGrades
namespace ThreadPool
open GuardedRuns Lifecycle

/-- In front of the mutex, waiting, in a job with the actions it has still to do, or at
its end. -/
inductive Worker (J A : Type*)
  | ready
  | waiting
  | running (job : J) (todo : List A)
  | ended
deriving DecidableEq

/-- In front of `accept`, in front of `notify_one`, in front of `notify_all`, or with
the threads it has still to join. -/
inductive Listener (n : ℕ)
  | accepting
  | pushed
  | flagged
  | joining (left : List (Fin n))
deriving DecidableEq

/-- The pool, and what is recorded of a run: the jobs that were accepted, begun and
finished, and the actions that were done. -/
structure State (n : ℕ) (J A : Type*) where
  jobs : List J
  shutdown : Bool
  listener : Listener n
  threads : Fin n → Worker J A
  accepted : List J
  begun : List J
  finished : List J
  trace : List (J × A)

inductive Event (n : ℕ) (J : Type*)
  | accept (job : J)
  | notify (i : Fin n)
  | fail
  | notifyAll
  | join
  | wake (i : Fin n)
  | work (i : Fin n)

variable {n : ℕ} {J A : Type*}

def start : State n J A := ⟨[], false, .accepting, fun _ => .ready, [], [], [], []⟩

def Worker.woken : Worker J A → Worker J A
  | .waiting => .ready
  | w => w

def State.put (s : State n J A) (i : Fin n) (w : Worker J A) : State n J A :=
  { s with threads := Function.update s.threads i w }

def State.enter (script : J → List A) (s : State n J A) (i : Fin n) : State n J A :=
  match s.jobs with
  | job :: jobs => { s.put i (.running job (script job)) with jobs := jobs, begun := s.begun ++ [job] }
  | [] => s.put i (if s.shutdown then .ended else .waiting)

def step (script : J → List A) (max_queued_requests : ℕ) (s : State n J A) : Event n J → State n J A
  | .accept job =>
    if 0 < max_queued_requests ∧ max_queued_requests ≤ s.jobs.length then s
    else { s with jobs := s.jobs ++ [job], accepted := s.accepted ++ [job], listener := .pushed }
  | .notify i => { s.put i (s.threads i).woken with listener := .accepting }
  -- the listening socket is gone
  | .fail => { s with shutdown := true, listener := .flagged }
  | .notifyAll =>
    { s with threads := fun i => (s.threads i).woken, listener := .joining (List.finRange n) }
  | .join =>
    match s.listener with
    | .joining (_ :: left) => { s with listener := .joining left }
    | _ => s
  | .wake i => s.put i (s.threads i).woken
  | .work i =>
    match s.threads i with
    | .ready => s.enter script i
    | .running job (a :: todo) => { s.put i (.running job todo) with trace := s.trace ++ [(job, a)] }
    | .running job [] => { s.put i .ready with finished := s.finished ++ [job] }
    | _ => s

/-- Each connection is a new one; `notify_one` reaches a thread that waits if there is one;
`join` returns when the thread has ended. -/
def Possible (s : State n J A) : Event n J → Prop
  | .accept job => s.listener = .accepting ∧ job ∉ s.accepted
  | .notify i => s.listener = .pushed ∧ (s.threads i = .waiting ∨ ∀ j, s.threads j ≠ .waiting)
  | .fail => s.listener = .accepting
  | .notifyAll => s.listener = .flagged
  | .join => ∃ i left, s.listener = .joining (i :: left) ∧ s.threads i = .ended
  | .wake i => s.threads i = .waiting
  | .work i => s.threads i = .ready ∨ ∃ job todo, s.threads i = .running job todo

instance [DecidableEq J] [DecidableEq A] (s : State n J A) : ∀ e, Decidable (Possible s e)
  | .accept job => inferInstanceAs (Decidable (s.listener = .accepting ∧ job ∉ s.accepted))
  | .notify i => inferInstanceAs
      (Decidable (s.listener = .pushed ∧ (s.threads i = .waiting ∨ ∀ j, s.threads j ≠ .waiting)))
  | .fail => inferInstanceAs (Decidable (s.listener = .accepting))
  | .notifyAll => inferInstanceAs (Decidable (s.listener = .flagged))
  | .join =>
    match hl : s.listener with
    | .joining (i :: left) => decidable_of_iff (s.threads i = .ended) (by simp [Possible, hl])
    | .joining [] | .accepting | .pushed | .flagged => isFalse (by simp [Possible, hl])
  | .wake i => inferInstanceAs (Decidable (s.threads i = .waiting))
  | .work i =>
    match hi : s.threads i with
    | .ready => isTrue (.inl hi)
    | .running job todo => isTrue (.inr ⟨job, todo, hi⟩)
    | .waiting | .ended => isFalse (by simp [Possible, hi])

@[simp] theorem put_self (s : State n J A) (i : Fin n) (w : Worker J A) : (s.put i w).threads i = w := by
  simp [State.put]

@[simp] theorem put_other (s : State n J A) {i j : Fin n} (w : Worker J A) (h : j ≠ i) :
    (s.put i w).threads j = s.threads j := by
  simp [State.put, h]

theorem put_cases {s : State n J A} {i j : Fin n} {v w : Worker J A} (h : (s.put i w).threads j = v) :
    (j = i ∧ w = v) ∨ (j ≠ i ∧ s.threads j = v) := by
  by_cases hj : j = i
  · subst hj
    exact .inl ⟨rfl, (put_self s j w).symm.trans h⟩
  · exact .inr ⟨hj, (put_other s w hj).symm.trans h⟩

@[simp] theorem put_jobs (s : State n J A) (i : Fin n) (w : Worker J A) : (s.put i w).jobs = s.jobs := rfl

@[simp] theorem put_listener (s : State n J A) (i : Fin n) (w : Worker J A) :
    (s.put i w).listener = s.listener := rfl

theorem woken_running {w : Worker J A} {job : J} {todo : List A} :
    w.woken = .running job todo ↔ w = .running job todo := by
  cases w <;> simp [Worker.woken]

theorem woken_ne_waiting (w : Worker J A) : w.woken ≠ .waiting := by
  cases w <;> simp [Worker.woken]

theorem woken_ended {w : Worker J A} : w.woken = .ended ↔ w = .ended := by
  cases w <;> simp [Worker.woken]

theorem work_cases (script : J → List A) (max_queued_requests : ℕ) {s : State n J A} {i : Fin n}
    (h : Possible s (.work i)) :
    (∃ job jobs, s.threads i = .ready ∧ s.jobs = job :: jobs ∧
        step script max_queued_requests s (.work i) =
          { s.put i (.running job (script job)) with jobs := jobs, begun := s.begun ++ [job] }) ∨
      (s.threads i = .ready ∧ s.jobs = [] ∧
        step script max_queued_requests s (.work i) =
          s.put i (if s.shutdown then .ended else .waiting)) ∨
      (∃ job a todo, s.threads i = .running job (a :: todo) ∧
        step script max_queued_requests s (.work i) =
          { s.put i (.running job todo) with trace := s.trace ++ [(job, a)] }) ∨
      (∃ job, s.threads i = .running job [] ∧
        step script max_queued_requests s (.work i) =
          { s.put i .ready with finished := s.finished ++ [job] }) := by
  rcases h with h | ⟨job, todo, h⟩
  · cases hjobs : s.jobs with
    | nil => exact .inr (.inl ⟨h, rfl, by simp only [step, h, State.enter, hjobs]⟩)
    | cons job jobs => exact .inl ⟨job, jobs, h, rfl, by simp only [step, h, State.enter, hjobs]⟩
  · cases todo with
    | nil => exact .inr (.inr (.inr ⟨job, h, by simp only [step, h]⟩))
    | cons a todo => exact .inr (.inr (.inl ⟨job, a, todo, h, by simp only [step, h]⟩))

section Record
variable [DecidableEq J] {script : J → List A} {max_queued_requests : ℕ} {s : State n J A} {i : Fin n}

/-- Jobs are begun in the order in which they were accepted, each on one thread; what
was done of a job is what its thread has not still to do. -/
structure Recorded (script : J → List A) (s : State n J A) : Prop where
  queue : s.accepted = s.begun ++ s.jobs
  distinct : s.accepted.Nodup
  running : ∀ i job todo, s.threads i = .running job todo →
    job ∈ s.begun ∧ job ∉ s.finished ∧ project job s.trace ++ todo = script job
  apart : ∀ i j job todo todo', s.threads i = .running job todo → s.threads j = .running job todo' → i = j
  begun : ∀ job ∈ s.begun, job ∈ s.finished ∨ ∃ i todo, s.threads i = .running job todo
  finished : ∀ job ∈ s.finished, job ∈ s.begun ∧ project job s.trace = script job
  once : s.finished.Nodup
  untouched : ∀ job, job ∉ s.begun → project job s.trace = []

theorem recorded_start (script : J → List A) : Recorded script (start : State n J A) where
  queue := rfl
  distinct := List.nodup_nil
  running i job todo h := by cases h
  apart i j job todo todo' h := by cases h
  begun job h := by cases h
  finished job h := by cases h
  once := List.nodup_nil
  untouched job _ := rfl

theorem Recorded.congr (h : Recorded script s) {t : State n J A} (hjobs : t.jobs = s.jobs)
    (haccepted : t.accepted = s.accepted) (hbegun : t.begun = s.begun) (hfinished : t.finished = s.finished)
    (htrace : t.trace = s.trace)
    (hthreads : ∀ i job todo, t.threads i = .running job todo ↔ s.threads i = .running job todo) :
    Recorded script t where
  queue := by rw [haccepted, hbegun, hjobs, h.queue]
  distinct := haccepted ▸ h.distinct
  running i job todo hi := by
    rw [hbegun, hfinished, htrace]
    exact h.running i job todo ((hthreads i job todo).1 hi)
  apart i j job todo todo' hi hj :=
    h.apart i j job todo todo' ((hthreads i job todo).1 hi) ((hthreads j job todo').1 hj)
  begun job hjob := by
    rw [hfinished]
    rcases h.begun job (hbegun ▸ hjob) with hf | ⟨i, todo, hi⟩
    · exact .inl hf
    · exact .inr ⟨i, todo, (hthreads i job todo).2 hi⟩
  finished job hjob := by
    rw [hbegun, htrace]
    exact h.finished job (hfinished ▸ hjob)
  once := hfinished ▸ h.once
  untouched job hjob := by
    rw [htrace]
    exact h.untouched job (hbegun ▸ hjob)

theorem Recorded.accept (h : Recorded script s) {job : J} (hnew : job ∉ s.accepted) (listener : Listener n) :
    Recorded script { s with jobs := s.jobs ++ [job], accepted := s.accepted ++ [job], listener := listener } :=
  { h with
    queue := by
      change s.accepted ++ [job] = s.begun ++ (s.jobs ++ [job])
      rw [h.queue, List.append_assoc]
    distinct := h.distinct.append (List.nodup_singleton job) (by simpa using hnew) }

theorem Recorded.put (h : Recorded script s) {w : Worker J A}
    (hw : ∀ job todo, w = .running job todo ↔ s.threads i = .running job todo) :
    Recorded script (s.put i w) := by
  refine h.congr rfl rfl rfl rfl rfl fun j job todo => ?_
  by_cases hj : j = i
  · subst hj
    rw [put_self]
    exact hw job todo
  · rw [put_other s w hj]

theorem Recorded.take (h : Recorded script s) {job : J} {jobs : List J} (hi : s.threads i = .ready)
    (hjobs : s.jobs = job :: jobs) :
    Recorded script
      { s.put i (.running job (script job)) with jobs := jobs, begun := s.begun ++ [job] } := by
  have hnew : job ∉ s.begun := by
    have hdistinct := h.distinct
    rw [h.queue, hjobs, List.nodup_append] at hdistinct
    exact fun hm => hdistinct.2.2 job hm job (by simp) rfl
  have hbegun : ∀ x, x ∈ s.begun → x ∈ s.begun ++ [job] := fun x hx => List.mem_append_left _ hx
  have hother : ∀ j todo, s.threads j ≠ .running job todo := fun j todo hj => hnew (h.running j job todo hj).1
  exact {
    queue := by
      change s.accepted = (s.begun ++ [job]) ++ jobs
      rw [h.queue, hjobs, List.append_assoc]
      rfl
    distinct := h.distinct
    running := fun j x todo hj => by
      rcases put_cases hj with ⟨-, hw⟩ | ⟨-, hj⟩
      · cases hw
        refine ⟨List.mem_append_right _ (List.mem_singleton_self _), fun hf => hnew (h.finished job hf).1, ?_⟩
        change project job s.trace ++ script job = script job
        rw [h.untouched job hnew, List.nil_append]
      · obtain ⟨hb, hrest⟩ := h.running j x todo hj
        exact ⟨hbegun x hb, hrest⟩
    apart := fun j k x todo todo' hj hk => by
      rcases put_cases hj with ⟨hji, hw⟩ | ⟨-, hj⟩ <;> rcases put_cases hk with ⟨hki, hv⟩ | ⟨-, hk⟩
      · exact hji.trans hki.symm
      · cases hw
        exact absurd hk (hother k todo')
      · cases hv
        exact absurd hj (hother j todo)
      · exact h.apart j k x todo todo' hj hk
    begun := fun x hx => by
      rcases List.mem_append.1 hx with hx | hx
      · rcases h.begun x hx with hf | ⟨j, todo, hj⟩
        · exact .inl hf
        · have hji : j ≠ i := by
            rintro rfl
            rw [hi] at hj
            cases hj
          exact .inr ⟨j, todo, (put_other s _ hji).trans hj⟩
      · rw [List.mem_singleton.1 hx]
        exact .inr ⟨i, script job, put_self s i _⟩
    finished := fun x hx => ⟨hbegun x (h.finished x hx).1, (h.finished x hx).2⟩
    once := h.once
    untouched := fun x hx => h.untouched x fun hm => hx (hbegun x hm) }

theorem project_concat_self (job : J) (trace : List (J × A)) (a : A) :
    project job (trace ++ [(job, a)]) = project job trace ++ [a] := by
  simp [project]

theorem project_concat_other {job x : J} (h : job ≠ x) (trace : List (J × A)) (a : A) :
    project x (trace ++ [(job, a)]) = project x trace := by
  simp [project, h]

theorem Recorded.act (h : Recorded script s) {job : J} {a : A} {todo : List A}
    (hi : s.threads i = .running job (a :: todo)) :
    Recorded script { s.put i (.running job todo) with trace := s.trace ++ [(job, a)] } := by
  obtain ⟨hb, hf, hdone⟩ := h.running i job (a :: todo) hi
  have hother : ∀ j x rest, j ≠ i → s.threads j = .running x rest → job ≠ x := by
    rintro j x rest hj hx rfl
    exact hj (h.apart j i job rest (a :: todo) hx hi)
  exact {
    queue := h.queue
    distinct := h.distinct
    running := fun j x rest hj => by
      rcases put_cases hj with ⟨-, hw⟩ | ⟨hji, hj⟩
      · cases hw
        refine ⟨hb, hf, ?_⟩
        change project job (s.trace ++ [(job, a)]) ++ todo = script job
        rw [project_concat_self, List.append_assoc]
        exact hdone
      · obtain ⟨hxb, hxf, hx⟩ := h.running j x rest hj
        refine ⟨hxb, hxf, ?_⟩
        change project x (s.trace ++ [(job, a)]) ++ rest = script x
        rw [project_concat_other (hother j x rest hji hj), hx]
    apart := fun j k x rest rest' hj hk => by
      rcases put_cases hj with ⟨hji, hw⟩ | ⟨hji, hj⟩ <;> rcases put_cases hk with ⟨hki, hv⟩ | ⟨hki, hk⟩
      · exact hji.trans hki.symm
      · cases hw
        exact absurd rfl (hother k job rest' hki hk)
      · cases hv
        exact absurd rfl (hother j job rest hji hj)
      · exact h.apart j k x rest rest' hj hk
    begun := fun x hx => by
      rcases h.begun x hx with hxf | ⟨j, rest, hj⟩
      · exact .inl hxf
      · by_cases hji : j = i
        · subst hji
          rw [hi] at hj
          cases hj
          exact .inr ⟨j, todo, put_self s j _⟩
        · exact .inr ⟨j, rest, (put_other s _ hji).trans hj⟩
    finished := fun x hx => by
      have hne : job ≠ x := fun he => hf (he ▸ hx)
      refine ⟨(h.finished x hx).1, ?_⟩
      change project x (s.trace ++ [(job, a)]) = script x
      rw [project_concat_other hne, (h.finished x hx).2]
    once := h.once
    untouched := fun x hx => by
      have hne : job ≠ x := fun he => hx (he ▸ hb)
      change project x (s.trace ++ [(job, a)]) = []
      rw [project_concat_other hne, h.untouched x hx] }

theorem Recorded.finish (h : Recorded script s) {job : J} (hi : s.threads i = .running job []) :
    Recorded script { s.put i .ready with finished := s.finished ++ [job] } := by
  obtain ⟨hb, hf, hdone⟩ := h.running i job [] hi
  have hold : ∀ {j : Fin n} {x : J} {rest : List A}, (s.put i .ready).threads j = .running x rest →
      j ≠ i ∧ s.threads j = .running x rest := by
    intro j x rest hj
    rcases put_cases hj with ⟨-, hw⟩ | hj
    · cases hw
    · exact hj
  exact {
    queue := h.queue
    distinct := h.distinct
    running := fun j x rest hj => by
      obtain ⟨hji, hj⟩ := hold hj
      obtain ⟨hxb, hxf, hx⟩ := h.running j x rest hj
      refine ⟨hxb, fun hm => ?_, hx⟩
      rcases List.mem_append.1 hm with hm | hm
      · exact hxf hm
      · rw [List.mem_singleton.1 hm] at hj
        exact hji (h.apart j i job rest [] hj hi)
    apart := fun j k x rest rest' hj hk => h.apart j k x rest rest' (hold hj).2 (hold hk).2
    begun := fun x hx => by
      rcases h.begun x hx with hxf | ⟨j, rest, hj⟩
      · exact .inl (List.mem_append_left _ hxf)
      · by_cases hji : j = i
        · subst hji
          rw [hi] at hj
          cases hj
          exact .inl (List.mem_append_right _ (List.mem_singleton_self _))
        · exact .inr ⟨j, rest, (put_other s _ hji).trans hj⟩
    finished := fun x hx => by
      rcases List.mem_append.1 hx with hx | hx
      · exact h.finished x hx
      · rw [List.mem_singleton.1 hx]
        exact ⟨hb, (List.append_nil _).symm.trans hdone⟩
    once := h.once.append (List.nodup_singleton job) (by simpa using hf)
    untouched := h.untouched }

theorem Recorded.step (h : Recorded script s) (e : Event n J) (he : Possible s e) :
    Recorded script (step script max_queued_requests s e) := by
  cases e with
  | accept job =>
    rw [ThreadPool.step]
    split_ifs
    · exact h
    · exact h.accept he.2 .pushed
  | notify i =>
    exact (h.put fun _ _ => woken_running).congr rfl rfl rfl rfl rfl fun _ _ _ => Iff.rfl
  | fail => exact h.congr rfl rfl rfl rfl rfl fun _ _ _ => Iff.rfl
  | notifyAll => exact h.congr rfl rfl rfl rfl rfl fun _ _ _ => woken_running
  | join =>
    obtain ⟨i, left, hl, -⟩ := he
    rw [ThreadPool.step, hl]
    exact h.congr rfl rfl rfl rfl rfl fun _ _ _ => Iff.rfl
  | wake i => exact h.put fun _ _ => woken_running
  | work i =>
    rcases work_cases script max_queued_requests he with ⟨job, jobs, hi, hjobs, hs⟩ | ⟨hi, hjobs, hs⟩ |
      ⟨job, a, todo, hi, hs⟩ | ⟨job, hi, hs⟩
    · rw [hs]
      exact h.take hi hjobs
    · rw [hs]
      refine h.put fun job todo => ?_
      rw [hi]
      split_ifs <;> simp
    · rw [hs]
      exact h.act hi
    · rw [hs]
      exact h.finish hi

end Record

end ThreadPool
end StudentGrades
