import Mathlib.Logic.Function.Basic
import Mathlib.Tactic.Common

/-!
# Requests that share one connection

Every request runs a script of exchanges on the same connection. An exchange has
three steps: discard the pending result, send the query, read what is pending.
Sending fails while a result is pending. A schedule says whose step comes next.
A request that moves only when no other one is between its send and its read
disturbs nobody; in a finished run every other step costs some request a result.
-/

namespace SharedConnection

inductive Stage | idle | discarded | sent
deriving DecidableEq

structure Request (Q R : Type*) where
  todo : List Q
  stage : Stage
  received : List R

structure State (ι Q R : Type*) where
  pending : Option R
  request : ι → Request Q R

variable {ι Q R : Type*}

def start (script : ι → List Q) : State ι Q R := ⟨none, fun i => ⟨script i, .idle, []⟩⟩

def Own (serve : Q → R) (script : ι → List Q) (s : State ι Q R) : Prop :=
  ∀ i, (s.request i).received ++ (s.request i).todo.map serve = (script i).map serve

structure Inv (serve : Q → R) (script : ι → List Q) (s : State ι Q R) : Prop where
  own : Own serve script s
  waiting : ∀ i, (s.request i).stage = .sent →
    ∃ q qs, (s.request i).todo = q :: qs ∧ s.pending = some (serve q)
  pending : s.pending ≠ none → ∃ i, (s.request i).stage = .sent

theorem inv_start (serve : Q → R) (script : ι → List Q) :
    Inv serve script (start script : State ι Q R) where
  own i := rfl
  waiting i h := by cases h
  pending h := absurd rfl h

def Free (s : State ι Q R) (i : ι) : Prop :=
  (s.request i).todo = [] ∨ ∀ j, j ≠ i → (s.request j).stage ≠ .sent

def Settled (s : State ι Q R) : Prop := ∀ i, (s.request i).stage = .idle

def Lost (null : R) (s : State ι Q R) : Prop := ∃ i, null ∈ (s.request i).received

def Short (s : State ι Q R) : Prop :=
  (s.pending = none ∧ ∃ i, (s.request i).stage = .sent) ∨
    ∃ i j, i ≠ j ∧ (s.request i).stage = .sent ∧ (s.request j).stage = .sent

theorem not_short_of_settled {s : State ι Q R} (h : Settled s) : ¬ Short s := by
  rintro (⟨-, j, hj⟩ | ⟨j, -, -, hj, -⟩) <;> simp [h j] at hj

theorem not_lost_of_own {serve : Q → R} {null : R} {script : ι → List Q} {s : State ι Q R}
    (hnull : ∀ i, ∀ q ∈ script i, serve q ≠ null) (h : Own serve script s) : ¬ Lost null s := by
  intro ⟨i, hi⟩
  have hm : null ∈ (script i).map serve := h i ▸ List.mem_append_left _ hi
  obtain ⟨q, hq, he⟩ := List.mem_map.1 hm
  exact hnull i q hq he

variable [DecidableEq ι] (serve : Q → R) (null : R)

def State.put (s : State ι Q R) (pending : Option R) (i : ι) (r : Request Q R) : State ι Q R :=
  ⟨pending, Function.update s.request i r⟩

def Request.finish (r : Request Q R) (result : R) : Request Q R :=
  ⟨r.todo.tail, .idle, r.received ++ [result]⟩

def step (s : State ι Q R) (i : ι) : State ι Q R :=
  match (s.request i).todo, (s.request i).stage with
  | [], _ => s
  | _ :: _, .idle => s.put none i { s.request i with stage := .discarded }
  | q :: _, .discarded =>
    match s.pending with
    | none => s.put (some (serve q)) i { s.request i with stage := .sent }
    | some r => s.put (some r) i ((s.request i).finish null)
  | _ :: _, .sent => s.put none i ((s.request i).finish (s.pending.getD null))

def run (s : State ι Q R) (schedule : List ι) : State ι Q R := schedule.foldl (step serve null) s

@[simp] theorem put_pending (s : State ι Q R) (p : Option R) (i : ι) (r : Request Q R) :
    (s.put p i r).pending = p := rfl

@[simp] theorem put_self (s : State ι Q R) (p : Option R) (i : ι) (r : Request Q R) :
    (s.put p i r).request i = r := by simp [State.put]

@[simp] theorem put_other (s : State ι Q R) (p : Option R) {i j : ι} (r : Request Q R) (h : j ≠ i) :
    (s.put p i r).request j = s.request j := by simp [State.put, h]

theorem step_cases (s : State ι Q R) (i : ι) :
    ((s.request i).todo = [] ∧ step serve null s i = s) ∨
    ∃ q qs, (s.request i).todo = q :: qs ∧
      (((s.request i).stage = .idle ∧
          step serve null s i = s.put none i { s.request i with stage := .discarded }) ∨
        ((s.request i).stage = .discarded ∧ s.pending = none ∧
          step serve null s i = s.put (some (serve q)) i { s.request i with stage := .sent }) ∨
        ((s.request i).stage = .discarded ∧ s.pending ≠ none ∧
          step serve null s i = s.put s.pending i ((s.request i).finish null)) ∨
        ((s.request i).stage = .sent ∧
          step serve null s i = s.put none i ((s.request i).finish (s.pending.getD null)))) := by
  cases ht : (s.request i).todo with
  | nil => exact .inl ⟨rfl, by simp [step, ht]⟩
  | cons q qs =>
    refine .inr ⟨q, qs, rfl, ?_⟩
    cases hs : (s.request i).stage with
    | idle => exact .inl ⟨rfl, by simp [step, ht, hs]⟩
    | discarded =>
      cases hp : s.pending with
      | none => exact .inr (.inl ⟨rfl, rfl, by simp [step, ht, hs, hp]⟩)
      | some r => exact .inr (.inr (.inl ⟨rfl, by simp, by simp [step, ht, hs, hp]⟩))
    | sent => exact .inr (.inr (.inr ⟨rfl, by simp [step, ht, hs]⟩))

def Exclusive : State ι Q R → List ι → Prop
  | _, [] => True
  | s, i :: is => Free s i ∧ Exclusive (step serve null s i) is

variable {serve} {script : ι → List Q} {s : State ι Q R} {i : ι}

theorem Inv.put (h : Inv serve script s) (hothers : ∀ j, j ≠ i → (s.request j).stage ≠ .sent)
    {p : Option R} {r : Request Q R}
    (hown : r.received ++ r.todo.map serve =
      (s.request i).received ++ (s.request i).todo.map serve)
    (hwait : r.stage = .sent → ∃ q qs, r.todo = q :: qs ∧ p = some (serve q))
    (hpend : p ≠ none → r.stage = .sent) : Inv serve script (s.put p i r) where
  own j := by
    by_cases hj : j = i
    · subst hj
      rw [put_self, hown]
      exact h.own j
    · rw [put_other s p r hj]
      exact h.own j
  waiting j hs := by
    by_cases hj : j = i
    · subst hj
      rw [put_self] at hs ⊢
      exact hwait hs
    · rw [put_other s p r hj] at hs
      exact absurd hs (hothers j hj)
  pending hp := ⟨i, by rw [put_self]; exact hpend hp⟩

theorem inv_step (h : Inv serve script s) (hf : Free s i) :
    Inv serve script (step serve null s i) := by
  rcases step_cases serve null s i with ⟨-, he⟩ | ⟨q, qs, ht, hcase⟩
  · rwa [he]
  have hothers : ∀ j, j ≠ i → (s.request j).stage ≠ .sent := hf.resolve_left (by simp [ht])
  rcases hcase with ⟨hs, he⟩ | ⟨hs, hp, he⟩ | ⟨hs, hp, he⟩ | ⟨hs, he⟩ <;> rw [he]
  · exact h.put hothers rfl (by simp) (by simp)
  · exact h.put hothers rfl (fun _ => ⟨q, qs, ht, rfl⟩) (by simp)
  · obtain ⟨j, hj⟩ := h.pending hp
    have hne : j ≠ i := by
      rintro rfl
      simp [hs] at hj
    exact absurd hj (hothers j hne)
  · obtain ⟨q', qs', ht', hp⟩ := h.waiting i hs
    obtain ⟨rfl, rfl⟩ := List.cons.inj (ht.symm.trans ht')
    exact h.put hothers (by simp [Request.finish, ht, hp]) (by simp [Request.finish])
      (by simp)

theorem inv_run (h : Inv serve script s) {schedule : List ι}
    (he : Exclusive serve null s schedule) : Inv serve script (run serve null s schedule) := by
  induction schedule generalizing s with
  | nil => exact h
  | cons i is ih => exact ih (inv_step null h he.1) he.2

theorem lost_step (h : Lost null s) (i : ι) : Lost null (step serve null s i) := by
  obtain ⟨j, hj⟩ := h
  refine ⟨j, ?_⟩
  rcases step_cases serve null s i with ⟨-, he⟩ | ⟨q, qs, -, hcase⟩
  · rwa [he]
  by_cases hji : j = i
  · subst hji
    rcases hcase with ⟨-, he⟩ | ⟨-, -, he⟩ | ⟨-, -, he⟩ | ⟨-, he⟩ <;> rw [he] <;>
      simp [Request.finish, hj]
  · rcases hcase with ⟨-, he⟩ | ⟨-, -, he⟩ | ⟨-, -, he⟩ | ⟨-, he⟩ <;> rw [he] <;>
      simp [hji, hj]

theorem lost_finish_null (s : State ι Q R) (p : Option R) (i : ι) :
    Lost null (s.put p i ((s.request i).finish null)) := ⟨i, by simp [Request.finish]⟩

theorem short_put_none {j : ι} (hj : (s.request j).stage = .sent) (hji : j ≠ i) (r : Request Q R) :
    Short (s.put none i r) := .inl ⟨rfl, j, by rw [put_other s none r hji, hj]⟩

theorem short_step (h : Short s) (i : ι) :
    Lost null (step serve null s i) ∨ Short (step serve null s i) := by
  rcases step_cases serve null s i with ⟨-, he⟩ | ⟨q, qs, -, hcase⟩
  · exact .inr (by rwa [he])
  have hsent : ∃ j, (s.request j).stage = .sent := by
    rcases h with ⟨-, j, hj⟩ | ⟨j, -, -, hj, -⟩ <;> exact ⟨j, hj⟩
  have hne (hs : (s.request i).stage ≠ .sent) {j : ι} (hj : (s.request j).stage = .sent) : j ≠ i :=
    fun h => hs (h ▸ hj)
  rcases hcase with ⟨hs, he⟩ | ⟨hs, -, he⟩ | ⟨-, -, he⟩ | ⟨hs, he⟩ <;> rw [he]
  · obtain ⟨j, hj⟩ := hsent
    exact .inr (short_put_none hj (hne (by simp [hs]) hj) _)
  · obtain ⟨j, hj⟩ := hsent
    have hji := hne (by simp [hs]) hj
    exact .inr (.inr ⟨i, j, hji.symm, by simp, by simp [hji, hj]⟩)
  · exact .inl (lost_finish_null null s _ i)
  · rcases h with ⟨hp, -⟩ | ⟨j, k, hjk, hj, hk⟩
    · rw [hp]
      exact .inl (lost_finish_null null s _ i)
    · by_cases hji : j = i
      · exact .inr (short_put_none hk (fun h => hjk (hji.trans h.symm)) _)
      · exact .inr (short_put_none hj hji _)

theorem short_of_disturbed (h : Inv serve script s) (hf : ¬ Free s i) :
    Lost null (step serve null s i) ∨ Short (step serve null s i) := by
  simp only [Free, not_or, not_forall, not_not] at hf
  obtain ⟨hfinished, j, hji, hj⟩ := hf
  obtain ⟨q', qs', -, hpending⟩ := h.waiting j hj
  rcases step_cases serve null s i with ⟨ht, -⟩ | ⟨q, qs, -, hcase⟩
  · exact absurd ht hfinished
  rcases hcase with ⟨-, he⟩ | ⟨-, hp, -⟩ | ⟨-, -, he⟩ | ⟨-, he⟩
  · exact .inr (he ▸ short_put_none hj hji _)
  · simp [hp] at hpending
  · exact .inl (he ▸ lost_finish_null null s _ i)
  · exact .inr (he ▸ short_put_none hj hji _)

theorem short_run (h : Lost null s ∨ Short s) (schedule : List ι) :
    Lost null (run serve null s schedule) ∨ Short (run serve null s schedule) := by
  induction schedule generalizing s with
  | nil => exact h
  | cons i is ih => exact ih (h.elim (fun hl => .inl (lost_step null hl i)) fun hs => short_step null hs i)

theorem short_of_not_exclusive (h : Inv serve script s) {schedule : List ι}
    (he : ¬ Exclusive serve null s schedule) :
    Lost null (run serve null s schedule) ∨ Short (run serve null s schedule) := by
  induction schedule generalizing s with
  | nil => exact absurd trivial he
  | cons i is ih =>
    by_cases hf : Free s i
    · exact ih (inv_step null h hf) fun hrest => he ⟨hf, hrest⟩
    · exact short_run null (short_of_disturbed null h hf) is

theorem own_iff_exclusive (hnull : ∀ i, ∀ q ∈ script i, serve q ≠ null) {schedule : List ι}
    (hsettled : Settled (run serve null (start script) schedule)) :
    Own serve script (run serve null (start script) schedule) ↔
      Exclusive serve null (start script) schedule := by
  constructor
  · intro hown
    by_contra he
    rcases short_of_not_exclusive null (inv_start serve script) he with hl | hs
    · exact not_lost_of_own hnull hown hl
    · exact not_short_of_settled hsettled hs
  · exact fun he => (inv_run null (inv_start serve script) he).own

end SharedConnection
