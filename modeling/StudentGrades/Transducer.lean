import Mathlib.Data.List.Basic

/-!
# Byte-driven machines with output

A machine reads one symbol at a time, moves to a new state and emits a list of
outputs. Runs compose along concatenation, a loop that returns to its state is
summed block by block, and a collecting state gathers what it reads in reverse.
-/

namespace Transducer

variable {σ α β : Type*}

def run (step : σ → α → σ × List β) : σ → List α → σ × List β
  | s, [] => (s, [])
  | s, a :: as =>
    let now := step s a
    let later := run step now.1 as
    (later.1, now.2 ++ later.2)

variable {step : σ → α → σ × List β}

@[simp] theorem run_nil (s : σ) : run step s [] = (s, []) := rfl

theorem run_append (s : σ) (xs ys : List α) :
    run step s (xs ++ ys) =
      ((run step (run step s xs).1 ys).1, (run step s xs).2 ++ (run step (run step s xs).1 ys).2) := by
  induction xs generalizing s with
  | nil => simp
  | cons x xs ih => simp [run, ih]

theorem run_append_of {s t u : σ} {xs ys : List α} {o p : List β}
    (hx : run step s xs = (t, o)) (hy : run step t ys = (u, p)) :
    run step s (xs ++ ys) = (u, o ++ p) := by
  rw [run_append, hx, hy]

theorem run_flatMap {γ : Type*} {s : σ} {body : γ → List α} {out : γ → List β}
    (h : ∀ c, run step s (body c) = (s, out c)) (cs : List γ) :
    run step s (cs.flatMap body) = (s, cs.flatMap out) := by
  induction cs with
  | nil => rfl
  | cons c cs ih =>
    rw [List.flatMap_cons, List.flatMap_cons]
    exact run_append_of (h c) ih

theorem run_collect {st : List α → σ} {xs : List α}
    (h : ∀ a ∈ xs, ∀ acc, step (st acc) a = (st (a :: acc), [])) (acc : List α) :
    run step (st acc) xs = (st (xs.reverse ++ acc), []) := by
  induction xs generalizing acc with
  | nil => rfl
  | cons x xs ih =>
    have hx := h x (by simp) acc
    have ht := ih (fun a ha => h a (by simp [ha])) (x :: acc)
    simp [run, hx, ht]

theorem mem_run {s : σ} {xs : List α} {o : β} :
    o ∈ (run step s xs).2 ↔
      ∃ pre x post, xs = pre ++ x :: post ∧ o ∈ (step (run step s pre).1 x).2 := by
  induction xs generalizing s with
  | nil => simp
  | cons y ys ih =>
    simp only [run, List.mem_append, ih]
    constructor
    · rintro (h | ⟨pre, x, post, rfl, h⟩)
      · exact ⟨[], y, ys, rfl, h⟩
      · exact ⟨y :: pre, x, post, rfl, h⟩
    · intro ⟨pre, x, post, hxs, h⟩
      cases pre with
      | nil =>
        obtain ⟨rfl, rfl⟩ := List.cons.inj hxs
        exact .inl h
      | cons z pre =>
        obtain ⟨rfl, rfl⟩ := List.cons.inj hxs
        exact .inr ⟨pre, x, post, rfl, h⟩

end Transducer
