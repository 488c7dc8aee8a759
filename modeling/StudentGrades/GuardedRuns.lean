import Mathlib.Data.List.Basic

/-!
# Runs whose steps meet a condition

A system takes one step for each event. An invariant that every step meeting a
condition preserves holds in every state of a run whose steps all meet it.
-/

namespace GuardedRuns

variable {σ ε : Type*} (step : σ → ε → σ) (guard : σ → ε → Prop)

def run (s : σ) (events : List ε) : σ := events.foldl step s

def Meets : σ → List ε → Prop
  | _, [] => True
  | s, e :: events => guard s e ∧ Meets (step s e) events

instance Meets.decidable [∀ s e, Decidable (guard s e)] :
    ∀ s events, Decidable (Meets step guard s events)
  | _, [] => inferInstanceAs (Decidable True)
  | s, e :: events =>
    have := Meets.decidable (step s e) events
    inferInstanceAs (Decidable (guard s e ∧ Meets step guard (step s e) events))

variable {step guard}

@[simp] theorem run_nil (s : σ) : run step s [] = s := rfl

@[simp] theorem run_cons (s : σ) (e : ε) (events : List ε) :
    run step s (e :: events) = run step (step s e) events := rfl

theorem meets_append {s : σ} {front rest : List ε} :
    Meets step guard s (front ++ rest) ↔
      Meets step guard s front ∧ Meets step guard (run step s front) rest := by
  induction front generalizing s with
  | nil => simp [Meets]
  | cons e front ih => simp only [List.cons_append, Meets, run_cons, ih, and_assoc]

theorem run_invariant {inv : σ → Prop} (hstep : ∀ s e, inv s → guard s e → inv (step s e)) {s : σ}
    {events : List ε} (hs : inv s) (h : Meets step guard s events) : inv (run step s events) := by
  induction events generalizing s with
  | nil => exact hs
  | cons e events ih => exact ih (hstep s e hs h.1) h.2

theorem prefix_invariant {inv : σ → Prop} (hstep : ∀ s e, inv s → guard s e → inv (step s e))
    {s : σ} {events front : List ε} (hs : inv s) (h : Meets step guard s events)
    (hfront : front <+: events) : inv (run step s front) := by
  obtain ⟨rest, rfl⟩ := hfront
  exact run_invariant hstep hs (meets_append.1 h).1

theorem rank_run (inv : σ → Prop) (rank : σ → ℕ) (counted : ε → Bool)
    (hinv : ∀ s e, inv s → guard s e → inv (step s e))
    (hle : ∀ s e, inv s → guard s e → rank (step s e) ≤ rank s)
    (hlt : ∀ s e, inv s → guard s e → counted e → rank (step s e) ≤ rank s - 1) {s : σ}
    {events : List ε} (hs : inv s) (h : Meets step guard s events) :
    rank (run step s events) ≤ rank s - events.countP counted := by
  induction events generalizing s with
  | nil => exact Nat.le_refl _
  | cons e events ih =>
    have hrun := ih (hinv s e hs h.1) h.2
    have hstep := hle s e hs h.1
    have hcounted := hlt s e hs h.1
    rw [run_cons, List.countP_cons]
    split_ifs with he
    · have := hcounted he
      omega
    · omega

theorem length_add_rank_le (inv : σ → Prop) (rank : σ → ℕ)
    (hinv : ∀ s e, inv s → guard s e → inv (step s e))
    (hlt : ∀ s e, inv s → guard s e → rank (step s e) < rank s) {s : σ} {events : List ε} (hs : inv s)
    (h : Meets step guard s events) : events.length + rank (run step s events) ≤ rank s := by
  induction events generalizing s with
  | nil => simp
  | cons e events ih =>
    have hrun := ih (hinv s e hs h.1) h.2
    have hstep := hlt s e hs h.1
    rw [run_cons, List.length_cons]
    omega

end GuardedRuns
