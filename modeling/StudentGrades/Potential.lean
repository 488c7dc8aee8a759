import StudentGrades.Transducer

/-!
# Potentials of byte-driven machines

Where every step gains at most one unit of potential, counting the weight of its
output, a run gains at most its length. A run that gains exactly its length is
tight: it wastes no step.
-/

namespace Transducer

variable {σ α β : Type*} (step : σ → α → σ × List β) (potential : σ → ℕ) (weight : β → ℕ)

def totalWeight : List β → ℕ
  | [] => 0
  | o :: out => weight o + totalWeight out

@[simp] theorem totalWeight_nil : totalWeight weight [] = 0 := rfl

@[simp] theorem totalWeight_cons (o : β) (out : List β) :
    totalWeight weight (o :: out) = weight o + totalWeight weight out := rfl

@[simp] theorem totalWeight_append (out out' : List β) :
    totalWeight weight (out ++ out') = totalWeight weight out + totalWeight weight out' := by
  induction out with
  | nil => simp
  | cons o out ih => rw [List.cons_append, totalWeight_cons, totalWeight_cons, ih, Nat.add_assoc]

theorem totalWeight_perm {out out' : List β} (h : out.Perm out') :
    totalWeight weight out = totalWeight weight out' := by
  induction h with
  | nil => rfl
  | cons o _ ih => rw [totalWeight_cons, totalWeight_cons, ih]
  | swap o p out => simp only [totalWeight_cons, Nat.add_left_comm]
  | trans _ _ ih ih' => exact ih.trans ih'

def Bounded : Prop :=
  ∀ s a, potential (step s a).1 + totalWeight weight (step s a).2 ≤ potential s + 1

def Tight : σ → List α → Prop
  | _, [] => True
  | s, a :: as =>
    potential (step s a).1 + totalWeight weight (step s a).2 = potential s + 1 ∧ Tight (step s a).1 as

variable {step potential weight}

theorem run_potential (h : Bounded step potential weight) (s : σ) (as : List α) :
    potential (run step s as).1 + totalWeight weight (run step s as).2 ≤ potential s + as.length := by
  induction as generalizing s with
  | nil => simp
  | cons a as ih =>
    have hstep := h s a
    have hrest := ih (step s a).1
    simp only [run, totalWeight_append, List.length_cons]
    omega

theorem tight_of_potential (h : Bounded step potential weight) {s : σ} {as : List α}
    (heq : potential (run step s as).1 + totalWeight weight (run step s as).2 =
      potential s + as.length) : Tight step potential weight s as := by
  induction as generalizing s with
  | nil => trivial
  | cons a as ih =>
    have hstep := h s a
    have hrest := run_potential h (step s a).1 as
    simp only [run, totalWeight_append, List.length_cons] at heq
    refine ⟨by omega, ih (by omega)⟩

theorem tight_append {s : σ} {as bs : List α} :
    Tight step potential weight s (as ++ bs) ↔
      Tight step potential weight s as ∧ Tight step potential weight (run step s as).1 bs := by
  induction as generalizing s with
  | nil => simp [Tight]
  | cons a as ih => simp only [List.cons_append, Tight, run, ih, and_assoc]

end Transducer
