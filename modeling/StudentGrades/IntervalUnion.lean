import Mathlib

/-!
# Unions of intervals

A list of closed intervals of integers covers the positions in one of them. Taking an
interval into one that it touches keeps what is covered; so does going through intervals
in the order of their first positions, whichever of the touching ones are kept apart.
-/

namespace IntervalUnion

abbrev Interval := ℤ × ℤ

def covered (rs : List Interval) : Set ℤ := ⋃ r ∈ rs, Set.Icc r.1 r.2

theorem mem_covered {rs : List Interval} {p : ℤ} : p ∈ covered rs ↔ ∃ r ∈ rs, r.1 ≤ p ∧ p ≤ r.2 := by
  simp only [covered, Set.mem_iUnion, Set.mem_Icc, exists_prop]

theorem covered_cons (r : Interval) (rs : List Interval) :
    covered (r :: rs) = Set.Icc r.1 r.2 ∪ covered rs := by
  ext p
  simp [mem_covered]

theorem covered_perm {rs rs' : List Interval} (h : rs.Perm rs') : covered rs = covered rs' := by
  ext p
  simp [mem_covered, h.mem_iff]

theorem Icc_extend {a b c d : ℤ} (hac : a ≤ c) (hcb : c ≤ b + 1) :
    Set.Icc a (max b d) = Set.Icc a b ∪ Set.Icc c d := by
  ext p
  simp only [Set.mem_Icc, Set.mem_union]
  omega

/-- The last interval comes first. A new one is put before it if it is `apart`, and else
taken into it. -/
def absorb (apart : Interval → Interval → Bool) : List Interval → Interval → List Interval
  | [], r => [r]
  | prev :: acc, r => if apart prev r then r :: prev :: acc else (prev.1, max prev.2 r.2) :: acc

variable {apart : Interval → Interval → Bool}

theorem absorb_ne_nil (acc : List Interval) (r : Interval) : absorb apart acc r ≠ [] := by
  cases acc with
  | nil => simp [absorb]
  | cons prev acc =>
    rw [absorb]
    split_ifs <;> simp

theorem covered_absorb (hapart : ∀ prev r, apart prev r = false → r.1 ≤ prev.2 + 1) {acc : List Interval}
    {r : Interval} (hfirst : ∀ prev ∈ acc.head?, prev.1 ≤ r.1) :
    covered (absorb apart acc r) = Set.Icc r.1 r.2 ∪ covered acc := by
  cases acc with
  | nil => exact covered_cons r []
  | cons prev acc =>
    rw [absorb]
    split_ifs with h
    · exact covered_cons r _
    · rw [covered_cons, covered_cons, Icc_extend (hfirst prev rfl) (hapart prev r (by simpa using h)),
        Set.union_comm (Set.Icc prev.1 prev.2), Set.union_assoc]

theorem first_absorb {acc : List Interval} {r s : Interval} (hacc : ∀ prev ∈ acc.head?, prev.1 ≤ s.1)
    (hr : r.1 ≤ s.1) : ∀ prev ∈ (absorb apart acc r).head?, prev.1 ≤ s.1 := by
  cases acc with
  | nil => simpa [absorb] using hr
  | cons prev acc =>
    rw [absorb]
    split_ifs
    · simpa using hr
    · simpa using hacc

theorem bounds_absorb {lo hi : ℤ} {acc : List Interval} {r : Interval}
    (hacc : ∀ s ∈ acc, lo ≤ s.1 ∧ s.1 ≤ s.2 ∧ s.2 ≤ hi) (hr : lo ≤ r.1 ∧ r.1 ≤ r.2 ∧ r.2 ≤ hi) :
    ∀ s ∈ absorb apart acc r, lo ≤ s.1 ∧ s.1 ≤ s.2 ∧ s.2 ≤ hi := by
  cases acc with
  | nil => simpa [absorb] using hr
  | cons prev acc =>
    obtain ⟨hprev, hacc⟩ := List.forall_mem_cons.1 hacc
    rw [absorb]
    split_ifs
    · exact List.forall_mem_cons.2 ⟨hr, List.forall_mem_cons.2 ⟨hprev, hacc⟩⟩
    · refine List.forall_mem_cons.2 ⟨⟨hprev.1, ?_, ?_⟩, hacc⟩
      · exact hprev.2.1.trans (le_max_left _ _)
      · exact max_le hprev.2.2 hr.2.2

theorem covered_absorbAll (hapart : ∀ prev r, apart prev r = false → r.1 ≤ prev.2 + 1)
    {rs : List Interval} (hsorted : rs.Pairwise fun a b => a.1 ≤ b.1) {acc : List Interval}
    (hfirst : ∀ prev ∈ acc.head?, ∀ r ∈ rs, prev.1 ≤ r.1) :
    covered (rs.foldl (absorb apart) acc) = covered rs ∪ covered acc := by
  induction rs generalizing acc with
  | nil => simp [covered]
  | cons r rs ih =>
    rw [List.pairwise_cons] at hsorted
    have hnext : ∀ prev ∈ (absorb apart acc r).head?, ∀ s ∈ rs, prev.1 ≤ s.1 := fun prev hprev s hs =>
      first_absorb (fun p hp => hfirst p hp s (by simp [hs])) (hsorted.1 s hs) prev hprev
    rw [List.foldl_cons, ih hsorted.2 hnext,
      covered_absorb hapart fun prev hprev => hfirst prev hprev r (by simp), covered_cons,
      ← Set.union_assoc, Set.union_comm (covered rs)]

theorem bounds_absorbAll {lo hi : ℤ} {rs acc : List Interval}
    (hrs : ∀ s ∈ rs, lo ≤ s.1 ∧ s.1 ≤ s.2 ∧ s.2 ≤ hi) (hacc : ∀ s ∈ acc, lo ≤ s.1 ∧ s.1 ≤ s.2 ∧ s.2 ≤ hi) :
    ∀ s ∈ rs.foldl (absorb apart) acc, lo ≤ s.1 ∧ s.1 ≤ s.2 ∧ s.2 ≤ hi := by
  induction rs generalizing acc with
  | nil => exact hacc
  | cons r rs ih =>
    obtain ⟨hr, hrs⟩ := List.forall_mem_cons.1 hrs
    exact ih hrs (bounds_absorb hacc hr)

theorem absorbAll_ne_nil {rs acc : List Interval} (h : rs ≠ [] ∨ acc ≠ []) :
    rs.foldl (absorb apart) acc ≠ [] := by
  induction rs generalizing acc with
  | nil => simpa using h
  | cons r rs ih => exact ih (.inr (absorb_ne_nil acc r))

end IntervalUnion
