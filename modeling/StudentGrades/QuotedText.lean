import Mathlib.Data.List.Basic

/-!
# Texts with quoted values

Between two quotes a doubled quote stands for one, and the first quote that is not
doubled ends the value. A form has values in quotes between fixed texts. What is written
into it as it is comes back exactly when no value contains the quote around it.
-/

namespace QuotedText

variable {α : Type*}

structure Slot (α : Type*) where
  before : List α
  quote : α

def Slot.fixed (s : Slot α) : List α := s.before ++ [s.quote]

def write (last : List α) : List (Slot α × List α) → List α
  | [] => last
  | (s, v) :: rest => s.fixed ++ (v ++ s.quote :: write last rest)

def Separated (last : List α) : List (Slot α) → Prop
  | [] => True
  | [s] => last.head? ≠ some s.quote
  | s :: t :: slots => t.fixed.head? ≠ some s.quote ∧ Separated last (t :: slots)

theorem Separated.tail {last : List α} {s : Slot α} {slots : List (Slot α)}
    (h : Separated last (s :: slots)) : Separated last slots := by
  cases slots with
  | nil => trivial
  | cons t slots => exact h.2

theorem Separated.head {last : List α} {p : Slot α × List α} {values : List (Slot α × List α)}
    (h : Separated last ((p :: values).map Prod.fst)) : (write last values).head? ≠ some p.1.quote := by
  cases values with
  | nil => exact h
  | cons u values =>
    have hfixed : (write last (u :: values)).head? = u.1.fixed.head? := by
      rw [write, List.head?_append_of_ne_nil _ (by simp [Slot.fixed])]
    rw [hfixed]
    exact h.1

variable [DecidableEq α]

def readQuoted (q : α) : List α → Option (List α × List α)
  | [] => none
  | [b] => if b = q then some ([], []) else none
  | b :: c :: rest =>
    if b = q then
      if c = q then (readQuoted q rest).map fun r => (q :: r.1, r.2) else some ([], c :: rest)
    else (readQuoted q (c :: rest)).map fun r => (b :: r.1, r.2)

def double (q : α) (v : List α) : List α := v.flatMap fun b => if b = q then [q, q] else [b]

theorem double_cons_self (q : α) (v : List α) : double q (q :: v) = q :: q :: double q v := by
  simp [double]

theorem double_cons_other {q b : α} (h : b ≠ q) (v : List α) : double q (b :: v) = b :: double q v := by
  simp [double, h]

theorem double_of_not_mem {q : α} {v : List α} (h : q ∉ v) : double q v = v := by
  induction v with
  | nil => rfl
  | cons b v ih =>
    rw [List.mem_cons, not_or] at h
    rw [double_cons_other (Ne.symm h.1), ih h.2]

theorem readQuoted_double {q : α} {r : List α} (hr : r.head? ≠ some q) (v : List α) :
    readQuoted q (double q v ++ q :: r) = some (v, r) := by
  induction v with
  | nil =>
    cases r with
    | nil => simp [double, readQuoted]
    | cons c r =>
      have hc : c ≠ q := by simpa using hr
      simp [double, readQuoted, hc]
  | cons b v ih =>
    by_cases hb : b = q
    · subst hb
      simp [double_cons_self, readQuoted, ih]
    · obtain ⟨c, rest, hrest⟩ : ∃ c rest, double q v ++ q :: r = c :: rest :=
        List.exists_cons_of_ne_nil (by simp)
      rw [hrest] at ih
      rw [double_cons_other hb, List.cons_append, hrest]
      simp [readQuoted, hb, ih]

theorem eq_double {q : α} {text v r : List α} (h : readQuoted q text = some (v, r)) :
    text = double q v ++ q :: r ∧ r.head? ≠ some q := by
  induction text using readQuoted.induct q generalizing v with
  | case1 => simp [readQuoted] at h
  | case2 =>
    obtain ⟨rfl, rfl⟩ : v = [] ∧ r = [] := by simpa [readQuoted, eq_comm] using h
    simp [double]
  | case3 b hb => simp [readQuoted, hb] at h
  | case4 rest ih =>
    obtain ⟨v', hread, rfl⟩ : ∃ v', readQuoted q rest = some (v', r) ∧ q :: v' = v := by
      simpa [readQuoted] using h
    obtain ⟨htext, hr⟩ := ih hread
    exact ⟨by rw [double_cons_self, htext]; rfl, hr⟩
  | case5 c rest hc =>
    obtain ⟨rfl, rfl⟩ : v = [] ∧ r = c :: rest := by simpa [readQuoted, hc, eq_comm] using h
    simpa [double] using hc
  | case6 b c rest hb ih =>
    obtain ⟨v', hread, rfl⟩ : ∃ v', readQuoted q (c :: rest) = some (v', r) ∧ b :: v' = v := by
      simpa [readQuoted, hb] using h
    obtain ⟨htext, hr⟩ := ih hread
    exact ⟨by rw [double_cons_other hb, htext]; rfl, hr⟩

theorem shifted_ne {q : α} {post r : List α} (hpost : post.head? ≠ some q) (n : ℕ) (v : List α) :
    v ++ q :: post ≠ List.replicate (n + 1) q ++ (double q v ++ q :: r) := by
  induction v generalizing n with
  | nil =>
    intro h
    cases n with
    | zero => simp [double] at h; simp [h] at hpost
    | succ n => simp [List.replicate_succ] at h; simp [h] at hpost
  | cons b v ih =>
    intro h
    rw [List.replicate_succ, List.cons_append, List.cons_append, List.cons.injEq] at h
    obtain ⟨rfl, h⟩ := h
    refine ih (n + 1) (h.trans ?_)
    rw [double_cons_self, List.replicate_succ', List.replicate_succ']
    simp

theorem not_mem_of_read {q : α} {v post r : List α} (hpost : post.head? ≠ some q)
    (h : readQuoted q (v ++ q :: post) = some (v, r)) : q ∉ v := by
  have htext := (eq_double h).1
  clear h
  induction v with
  | nil => simp
  | cons b v ih =>
    by_cases hb : b = q
    · subst hb
      rw [double_cons_self, List.cons_append, List.cons_append, List.cons.injEq] at htext
      exact absurd htext.2 (shifted_ne hpost 0 v)
    · rw [double_cons_other hb, List.cons_append, List.cons_append, List.cons.injEq] at htext
      simpa [Ne.symm hb] using ih htext.2

def read (last : List α) : List (Slot α) → List α → Option (List (List α))
  | [], text => if text = last then some [] else none
  | s :: slots, text =>
    if s.fixed.isPrefixOf text then
      match readQuoted s.quote (text.drop s.fixed.length) with
      | none => none
      | some (v, rest) => (read last slots rest).map (v :: ·)
    else none

theorem read_write_iff {last : List α} {values : List (Slot α × List α)}
    (h : Separated last (values.map Prod.fst)) :
    read last (values.map Prod.fst) (write last values) = some (values.map Prod.snd) ↔
      ∀ p ∈ values, p.1.quote ∉ p.2 := by
  induction values with
  | nil => simp [read, write]
  | cons p values ih =>
    have hvalue := h.head
    have hread : read last ((p :: values).map Prod.fst) (write last (p :: values)) =
        match readQuoted p.1.quote (p.2 ++ p.1.quote :: write last values) with
        | none => none
        | some (v, rest) => (read last (values.map Prod.fst) rest).map (v :: ·) := by
      rw [List.map_cons, read, write, if_pos (by simp), List.drop_left]
    rw [hread, List.forall_mem_cons, ← ih h.tail]
    constructor
    · intro hall
      split at hall
      · cases hall
      · next v rest hquoted =>
        obtain ⟨vs, hvs, hcons⟩ := Option.map_eq_some_iff.1 hall
        rw [List.map_cons, List.cons.injEq] at hcons
        obtain ⟨rfl, rfl⟩ := hcons
        have hmem := not_mem_of_read hvalue hquoted
        have hexact := readQuoted_double hvalue p.2
        rw [double_of_not_mem hmem, hquoted, Option.some.injEq, Prod.mk.injEq] at hexact
        exact ⟨hmem, hexact.2 ▸ hvs⟩
    · rintro ⟨hmem, hvs⟩
      have hexact := readQuoted_double hvalue p.2
      rw [double_of_not_mem hmem] at hexact
      simp only [hexact, hvs, Option.map_some, List.map_cons]

end QuotedText
