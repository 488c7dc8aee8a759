import Mathlib.Data.List.Destutter
import Mathlib.Data.List.Sort

/-!
# Blocks of equal elements in a sorted list

Dropping consecutive repetitions of a list that is sorted by an antisymmetric
relation leaves each element once, so the result is determined by the elements
of the list alone. So is a list that is sorted by two keys, which no two elements
share.
-/

namespace SortedBlocks

variable {α : Type*} [DecidableEq α]

theorem mem_destutter' {a x : α} {l : List α} : x ∈ l.destutter' (· ≠ ·) a ↔ x ∈ a :: l := by
  induction l generalizing a with
  | nil => simp
  | cons b l ih =>
    by_cases hab : a = b
    · subst hab
      rw [List.destutter'_cons_neg _ (by simp), ih]
      simp
    · rw [List.destutter'_cons_pos _ hab, List.mem_cons, ih, List.mem_cons (l := b :: l)]

theorem mem_destutter {x : α} {l : List α} : x ∈ l.destutter (· ≠ ·) ↔ x ∈ l := by
  cases l with
  | nil => simp
  | cons a l => exact mem_destutter'

variable {r : α → α → Prop}

theorem nodup_destutter' (anti : ∀ a b, r a b → r b a → a = b) {a : α} {l : List α}
    (h : (a :: l).Pairwise r) : (l.destutter' (· ≠ ·) a).Nodup := by
  induction l generalizing a with
  | nil => simp
  | cons b l ih =>
    by_cases hab : a = b
    · subst hab
      rw [List.destutter'_cons_neg _ (by simp)]
      exact ih h.of_cons
    · rw [List.destutter'_cons_pos _ hab, List.nodup_cons, mem_destutter']
      refine ⟨fun hm => ?_, ih h.of_cons⟩
      rcases List.mem_cons.1 hm with he | hm
      · exact hab he
      · have hb : r a b := List.rel_of_pairwise_cons h (by simp)
        have ha : r b a := List.rel_of_pairwise_cons h.of_cons hm
        exact hab (anti a b hb ha)

theorem nodup_destutter (anti : ∀ a b, r a b → r b a → a = b) {l : List α} (h : l.Pairwise r) :
    (l.destutter (· ≠ ·)).Nodup := by
  cases l with
  | nil => simp
  | cons a l => exact nodup_destutter' anti h

theorem destutter_eq (anti : ∀ a b, r a b → r b a → a = b) {l m : List α} (hl : l.Pairwise r)
    (hm : m.Pairwise r) (hd : m.Nodup) (h : ∀ x, x ∈ l ↔ x ∈ m) : l.destutter (· ≠ ·) = m := by
  have hp : (l.destutter (· ≠ ·)).Perm m := by
    rw [List.perm_ext_iff_of_nodup (nodup_destutter anti hl) hd]
    exact fun x => mem_destutter.trans (h x)
  exact hp.eq_of_pairwise (fun a b _ _ => anti a b) (hl.sublist (List.destutter_sublist _ l)) hm

def KeyOrder {γ κ : Type*} (le : κ → κ → Prop) (key : γ → κ × κ) (a b : γ) : Prop :=
  ((key a).1 ≠ (key b).1 ∧ le (key a).1 (key b).1) ∨
    ((key a).1 = (key b).1 ∧ le (key a).2 (key b).2)

theorem KeyOrder.key_eq {γ κ : Type*} {le : κ → κ → Prop} {key : γ → κ × κ}
    (hanti : ∀ x y, le x y → le y x → x = y) {a b : γ} (hab : KeyOrder le key a b)
    (hba : KeyOrder le key b a) : key a = key b := by
  rcases hab with ⟨hne, hle⟩ | ⟨heq, hle⟩
  · rcases hba with ⟨-, hge⟩ | ⟨heq, -⟩
    · exact absurd (hanti _ _ hle hge) hne
    · exact absurd heq.symm hne
  · rcases hba with ⟨hne, -⟩ | ⟨-, hge⟩
    · exact absurd heq.symm hne
    · exact Prod.ext heq (hanti _ _ hle hge)

theorem eq_of_keyOrder {γ κ : Type*} {le : κ → κ → Prop} {key : γ → κ × κ}
    (hanti : ∀ x y, le x y → le y x → x = y) {as bs : List γ} (hperm : as.Perm bs)
    (hdistinct : (bs.map key).Nodup) (ha : as.Pairwise (KeyOrder le key))
    (hb : bs.Pairwise (KeyOrder le key)) : as = bs := by
  apply hperm.eq_of_pairwise _ ha hb
  intro a b hma hmb hab hba
  exact List.inj_on_of_nodup_map hdistinct (hperm.mem_iff.1 hma) hmb (hab.key_eq hanti hba)

end SortedBlocks
