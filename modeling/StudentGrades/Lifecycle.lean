import Mathlib.Data.List.Basic
import Mathlib.Data.List.Nodup

/-!
# The life of handles

A handle is acquired once, read while it is live, and released once. The phase of a
handle along a trace depends on the acts on this handle alone, so blocks that
acquire, read and release a handle of their own may follow each other and may be
interleaved with the blocks of other threads.
-/

namespace Lifecycle

inductive Act | acquire | read | release
deriving DecidableEq

inductive Phase | unborn | live | dead
deriving DecidableEq

def Phase.step : Phase → Act → Option Phase
  | .unborn, .acquire => some .live
  | .live, .read => some .live
  | .live, .release => some .dead
  | _, _ => none

def Phase.run (p : Phase) (acts : List Act) : Option Phase := acts.foldlM Phase.step p

theorem Phase.run_append {p q : Phase} {as bs : List Act} (h : p.run as = some q) :
    p.run (as ++ bs) = q.run bs := by
  rw [Phase.run, List.foldlM_append]
  change (p.run as).bind (fun q => q.run bs) = _
  rw [h]
  rfl

theorem Phase.run_read {acts : List Act} (h : ∀ a ∈ acts, a = .read) :
    Phase.live.run acts = some .live := by
  induction acts with
  | nil => rfl
  | cons a acts ih =>
    have ha : a = .read := h a (by simp)
    subst ha
    exact ih fun b hb => h b (by simp [hb])

theorem Phase.run_bracket {reads : List Act} (h : ∀ a ∈ reads, a = .read) :
    Phase.unborn.run (.acquire :: (reads ++ [.release])) = some .dead := by
  have hacquire : Phase.unborn.run [.acquire] = some .live := rfl
  have hrelease : Phase.live.run [.release] = some .dead := rfl
  exact (Phase.run_append hacquire).trans ((Phase.run_append (Phase.run_read h)).trans hrelease)

theorem Phase.run_of_prefix {reads as : List Act} (hreads : ∀ a ∈ reads, a = .read)
    (h : as <+: .acquire :: (reads ++ [.release])) :
    (.acquire ∉ as ∧ Phase.unborn.run as = some .unborn) ∨
      (.acquire ∈ as ∧ .release ∉ as ∧ Phase.unborn.run as = some .live) ∨
      (.release ∈ as ∧ Phase.unborn.run as = some .dead) := by
  cases as with
  | nil => exact .inl ⟨by simp, rfl⟩
  | cons a as =>
    obtain ⟨rfl, has⟩ := List.cons_prefix_cons.1 h
    rcases List.prefix_concat_iff.1 has with rfl | has
    · exact .inr (.inr ⟨by simp, Phase.run_bracket hreads⟩)
    · have hread : ∀ a ∈ as, a = .read := fun a ha => hreads a (has.subset ha)
      refine .inr (.inl ⟨by simp, fun hr => ?_, Phase.run_read hread⟩)
      rcases List.mem_cons.1 hr with hr | hr
      · cases hr
      · cases hread _ hr

section Traces
variable {κ : Type*} [DecidableEq κ]

abbrev Trace (κ : Type*) := List (κ × Act)

def actsOn (k : κ) (t : Trace κ) : List Act := (t.filter fun e => e.1 = k).map Prod.snd

@[simp] theorem actsOn_nil (k : κ) : actsOn k [] = [] := rfl

theorem mem_actsOn {k : κ} {t : Trace κ} {a : Act} : a ∈ actsOn k t ↔ (k, a) ∈ t := by
  simp [actsOn]

theorem actsOn_append (k : κ) (s t : Trace κ) : actsOn k (s ++ t) = actsOn k s ++ actsOn k t := by
  simp [actsOn]

theorem actsOn_flatMap {γ : Type*} (k : κ) (f : γ → Trace κ) (cs : List γ) :
    actsOn k (cs.flatMap f) = cs.flatMap fun c => actsOn k (f c) := by
  induction cs with
  | nil => rfl
  | cons c cs ih => rw [List.flatMap_cons, actsOn_append, ih, List.flatMap_cons]

theorem actsOn_of_ne {k : κ} {t : Trace κ} (h : ∀ e ∈ t, e.1 ≠ k) : actsOn k t = [] := by
  rw [actsOn, List.map_eq_nil_iff, List.filter_eq_nil_iff]
  intro e he
  simpa using h e he

/-- No act came out of turn: nothing was read or released before it was acquired or
after its release, and nothing acquired again. -/
def InTurn (t : Trace κ) : Prop := ∀ k, (Phase.unborn.run (actsOn k t)).isSome

theorem InTurn.of_append {s t : Trace κ} (h : InTurn (s ++ t)) : InTurn s := by
  intro k
  have hk := h k
  rw [actsOn_append, Phase.run, List.foldlM_append] at hk
  change ((Phase.unborn.run (actsOn k s)).bind _).isSome at hk
  cases hrun : Phase.unborn.run (actsOn k s) with
  | none => simp [hrun] at hk
  | some p => rfl

def Balanced (t : Trace κ) : Prop :=
  ∀ k, Phase.unborn.run (actsOn k t) = some .unborn ∨ Phase.unborn.run (actsOn k t) = some .dead

theorem Balanced.inTurn {t : Trace κ} (h : Balanced t) : InTurn t := fun k => by
  rcases h k with hk | hk <;> simp [hk]

/-- The handle is not touched, or it is acquired, read and released. -/
def Closed (k : κ) (t : Trace κ) : Prop :=
  actsOn k t = [] ∨
    ∃ reads, (∀ a ∈ reads, a = Act.read) ∧ actsOn k t = .acquire :: (reads ++ [.release])

theorem Closed.append {k : κ} {s t : Trace κ} (hs : Closed k s) (ht : Closed k t)
    (h : actsOn k s = [] ∨ actsOn k t = []) : Closed k (s ++ t) := by
  unfold Closed at *
  rw [actsOn_append]
  rcases h with h | h
  · rwa [h, List.nil_append]
  · rwa [h, List.append_nil]

theorem Closed.run_of_prefix {k : κ} {t : Trace κ} (h : Closed k t) {as : List Act}
    (has : as <+: actsOn k t) :
    (.acquire ∉ as ∧ Phase.unborn.run as = some .unborn) ∨
      (.acquire ∈ as ∧ .release ∉ as ∧ Phase.unborn.run as = some .live) ∨
      (.release ∈ as ∧ Phase.unborn.run as = some .dead) := by
  rcases h with hk | ⟨reads, hreads, hk⟩
  · rw [hk, List.prefix_nil] at has
    left
    rw [has]
    exact ⟨by simp, rfl⟩
  · exact Phase.run_of_prefix hreads (hk ▸ has)

theorem balanced_of_closed {t : Trace κ} (h : ∀ k, Closed k t) : Balanced t := by
  intro k
  rcases h k with hk | ⟨reads, hreads, hk⟩
  · left
    rw [hk]
    rfl
  · right
    rw [hk]
    exact Phase.run_bracket hreads

end Traces

section Threads
variable {ι κ : Type*} [DecidableEq ι] [DecidableEq κ]

def project {γ : Type*} (i : ι) (t : List (ι × γ)) : List γ := (t.filter fun e => e.1 = i).map Prod.snd

theorem project_cons_self {γ : Type*} (i : ι) (c : γ) (t : List (ι × γ)) :
    project i ((i, c) :: t) = c :: project i t := by
  simp [project]

theorem project_cons_other {γ : Type*} {i j : ι} (h : j ≠ i) (c : γ) (t : List (ι × γ)) :
    project i ((j, c) :: t) = project i t := by
  simp [project, h]

theorem mem_project {γ : Type*} {i : ι} {c : γ} {t : List (ι × γ)} : c ∈ project i t ↔ (i, c) ∈ t := by
  simp [project]

theorem project_append {γ : Type*} (i : ι) (s t : List (ι × γ)) :
    project i (s ++ t) = project i s ++ project i t := by
  simp [project]

theorem project_tagged {γ : Type*} (i j : ι) (cs : List γ) :
    project i (cs.map fun c => (j, c)) = if j = i then cs else [] := by
  by_cases hj : j = i <;> simp [project, hj, Function.comp_def, List.filter_map]

theorem project_zipIdx {β γ : Type*} (f : β × ℕ → List γ) (l : List β) (m k : ℕ) :
    project m ((l.zipIdx k).flatMap fun e => (f e).map fun c => (e.2, c)) =
      if k ≤ m then (l[m-k]?).elim [] fun x => f (x, m) else [] := by
  induction l generalizing k with
  | nil => simp [project]
  | cons x l ih =>
    rw [List.zipIdx_cons, List.flatMap_cons, project_append, project_tagged, ih]
    rcases Nat.lt_trichotomy k m with hlt | rfl | hgt
    · have hindex : m - k = m - (k + 1) + 1 := by omega
      rw [if_neg (Nat.ne_of_lt hlt), if_pos (Nat.succ_le_of_lt hlt), if_pos (Nat.le_of_lt hlt), hindex,
        List.getElem?_cons_succ]
      rfl
    · rw [if_pos rfl, if_neg (by omega), if_pos (Nat.le_refl k), Nat.sub_self, List.append_nil]
      rfl
    · rw [if_neg (Nat.ne_of_gt hgt), if_neg (by omega), if_neg (by omega)]
      rfl

/-- The acts of a thread's events, on handles of its own and on one that is shared. -/
def owned (i : ι) (acts : Trace (Option κ)) : Trace (Option (ι × κ)) :=
  acts.map fun e => (e.1.map fun k => (i, k), e.2)

theorem actsOn_owned_self (i : ι) (k : κ) (acts : Trace (Option κ)) :
    actsOn (some (i, k)) (owned i acts) = actsOn (some k) acts := by
  induction acts with
  | nil => rfl
  | cons e acts ih =>
    obtain ⟨h, a⟩ := e
    simp only [actsOn, owned, List.map_cons, List.filter_cons] at ih ⊢
    cases h with
    | none => simpa using ih
    | some h => by_cases hk : h = k <;> simpa [hk] using ih

theorem actsOn_owned_other {i j : ι} (h : j ≠ i) (k : κ) (acts : Trace (Option κ)) :
    actsOn (some (i, k)) (owned j acts) = [] := by
  apply actsOn_of_ne
  intro e he
  obtain ⟨⟨h', a⟩, -, rfl⟩ := List.mem_map.1 he
  cases h' <;> simp [h]

theorem actsOn_owned_shared (i : ι) (acts : Trace (Option κ)) :
    actsOn none (owned i acts) = actsOn none acts := by
  induction acts with
  | nil => rfl
  | cons e acts ih =>
    obtain ⟨h, a⟩ := e
    simp only [actsOn, owned, List.map_cons, List.filter_cons] at ih ⊢
    cases h <;> simpa using ih

theorem actsOn_interleaved {γ : Type*} (acts : γ → Trace (Option κ)) (t : List (ι × γ)) (i : ι) (k : κ) :
    actsOn (some (i, k)) (t.flatMap fun e => owned e.1 (acts e.2)) =
      actsOn (some k) ((project i t).flatMap acts) := by
  induction t with
  | nil => rfl
  | cons e t ih =>
    obtain ⟨j, c⟩ := e
    rw [List.flatMap_cons, actsOn_append, ih]
    by_cases hij : j = i
    · subst hij
      rw [project_cons_self, List.flatMap_cons, actsOn_append, actsOn_owned_self]
    · rw [project_cons_other hij, actsOn_owned_other hij, List.nil_append]

theorem actsOn_shared {γ : Type*} (acts : γ → Trace (Option κ)) (t : List (ι × γ)) :
    actsOn none (t.flatMap fun e => owned e.1 (acts e.2)) =
      t.flatMap fun e => actsOn none (acts e.2) := by
  rw [actsOn_flatMap]
  exact List.flatMap_congr fun e _ => actsOn_owned_shared e.1 (acts e.2)

end Threads
end Lifecycle
