import Mathlib.Data.List.Basic

/-!
# Sessions that execute a file of statements

Each statement commits on its own. Its fate says whether the server executes it, rejects
it, takes it back after it has begun, or loses the connection before, within or after it.
What is taken back may leave something behind, as numbers of a sequence stay spent. A session
goes on after an error and ends where the connection is lost. Executed statements are
logged, so that a state knows what has ever been executed.
-/

namespace StatementSession

inductive Fate | ok | sqlError | aborted | lostBefore | lostWithin | lostAfter
deriving DecidableEq

def Fate.takesEffect : Fate → Bool
  | .ok | .lostAfter => true
  | .sqlError | .aborted | .lostBefore | .lostWithin => false

def Fate.rollsBack : Fate → Bool
  | .aborted | .lostWithin => true
  | .ok | .sqlError | .lostBefore | .lostAfter => false

/-- The statement is executed as a whole or never reaches the server. -/
def Fate.whole : Fate → Bool
  | .ok | .lostBefore | .lostAfter => true
  | .sqlError | .aborted | .lostWithin => false

inductive Reply | done | error | lost
deriving DecidableEq

/-- A state with the statements executed so far, newest first. -/
structure Logged (σ St : Type*) where
  state : σ
  log : List St
deriving DecidableEq

variable {σ St : Type*} (exec : St → σ → σ × Bool) (undone : St → σ → σ)

/-- The server executes a statement; one it refuses itself is not logged. -/
def perform (st : St) (s : Logged σ St) : Logged σ St × Bool :=
  let r := exec st s.state
  (⟨r.1, if r.2 then st :: s.log else s.log⟩, r.2)

def rollBack (st : St) (s : Logged σ St) : Logged σ St := { s with state := undone st s.state }

def statement (fate : Fate) (st : St) (s : Logged σ St) : Logged σ St × Reply :=
  match fate with
  | .ok => ((perform exec st s).1, if (perform exec st s).2 then .done else .error)
  | .sqlError => (s, .error)
  | .aborted => (rollBack undone st s, .error)
  | .lostBefore => (s, .lost)
  | .lostWithin => (rollBack undone st s, .lost)
  | .lostAfter => ((perform exec st s).1, .lost)

/-- A file of statements with their fates; a statement without a fate is executed. -/
def session : List St → List Fate → Logged σ St → Logged σ St × List Reply
  | [], _, s => (s, [])
  | st :: sts, fates, s =>
    let now := statement exec undone (fates.headD .ok) st s
    if now.2 = .lost then (now.1, [.lost])
    else
      let later := session sts fates.tail now.1
      (later.1, now.2 :: later.2)

/-- A session that is not cut off exits with zero, whatever was rejected. -/
def ExitsZero (replies : List Reply) : Prop := .lost ∉ replies

instance (replies : List Reply) : Decidable (ExitsZero replies) :=
  inferInstanceAs (Decidable (_ ∉ _))

variable {exec undone}

theorem statement_cases (fate : Fate) (st : St) (s : Logged σ St) :
    (fate.takesEffect = true ∧ (statement exec undone fate st s).1 = (perform exec st s).1) ∨
      (fate.takesEffect = false ∧ fate.rollsBack = false ∧ (statement exec undone fate st s).1 = s) ∨
      (fate.takesEffect = false ∧ fate.rollsBack = true ∧
        (statement exec undone fate st s).1 = rollBack undone st s) := by
  cases fate with
  | ok => exact .inl ⟨rfl, rfl⟩
  | sqlError => exact .inr (.inl ⟨rfl, rfl, rfl⟩)
  | aborted => exact .inr (.inr ⟨rfl, rfl, rfl⟩)
  | lostBefore => exact .inr (.inl ⟨rfl, rfl, rfl⟩)
  | lostWithin => exact .inr (.inr ⟨rfl, rfl, rfl⟩)
  | lostAfter => exact .inl ⟨rfl, rfl⟩

theorem statement_preserves {P : Logged σ St → Prop} {fate : Fate} {st : St} {s : Logged σ St}
    (hstep : P s → P (perform exec st s).1) (hundo : fate.rollsBack = true → P s → P (rollBack undone st s))
    (h : P s) : P (statement exec undone fate st s).1 := by
  rcases @statement_cases _ _ exec undone fate st s with ⟨-, he⟩ | ⟨-, -, he⟩ | ⟨-, hback, he⟩
  · rw [he]
    exact hstep h
  · rwa [he]
  · rw [he]
    exact hundo hback h

theorem statement_done_iff {fate : Fate} {st : St} {s : Logged σ St} :
    (statement exec undone fate st s).2 = .done ↔ fate = .ok ∧ (exec st s.state).2 = true := by
  cases fate with
  | ok => cases he : (exec st s.state).2 <;> simp [statement, perform, he]
  | sqlError => simp [statement]
  | aborted => simp [statement]
  | lostBefore => simp [statement]
  | lostWithin => simp [statement]
  | lostAfter => simp [statement]

theorem mem_log_perform {st x : St} {s : Logged σ St} :
    x ∈ (perform exec st s).1.log ↔ (x = st ∧ (exec st s.state).2 = true) ∨ x ∈ s.log := by
  simp only [perform]
  split_ifs with h <;> simp [h]

theorem log_perform (st : St) (s : Logged σ St) : s.log ⊆ (perform exec st s).1.log :=
  fun _ hx => mem_log_perform.2 (.inr hx)

theorem log_perform_subset (st : St) (s : Logged σ St) : (perform exec st s).1.log ⊆ st :: s.log :=
  fun _ hx => List.mem_cons.2 ((mem_log_perform.1 hx).imp_left And.left)

theorem mem_log_of_done {fate : Fate} {st : St} {s : Logged σ St}
    (h : (statement exec undone fate st s).2 = .done) : st ∈ (statement exec undone fate st s).1.log := by
  obtain ⟨rfl, hexec⟩ := statement_done_iff.1 h
  simp [statement, perform, hexec]

theorem session_preserves {P : Logged σ St → Prop} {sts : List St} {fates : List Fate}
    (hstep : ∀ st ∈ sts, ∀ s, P s → P (perform exec st s).1)
    (hundo : ∀ fate ∈ fates, fate.rollsBack = true → ∀ st ∈ sts, ∀ s, P s → P (rollBack undone st s))
    {s : Logged σ St} (h : P s) : P (session exec undone sts fates s).1 := by
  induction sts generalizing fates s with
  | nil => exact h
  | cons st sts ih =>
    have hnow : P (statement exec undone (fates.headD .ok) st s).1 := by
      refine statement_preserves (hstep st (by simp) s) (fun hback => ?_) h
      cases fates with
      | nil => cases hback
      | cons fate fates => exact hundo fate (by simp) hback st (by simp) s
    rw [session]
    split_ifs
    · exact hnow
    · refine ih (fun st hst => hstep st (by simp [hst])) (fun fate hfate hback st hst => ?_) hnow
      exact hundo fate (List.mem_of_mem_tail hfate) hback st (by simp [hst])

theorem log_session (sts : List St) (fates : List Fate) (s : Logged σ St) :
    s.log ⊆ (session exec undone sts fates s).1.log :=
  session_preserves (P := fun t => s.log ⊆ t.log)
    (fun st _ t ht => List.Subset.trans ht (log_perform st t)) (fun _ _ _ _ _ _ ht => ht)
    (List.Subset.refl _)

theorem mem_log_of_all_done {sts : List St} {fates : List Fate} {s : Logged σ St}
    (h : ∀ r ∈ (session exec undone sts fates s).2, r = .done) :
    ∀ st ∈ sts, st ∈ (session exec undone sts fates s).1.log := by
  induction sts generalizing fates s with
  | nil => simp
  | cons st sts ih =>
    rw [session] at h ⊢
    split_ifs at h ⊢ with hlost
    · exact absurd (h .lost (by simp)) (by simp)
    · simp only [List.forall_mem_cons] at h
      rw [List.forall_mem_cons]
      exact ⟨log_session sts fates.tail _ (mem_log_of_done h.1), ih h.2⟩

theorem whole_of_rollsBack {fate : Fate} (h : fate.rollsBack = true) : ¬ fate.whole = true := by
  cases fate <;> simp [Fate.rollsBack, Fate.whole] at h ⊢

theorem whole_head {fates : List Fate} (h : ∀ fate ∈ fates, fate.whole = true) :
    (fates.headD .ok).whole = true := by
  cases fates with
  | nil => rfl
  | cons fate fates => exact h fate (by simp)

theorem session_first {st : St} {sts : List St} {fates : List Fate} {s : Logged σ St}
    (hwhole : ∀ fate ∈ fates, fate.whole = true) :
    (session exec undone (st :: sts) fates s).1 = s ∨
      (session exec undone (st :: sts) fates s).1 = (perform exec st s).1 ∨
      (session exec undone (st :: sts) fates s).1 =
        (session exec undone sts fates.tail (perform exec st s).1).1 := by
  have hhead := whole_head hwhole
  rw [session]
  cases hf : fates.headD .ok with
  | ok =>
    right
    split_ifs
    · exact .inl rfl
    · exact .inr rfl
  | sqlError =>
    rw [hf] at hhead
    cases hhead
  | aborted =>
    rw [hf] at hhead
    cases hhead
  | lostBefore => exact .inl (by simp [statement])
  | lostWithin =>
    rw [hf] at hhead
    cases hhead
  | lostAfter => exact .inr (.inl (by simp [statement]))

theorem session_complete {sts : List St} {fates : List Fate} {s : Logged σ St}
    (hwhole : ∀ fate ∈ fates, fate.whole = true) (h : ExitsZero (session exec undone sts fates s).2) :
    (session exec undone sts fates s).1 = sts.foldl (fun t st => (perform exec st t).1) s := by
  induction sts generalizing fates s with
  | nil => rfl
  | cons st sts ih =>
    have hhead := whole_head hwhole
    rw [session] at h ⊢
    split_ifs at h ⊢ with hlost
    · simp [ExitsZero] at h
    · have hfate : fates.headD .ok = .ok := by
        revert hlost hhead
        cases fates.headD .ok <;> simp [statement, Fate.whole]
      simp only [ExitsZero, List.mem_cons, not_or] at h
      rw [ih (fun fate hfate => hwhole fate (List.mem_of_mem_tail hfate)) h.2, List.foldl_cons, hfate]
      rfl

end StatementSession
