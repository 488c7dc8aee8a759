import StudentGrades.PidFileRuns

/-!
# Stopping the application

A stopping script ends after a bounded number of its own steps, whatever the other
scripts and processes do. When `stop.sh` or the trap of `start.sh` has ended and no
third script has meddled, the application is not running; when the waiting
`start.sh` has ended too, there is no PID file.
-/

namespace StudentGrades
namespace PidFile
open GuardedRuns

def StopPc.left (k : Stopper) : StopPc → ℕ
  | .test => k.timeout + 8
  | .read => k.timeout + 7
  | .check _ => k.timeout + 6
  | .term _ => k.timeout + 5
  | .loop _ left => left + 4
  | .kill9 _ => 3
  | .recheck _ => 2
  | .remove => 1

def Pc.left : Pc → ℕ
  | .stopper k pc => pc.left k
  | _ => 0

def Pc.Stops (pc : Pc) : Prop := pc = .done ∨ ∃ k at', pc = .stopper k at'

variable {ι : Type*} [DecidableEq ι]

def Event.script : Event ι → Option ι
  | .step i | .giveUp i | .launch i _ | .signal i | .kill i => some i
  | .exit _ | .reap _ | .spawn _ => none

theorem stops_stopper (k : Stopper) (pc : StopPc) : (Pc.stopper k pc).Stops := .inr ⟨k, pc, rfl⟩

theorem stopStep_goto (s : State ι) (i : ι) (k : Stopper) (pc : StopPc) :
    ∃ (t : State ι) (pc' : Pc), s.stopStep i k pc = t.goto i pc' ∧ t.pcs = s.pcs ∧
      (∀ q j, t.alive q j → s.alive q j) ∧ pc'.Stops ∧ pc'.left + 1 ≤ pc.left k := by
  have hsame : ∀ q j, s.alive q j → s.alive q j := fun _ _ => id
  cases pc with
  | test =>
    refine ⟨s, _, rfl, rfl, hsame, ?_, ?_⟩ <;> split_ifs
    · exact stops_stopper _ _
    · exact .inl rfl
    · exact Nat.le_refl _
    · simp [Pc.left, StopPc.left]
  | read => exact ⟨s, _, rfl, rfl, hsame, stops_stopper _ _, Nat.le_refl _⟩
  | check pid =>
    cases pid with
    | none => exact ⟨s, _, rfl, rfl, hsame, stops_stopper _ _, by simp [Pc.left, StopPc.left]⟩
    | some p =>
      simp only [State.stopStep]
      split_ifs
      · exact ⟨s, _, rfl, rfl, hsame, stops_stopper _ _, by simp [Pc.left, StopPc.left]⟩
      · exact ⟨s, _, rfl, rfl, hsame, stops_stopper _ _, by simp [Pc.left, StopPc.left]⟩
      · exact ⟨s, _, rfl, rfl, hsame, stops_stopper _ _, by simp [Pc.left, StopPc.left]⟩
  | term p =>
    simp only [State.stopStep]
    split_ifs
    · exact ⟨s, _, rfl, rfl, hsame, .inl rfl, by simp [Pc.left, StopPc.left]⟩
    · exact ⟨s.record p, _, rfl, rfl, hsame, stops_stopper _ _, Nat.le_refl _⟩
  | loop p left =>
    cases left with
    | zero => exact ⟨s, _, rfl, rfl, hsame, stops_stopper _ _, Nat.le_refl _⟩
    | succ left =>
      refine ⟨s, _, rfl, rfl, hsame, stops_stopper _ _, ?_⟩
      split_ifs
      · exact Nat.le_refl _
      · simp [Pc.left, StopPc.left]
  | kill9 p =>
    refine ⟨(s.record p).exit p, _, rfl, rfl, fun _ _ hq => (State.exit_alive hq).2, stops_stopper _ _, ?_⟩
    rcases k with _ | ⟨_ | _, t⟩ <;> simp [Pc.left, StopPc.left, State.afterKill]
  | recheck p =>
    refine ⟨s, _, rfl, rfl, hsame, ?_, ?_⟩ <;> split_ifs
    · exact .inl rfl
    · exact stops_stopper _ _
    · simp [Pc.left, StopPc.left]
    · exact Nat.le_refl _
  | remove => exact ⟨s.removeFile, _, rfl, rfl, hsame, .inl rfl, Nat.le_refl _⟩

theorem scriptStep_pcs_other (s : State ι) {i j : ι} (h : j ≠ i) (pc : Pc) :
    (s.scriptStep i pc).pcs j = s.pcs j := by
  cases pc with
  | stopper k pc =>
    obtain ⟨t, pc', hstep, hpcs, -⟩ := stopStep_goto s i k pc
    change (s.stopStep i k pc).pcs j = _
    rw [hstep, goto_other h, hpcs]
  | ready | done => rfl
  | waiting p =>
    rw [State.scriptStep]
    split_ifs
    · rfl
    · exact goto_other h
  | launched p =>
    rw [State.scriptStep, State.openFile]
    cases s.file <;> exact goto_other h
  | _ => exact goto_other h

theorem step_pcs_other (s : State ι) {e : Event ι} {i : ι} (h : e.script ≠ some i) :
    (step s e).pcs i = s.pcs i := by
  have hne {j : ι} (hj : some j ≠ some i) : i ≠ j := fun hij => hj (hij ▸ rfl)
  cases e with
  | step j => exact scriptStep_pcs_other s (hne h) _
  | giveUp j | launch j p =>
    rw [step]
    split_ifs
    · exact goto_other (hne h)
    · rfl
  | signal j | kill j => exact goto_other (hne h)
  | exit p => rfl
  | reap p =>
    rw [step, State.reap]
    split <;> rfl
  | spawn p =>
    rw [step]
    split_ifs <;> rfl

theorem scriptStep_alive (s : State ι) {i j : ι} {pc : Pc} {q : Pid}
    (h : (s.scriptStep i pc).alive q j) : s.alive q j := by
  cases pc with
  | stopper k pc =>
    obtain ⟨t, pc', hstep, -, halive, -⟩ := stopStep_goto s i k pc
    change (s.stopStep i k pc).alive q j at h
    rw [hstep] at h
    exact halive q j h
  | waiting p =>
    rw [State.scriptStep] at h
    split_ifs at h <;> exact h
  | launched p =>
    rw [State.scriptStep, State.openFile] at h
    cases hfile : s.file <;> simp only [hfile] at h <;> exact h
  | _ => exact h

theorem step_alive {s : State ι} {e : Event ι} (he : ∀ i p, e ≠ .launch i p) {q : Pid} {j : ι}
    (h : (step s e).alive q j) : s.alive q j := by
  have hset {p : Pid} {x : Option (Proc ι)} (hx : x ≠ some (.app j true))
      (h : (s.setProc p x).alive q j) : s.alive q j := by
    by_cases hqp : q = p
    · subst hqp
      simp [State.alive, hx] at h
    · rwa [setProc_alive_other hqp] at h
  cases e with
  | step i => exact scriptStep_alive s h
  | giveUp i =>
    rw [step] at h
    split_ifs at h <;> exact h
  | launch i p => exact absurd rfl (he i p)
  | signal i | kill i => exact h
  | exit p => exact (State.exit_alive h).2
  | reap p =>
    rw [step, State.reap] at h
    split at h
    · exact hset (by simp) h
    · exact h
  | spawn p =>
    rw [step] at h
    split_ifs at h
    · exact hset (by simp) h
    · exact h

theorem Pc.Stops.ne {pc : Pc} (h : pc.Stops) : pc ≠ .prepare ∧ pc ≠ .ready := by
  rcases h with rfl | ⟨k, pc, rfl⟩ <;> simp

theorem ownStep_left {s : State ι} {i : ι} (hs : (s.pcs i).Stops) :
    ((step s (.step i)).pcs i).Stops ∧ ((step s (.step i)).pcs i).left ≤ (s.pcs i).left - 1 := by
  rcases hs with hs | ⟨k, pc, hs⟩
  · rw [step, hs]
    exact ⟨.inl hs, by rw [State.scriptStep, hs]; exact Nat.zero_le _⟩
  · obtain ⟨t, pc', hstep, -, -, hstops, hleft⟩ := stopStep_goto s i k pc
    rw [step, hs, State.scriptStep, hstep, goto_self]
    exact ⟨hstops, Nat.le_sub_one_of_lt hleft⟩

theorem step_left {s : State ι} {e : Event ι} {i : ι} (hs : (s.pcs i).Stops) (he : e ≠ .signal i) :
    ((step s e).pcs i).Stops ∧ ((step s e).pcs i).left ≤ (s.pcs i).left := by
  by_cases hi : e.script = some i
  · cases e with
    | step j =>
      obtain rfl := Option.some.inj hi
      exact (ownStep_left hs).imp_right fun h => h.trans (Nat.sub_le _ _)
    | giveUp j =>
      obtain rfl := Option.some.inj hi
      rw [step, if_neg hs.ne.1]
      exact ⟨hs, le_rfl⟩
    | launch j p =>
      obtain rfl := Option.some.inj hi
      rw [step, if_neg fun h => hs.ne.2 h.1]
      exact ⟨hs, le_rfl⟩
    | signal j =>
      obtain rfl := Option.some.inj hi
      exact absurd rfl he
    | kill j =>
      obtain rfl := Option.some.inj hi
      rw [step, goto_self]
      exact ⟨.inl rfl, Nat.zero_le _⟩
    | exit p | reap p | spawn p => cases hi
  · rw [step_pcs_other s hi]
    exact ⟨hs, le_rfl⟩

theorem meets_of_forall {s : State ι} {allowed : Event ι → Prop} {events : List (Event ι)}
    (h : ∀ e ∈ events, allowed e) : Meets step (fun _ e => allowed e) s events := by
  induction events generalizing s with
  | nil => trivial
  | cons e events ih => exact ⟨h e (by simp), ih fun e' he' => h e' (by simp [he'])⟩

theorem done_of_left {pc : Pc} (hs : pc.Stops) (h : pc.left = 0) : pc = .done := by
  rcases hs with rfl | ⟨k, pc, rfl⟩
  · rfl
  · cases pc <;> simp [Pc.left, StopPc.left] at h

theorem stopper_ends {s : State ι} {i : ι} (hs : (s.pcs i).Stops) {events : List (Event ι)}
    (hsignal : .signal i ∉ events) (hsteps : (s.pcs i).left ≤ events.count (.step i)) :
    (run step s events).pcs i = .done := by
  have hmeets : Meets step (fun _ e => e ≠ .signal i) s events :=
    meets_of_forall fun e he h => hsignal (h ▸ he)
  have hstops : ((run step s events).pcs i).Stops :=
    @run_invariant _ _ step _ (fun s => (s.pcs i).Stops) (fun _ _ h he => (step_left h he).1) _ _
      hs hmeets
  have hrank : ((run step s events).pcs i).left ≤ (s.pcs i).left - events.count (.step i) :=
    rank_run (fun s : State ι => (s.pcs i).Stops) (fun s => (s.pcs i).left)
      (fun e : Event ι => e == .step i) (fun _ _ h he => (step_left h he).1) (fun _ _ h he => (step_left h he).2)
      (fun _ e h _ he => by rw [beq_iff_eq.1 he]; exact (ownStep_left h).2) hs hmeets
  exact done_of_left hstops (by omega)

/-- Steps of the script that owns the application and of the one that stops it;
processes come and go, but nobody signals or kills a script. -/
def Allowed (owner stopper : ι) : Event ι → Prop
  | .step i => i = owner ∨ i = stopper
  | .exit _ | .reap _ | .spawn _ => True
  | _ => False

omit [DecidableEq ι] in
theorem eq_step_of_allowed {owner stopper i : ι} {e : Event ι} (he : Allowed owner stopper e)
    (hi : e.script = some i) : e = .step i :=
  match e, he, hi with
  | .step _, _, hi => congrArg Event.step (Option.some.inj hi)

namespace State
variable (s : State ι)

def Sure (p : Pid) : StopPc → Prop
  | .test | .read => True
  | .check none => s.NoneAlive
  | .check (some q) => q = p
  | .term q | .loop q _ | .kill9 q => q = p
  | .recheck _ | .remove => s.NoneAlive

def SureAt (p : Pid) (pc : Pc) : Prop :=
  pc = .done ∧ s.NoneAlive ∨ ∃ k at', pc = .stopper k at' ∧ s.Sure p at'

def Waits (p : Pid) (pc : Pc) : Prop :=
  pc = .waiting p ∨ pc = .removeLast ∧ s.NoneAlive ∨ pc = .done ∧ s.file = none ∧ s.NoneAlive

end State

structure Closing (owner stopper : ι) (p : Pid) (s : State ι) : Prop where
  only : ∀ q i, s.alive q i → q = p ∧ i = owner
  named : ∀ f, s.file = some f → f.content = some p
  removed : s.file = none → s.NoneAlive
  waits : owner ≠ stopper → s.Waits p (s.pcs owner)
  sure : s.SureAt p (s.pcs stopper)

section Closing
variable {owner stopper : ι} {p : Pid} {s t : State ι}

theorem noneAlive_mono (h : s.NoneAlive) (halive : ∀ q i, t.alive q i → s.alive q i) : t.NoneAlive :=
  State.noneAlive_of fun q i hq => Bool.false_ne_true ((h q i).symm.trans (halive q i hq))

theorem sure_mono {pc : StopPc} (h : s.Sure p pc) (halive : ∀ q i, t.alive q i → s.alive q i) :
    t.Sure p pc := by
  match pc, h with
  | .test, _ | .read, _ => trivial
  | .check none, h | .recheck _, h | .remove, h => exact noneAlive_mono h halive
  | .check (some q), h | .term q, h | .loop q _, h | .kill9 q, h => exact h

theorem sureAt_mono {pc : Pc} (h : s.SureAt p pc) (halive : ∀ q i, t.alive q i → s.alive q i) :
    t.SureAt p pc := by
  rcases h with ⟨rfl, h⟩ | ⟨k, pc, rfl, h⟩
  · exact .inl ⟨rfl, noneAlive_mono h halive⟩
  · exact .inr ⟨k, pc, rfl, sure_mono h halive⟩

theorem waits_mono {pc : Pc} (h : s.Waits p pc) (halive : ∀ q i, t.alive q i → s.alive q i)
    (hfile : s.file = none → t.file = none) : t.Waits p pc := by
  rcases h with h | ⟨h, hn⟩ | ⟨h, hf, hn⟩
  · exact .inl h
  · exact .inr (.inl ⟨h, noneAlive_mono hn halive⟩)
  · exact .inr (.inr ⟨h, hfile hf, noneAlive_mono hn halive⟩)

theorem Closing.world (h : Closing owner stopper p s) (halive : ∀ q i, t.alive q i → s.alive q i)
    (hfile : t.file = s.file ∨ t.file = none ∧ t.NoneAlive) (hpcs : t.pcs = s.pcs) :
    Closing owner stopper p t where
  only q i hq := h.only q i (halive q i hq)
  named f hf := by
    rcases hfile with hsame | ⟨hnone, -⟩
    · exact h.named f (hsame ▸ hf)
    · simp [hnone] at hf
  removed hf := by
    rcases hfile with hsame | ⟨-, hn⟩
    · exact noneAlive_mono (h.removed (hsame ▸ hf)) halive
    · exact hn
  waits hne := by
    rw [hpcs]
    exact waits_mono (h.waits hne) halive fun hf => by rcases hfile with hsame | ⟨hnone, -⟩ <;> simp_all
  sure := by
    rw [hpcs]
    exact sureAt_mono h.sure halive

theorem Closing.gotoStopper (h : Closing owner stopper p s) {pc : Pc} (hpc : s.SureAt p pc) :
    Closing owner stopper p (s.goto stopper pc) where
  only := h.only
  named := h.named
  removed := h.removed
  waits hne := by
    rw [goto_other hne]
    exact h.waits hne
  sure := by
    rw [goto_self]
    exact hpc

theorem Closing.gotoOwner (h : Closing owner stopper p s) (hne : owner ≠ stopper) {pc : Pc}
    (hpc : s.Waits p pc) : Closing owner stopper p (s.goto owner pc) where
  only := h.only
  named := h.named
  removed := h.removed
  waits _ := by
    rw [goto_self]
    exact hpc
  sure := by
    rw [goto_other hne.symm]
    exact h.sure

theorem Closing.setProc (h : Closing owner stopper p s) {r : Pid} {x : Option (Proc ι)}
    (hx : ∀ i, x ≠ some (.app i true)) : Closing owner stopper p (s.setProc r x) := by
  refine h.world (fun q i hq => ?_) (.inl rfl) rfl
  by_cases hqr : q = r
  · subst hqr
    simp [State.alive, hx i] at hq
  · rwa [setProc_alive_other hqr] at hq

theorem Closing.stopStep (h : Closing owner stopper p s) {k : Stopper} {pc : StopPc}
    (hpc : s.Sure p pc) : Closing owner stopper p (s.stopStep stopper k pc) := by
  have hon {pc : StopPc} (hpc : s.Sure p pc) : s.SureAt p (.stopper k pc) := .inr ⟨k, pc, rfl, hpc⟩
  have hsilent (hr : ¬ s.responds p) : s.NoneAlive := State.noneAlive_of fun q i hq => by
    obtain ⟨rfl, -⟩ := h.only q i hq
    simp_all [State.alive, State.responds]
  cases pc with
  | test =>
    refine h.gotoStopper ?_
    split_ifs with hfile
    · exact hon trivial
    · exact .inl ⟨rfl, h.removed (by simpa using hfile)⟩
  | read =>
    refine h.gotoStopper (hon ?_)
    cases hfile : s.file with
    | none =>
      have hpid : s.pidInFile = none := by rw [State.pidInFile, hfile]; rfl
      rw [hpid]
      exact h.removed hfile
    | some f =>
      have hpid : s.pidInFile = some p := by rw [State.pidInFile, hfile]; exact h.named f hfile
      rw [hpid]
      exact rfl
  | check pid =>
    cases pid with
    | none => exact h.gotoStopper (hon hpc)
    | some q =>
      simp only [State.stopStep]
      have hq : q = p := hpc
      subst hq
      split_ifs with hr hforce
      · exact h.gotoStopper (hon rfl)
      · exact h.gotoStopper (hon rfl)
      · exact h.gotoStopper (hon (hsilent hr))
  | term q =>
    have hq : q = p := hpc
    subst hq
    simp only [State.stopStep]
    split_ifs with hr
    · exact h.gotoStopper (.inl ⟨rfl, hsilent hr.2⟩)
    · have hrecord : Closing owner stopper q (s.record q) := h.world (fun _ _ hq => hq) (.inl rfl) rfl
      exact hrecord.gotoStopper (.inr ⟨_, _, rfl, rfl⟩)
  | loop q left =>
    have hq : q = p := hpc
    subst hq
    cases left with
    | zero => exact h.gotoStopper (hon rfl)
    | succ left =>
      simp only [State.stopStep]
      split_ifs with hr
      · exact h.gotoStopper (hon rfl)
      · exact h.gotoStopper (hon (hsilent hr))
  | kill9 q =>
    have hq : q = p := hpc
    subst hq
    have hrecord : Closing owner stopper q (s.record q) := h.world (fun _ _ hq => hq) (.inl rfl) rfl
    have hnone : ((s.record q).exit q).NoneAlive := State.noneAlive_of fun r i hr => by
      obtain ⟨hne, hr⟩ := State.exit_alive hr
      exact hne (h.only r i hr).1
    have hexit : Closing owner stopper q ((s.record q).exit q) :=
      hrecord.world (fun r i hr => (State.exit_alive hr).2) (.inl rfl) rfl
    refine hexit.gotoStopper (.inr ⟨k, _, rfl, ?_⟩)
    rcases k with _ | ⟨_ | _, timeout⟩ <;> exact hnone
  | recheck q =>
    refine h.gotoStopper ?_
    split_ifs
    · exact .inl ⟨rfl, hpc⟩
    · exact hon hpc
  | remove =>
    have hremove : Closing owner stopper p s.removeFile :=
      h.world (fun _ _ hq => hq) (.inr ⟨rfl, hpc⟩) rfl
    exact hremove.gotoStopper (.inl ⟨rfl, hpc⟩)

theorem Closing.ownerStep (h : Closing owner stopper p s) (hne : owner ≠ stopper) :
    Closing owner stopper p (step s (.step owner)) := by
  rcases h.waits hne with hpc | ⟨hpc, hn⟩ | ⟨hpc, -, -⟩
  · rw [step, hpc, State.scriptStep]
    split_ifs with happ
    · exact h
    · refine h.gotoOwner hne (.inr (.inl ⟨rfl, State.noneAlive_of fun q i hq => ?_⟩))
      obtain ⟨rfl, rfl⟩ := h.only q i hq
      simp [State.alive, happ] at hq
  · rw [step, hpc, State.scriptStep]
    have hremove : Closing owner stopper p s.removeFile :=
      h.world (fun _ _ hq => hq) (.inr ⟨rfl, hn⟩) rfl
    exact hremove.gotoOwner hne (.inr (.inr ⟨rfl, rfl, hn⟩))
  · rw [step, hpc]
    exact h

theorem Closing.step (h : Closing owner stopper p s) {e : Event ι} (he : Allowed owner stopper e) :
    Closing owner stopper p (step s e) := by
  cases e with
  | step i =>
    by_cases hi : i = stopper
    · subst hi
      rcases h.sure with ⟨hpc, -⟩ | ⟨k, pc, hpc, hs⟩
      · rw [PidFile.step, hpc]
        exact h
      · rw [PidFile.step, hpc]
        exact h.stopStep hs
    · obtain rfl : i = owner := he.resolve_right hi
      exact h.ownerStep hi
  | exit q =>
    exact h.world (fun r i hr => (State.exit_alive hr).2) (.inl rfl) rfl
  | reap q =>
    rw [PidFile.step, State.reap]
    split
    · exact h.setProc (by simp)
    · exact h
  | spawn q =>
    rw [PidFile.step]
    split_ifs
    · exact h.setProc (by simp)
    · exact h
  | giveUp i | launch i q | signal i | kill i => cases he

end Closing

structure Serving (owner : ι) (p : Pid) (s : State ι) : Prop where
  runs : s.alive p owner
  only : ∀ q i, s.alive q i → q = p ∧ i = owner
  recorded : s.pidInFile = some p

structure Clean (s : State ι) : Prop where
  noneAlive : s.NoneAlive
  noFile : s.file = none

theorem Serving.closing {owner stopper : ι} {p : Pid} {s : State ι} (h : Serving owner p s)
    {k : Stopper} (hstop : s.pcs stopper = .stopper k .test)
    (hwait : owner ≠ stopper → s.pcs owner = .waiting p) : Closing owner stopper p s where
  only := h.only
  named f hf := by
    have hp := h.recorded
    rwa [State.pidInFile, hf] at hp
  removed hf := by
    have hp := h.recorded
    simp [State.pidInFile, hf] at hp
  waits hne := .inl (hwait hne)
  sure := .inr ⟨k, .test, hstop, trivial⟩

theorem closing_run {owner stopper : ι} {p : Pid} {s : State ι} (h : Closing owner stopper p s)
    {events : List (Event ι)} (hallowed : ∀ e ∈ events, Allowed owner stopper e) :
    Closing owner stopper p (run step s events) :=
  run_invariant (fun _ _ hs he => hs.step he) h (meets_of_forall hallowed)

def Pc.waits : Pc → ℕ
  | .waiting _ => 2
  | .removeLast => 1
  | _ => 0

theorem ownerStep_waits {owner stopper : ι} {p : Pid} {s : State ι} (h : Closing owner stopper p s)
    (hne : owner ≠ stopper) (hn : s.NoneAlive) :
    ((step s (.step owner)).pcs owner).waits ≤ (s.pcs owner).waits - 1 := by
  rcases h.waits hne with hpc | ⟨hpc, -⟩ | ⟨hpc, -, -⟩
  · have happ : ¬ s.procs p = some (.app owner true) := fun happ => by
      have hp := hn p owner
      simp [State.alive, happ] at hp
    rw [step, hpc, State.scriptStep, if_neg happ, goto_self]
    exact le_rfl
  · rw [step, hpc, State.scriptStep, goto_self]
    exact le_rfl
  · rw [step, hpc, State.scriptStep, hpc]
    exact le_rfl

theorem owner_ends {owner stopper : ι} {p : Pid} {s : State ι} (h : Closing owner stopper p s)
    (hne : owner ≠ stopper) (hn : s.NoneAlive) {events : List (Event ι)}
    (hallowed : ∀ e ∈ events, Allowed owner stopper e) (hsteps : 2 ≤ events.count (.step owner)) :
    (run step s events).pcs owner = .done ∧ Clean (run step s events) := by
  have hinv (t : State ι) (e : Event ι) (ht : Closing owner stopper p t ∧ t.NoneAlive)
      (he : Allowed owner stopper e) :
      Closing owner stopper p (step t e) ∧ (step t e).NoneAlive := by
    refine ⟨ht.1.step he, noneAlive_mono ht.2 fun q i hq => step_alive (fun j r hlaunch => ?_) hq⟩
    rw [hlaunch] at he
    exact he
  have hown (t : State ι) (e : Event ι) (ht : Closing owner stopper p t ∧ t.NoneAlive)
      (he : e = .step owner) : ((step t e).pcs owner).waits ≤ (t.pcs owner).waits - 1 := by
    rw [he]
    exact ownerStep_waits ht.1 hne ht.2
  have hmeets : Meets step (fun _ e => Allowed owner stopper e) s events := meets_of_forall hallowed
  obtain ⟨hclosing, hnone⟩ := @run_invariant _ _ step _
    (fun t => Closing owner stopper p t ∧ t.NoneAlive) hinv _ _ ⟨h, hn⟩ hmeets
  have hrank : ((run step s events).pcs owner).waits ≤
      (s.pcs owner).waits - events.count (.step owner) :=
    rank_run (fun t => Closing owner stopper p t ∧ t.NoneAlive) (fun t => (t.pcs owner).waits)
      (fun e : Event ι => e == .step owner) hinv
      (fun t e ht he => by
        by_cases howner : e = .step owner
        · exact (hown t e ht howner).trans (Nat.sub_le _ _)
        · rw [step_pcs_other t fun hscript => howner (eq_step_of_allowed he hscript)])
      (fun t e ht _ he => hown t e ht (beq_iff_eq.1 he)) ⟨h, hn⟩ hmeets
  have hbound : (s.pcs owner).waits ≤ 2 := by
    cases s.pcs owner <;> simp [Pc.waits]
  rcases hclosing.waits hne with hpc | ⟨hpc, -⟩ | ⟨hpc, hfile, -⟩
  · rw [hpc, Pc.waits] at hrank
    omega
  · rw [hpc, Pc.waits] at hrank
    omega
  · exact ⟨hpc, hnone, hfile⟩

theorem closing_ends {owner stopper : ι} {p : Pid} {s : State ι} (h : Closing owner stopper p s)
    {k : Stopper} (hstop : s.pcs stopper = .stopper k .test) {events : List (Event ι)}
    (hallowed : ∀ e ∈ events, Allowed owner stopper e)
    (hsteps : k.timeout + 8 ≤ events.count (.step stopper)) :
    (run step s events).pcs stopper = .done ∧ (run step s events).NoneAlive := by
  have hdone : (run step s events).pcs stopper = .done := by
    refine stopper_ends (hstop ▸ stops_stopper k .test) (fun hs => hallowed _ hs) ?_
    rw [hstop]
    exact hsteps
  rcases (closing_run h hallowed).sure with ⟨-, hn⟩ | ⟨k', pc, hpc, -⟩
  · exact ⟨hdone, hn⟩
  · rw [hdone] at hpc
    cases hpc

/-- Stopping a running application, with the steps of the scripts, the application and
other processes interleaved in any way: when the stopping script has taken its steps it
has ended and no application runs; a PID file that is left, as by a trap whose `kill`
finds nobody, holds the PID of that application. Once another `start.sh` that waits has
taken two more steps, it has ended too and there is no PID file. -/
theorem stop_completes {owner stopper : ι} {p : Pid} {s : State ι} (h : Serving owner p s)
    {k : Stopper} (hstop : s.pcs stopper = .stopper k .test)
    (hwait : owner ≠ stopper → s.pcs owner = .waiting p) {front rest : List (Event ι)}
    (hfront : ∀ e ∈ front, Allowed owner stopper e) (hrest : ∀ e ∈ rest, Allowed owner stopper e)
    (hsteps : k.timeout + 8 ≤ front.count (.step stopper)) :
    (run step s front).pcs stopper = .done ∧ (run step s front).NoneAlive ∧
      (∀ f, (run step s front).file = some f → f.content = some p) ∧
      (owner ≠ stopper → 2 ≤ rest.count (.step owner) →
        (run step s (front ++ rest)).pcs owner = .done ∧ Clean (run step s (front ++ rest))) := by
  have hclosing := h.closing hstop hwait
  obtain ⟨hdone, hnone⟩ := closing_ends hclosing hstop hfront hsteps
  refine ⟨hdone, hnone, (closing_run hclosing hfront).named, fun hne htwo => ?_⟩
  rw [run, List.foldl_append]
  exact owner_ends (closing_run hclosing hfront) hne hnone hrest htwo

theorem clean_fresh (pcs : ι → Pc) : Clean (fresh pcs) := ⟨fun _ _ => rfl, rfl⟩

structure State.Alone (s : State ι) (owner : ι) (p : Pid) : Prop where
  runs : s.procs p = some (.app owner true)
  only : ∀ q i, s.alive q i → q = p ∧ i = owner

/-- A `start.sh` whose application gets a PID, and later a `stop.sh`. -/
structure Cycle (ι : Type*) where
  starter : ι
  stopper : ι
  pid : Pid
  force : Bool
  timeout : ℕ
  opening : List (Event ι)
  running : List (Event ι)
  leaving : List (Event ι)

namespace Cycle
variable (c : Cycle ι)

/-- The steps of `start.sh` up to its write of the PID file. -/
def launching : List (Event ι) :=
  [.step c.starter, .step c.starter, .launch c.starter c.pid, .step c.starter, .step c.starter]

def events : List (Event ι) := c.opening ++ (c.running ++ c.leaving)

structure Completes : Prop where
  distinct : c.starter ≠ c.stopper
  opening : c.opening.filter (fun e => e.script.isSome) = c.launching
  apart : ∀ e ∈ c.opening, e ≠ .exit c.pid ∧ e ≠ .spawn c.pid
  running : ∀ e ∈ c.running, Allowed c.starter c.stopper e
  leaving : ∀ e ∈ c.leaving, Allowed c.starter c.stopper e
  stopped : c.timeout + 8 ≤ c.running.count (.step c.stopper)
  left : 2 ≤ c.leaving.count (.step c.starter)

structure Fresh (s : State ι) : Prop where
  starter : s.pcs c.starter = .begin
  stopper : s.pcs c.stopper = .stopper (.stop c.force c.timeout) .test

end Cycle

theorem pcs_run_other {s : State ι} {events : List (Event ι)} {i : ι}
    (h : ∀ e ∈ events, e.script ≠ some i) : (run step s events).pcs i = s.pcs i := by
  induction events generalizing s with
  | nil => rfl
  | cons e events ih =>
    rw [run_cons, ih fun e' he' => h e' (by simp [he']), step_pcs_other s (h e (by simp))]

/-- How far `start.sh` has come with its launch. -/
def Cycle.Phase (c : Cycle ι) (s : State ι) : ℕ → Prop
  | 0 => s.pcs c.starter = .begin ∧ Clean s ∧ s.procs c.pid = none
  | 1 => s.pcs c.starter = .prepare ∧ Clean s ∧ s.procs c.pid = none
  | 2 => s.pcs c.starter = .ready ∧ Clean s ∧ s.procs c.pid = none
  | 3 => s.pcs c.starter = .launched c.pid ∧ s.file = none ∧ s.Alone c.starter c.pid
  | 4 => ∃ inode, s.pcs c.starter = .opened c.pid inode ∧ s.file = some ⟨inode, none⟩ ∧
      s.Alone c.starter c.pid
  | _ => s.pcs c.starter = .waiting c.pid ∧ s.pidInFile = some c.pid ∧ s.Alone c.starter c.pid

theorem step_world {s : State ι} {e : Event ι} {p : Pid} (hworld : e.script = none)
    (hapart : e ≠ .exit p ∧ e ≠ .spawn p) (hp : ∀ i, s.procs p ≠ some (.app i false)) :
    (step s e).pcs = s.pcs ∧ (step s e).file = s.file ∧ (step s e).procs p = s.procs p := by
  have hset {q : Pid} (hq : p ≠ q) (x : Option (Proc ι)) :
      (s.setProc q x).pcs = s.pcs ∧ (s.setProc q x).file = s.file ∧ (s.setProc q x).procs p = s.procs p :=
    ⟨rfl, rfl, setProc_other hq⟩
  cases e with
  | exit q => exact hset (fun hq => hapart.1 (hq ▸ rfl)) _
  | reap q =>
    rw [step, State.reap]
    split
    · next owner hq => exact hset (fun h => hp owner (h ▸ hq)) _
    · exact ⟨rfl, rfl, rfl⟩
  | spawn q =>
    rw [step]
    split_ifs
    · exact hset (fun hq => hapart.2 (hq ▸ rfl)) _
    · exact ⟨rfl, rfl, rfl⟩
  | step i | giveUp i | launch i q | signal i | kill i => cases hworld

theorem Cycle.Phase.world {c : Cycle ι} {s : State ι} {k : ℕ} (h : c.Phase s k) {e : Event ι}
    (hworld : e.script = none) (hapart : e ≠ .exit c.pid ∧ e ≠ .spawn c.pid) :
    c.Phase (step s e) k := by
  have halive {q : Pid} {i : ι} (hq : (step s e).alive q i) : s.alive q i :=
    step_alive (fun i p he => by simp [he, Event.script] at hworld) hq
  have hsame (hp : ∀ i, s.procs c.pid ≠ some (.app i false)) := step_world hworld hapart hp
  have hclean (hc : Clean s) (hpid : s.procs c.pid = none) :
      (step s e).pcs = s.pcs ∧ Clean (step s e) ∧ (step s e).procs c.pid = none := by
    obtain ⟨hpcs, hfile, hproc⟩ := hsame (by simp [hpid])
    exact ⟨hpcs, ⟨noneAlive_mono hc.noneAlive fun _ _ => halive, hfile.trans hc.noFile⟩, hproc.trans hpid⟩
  have halone (ha : s.Alone c.starter c.pid) :
      (step s e).pcs = s.pcs ∧ (step s e).file = s.file ∧ (step s e).Alone c.starter c.pid := by
    obtain ⟨hpcs, hfile, hproc⟩ := hsame (by simp [ha.runs])
    exact ⟨hpcs, hfile, hproc.trans ha.runs, fun q i hq => ha.only q i (halive hq)⟩
  match k, h with
  | 0, ⟨hpc, hc, hpid⟩ | 1, ⟨hpc, hc, hpid⟩ | 2, ⟨hpc, hc, hpid⟩ =>
    obtain ⟨hpcs, hc', hpid'⟩ := hclean hc hpid
    exact ⟨hpcs ▸ hpc, hc', hpid'⟩
  | 3, ⟨hpc, hfile, ha⟩ =>
    obtain ⟨hpcs, hfile', ha'⟩ := halone ha
    exact ⟨hpcs ▸ hpc, hfile'.trans hfile, ha'⟩
  | 4, ⟨inode, hpc, hfile, ha⟩ =>
    obtain ⟨hpcs, hfile', ha'⟩ := halone ha
    exact ⟨inode, hpcs ▸ hpc, hfile'.trans hfile, ha'⟩
  | k+5, ⟨hpc, hpid, ha⟩ =>
    obtain ⟨hpcs, hfile', ha'⟩ := halone ha
    exact ⟨hpcs ▸ hpc, by rwa [State.pidInFile, hfile'], ha'⟩

theorem Cycle.Phase.launch {c : Cycle ι} {s : State ι} {k : ℕ} (h : c.Phase s k) {e : Event ι}
    (he : c.launching[k]? = some e) : c.Phase (step s e) (k + 1) := by
  match k, h, he with
  | 0, ⟨hpc, hc, hpid⟩, rfl =>
    rw [step, hpc, State.scriptStep, hc.noFile]
    exact ⟨goto_self, ⟨hc.noneAlive, hc.noFile⟩, hpid⟩
  | 1, ⟨hpc, hc, hpid⟩, rfl =>
    rw [step, hpc, State.scriptStep]
    exact ⟨goto_self, ⟨hc.noneAlive, hc.noFile⟩, hpid⟩
  | 2, ⟨hpc, hc, hpid⟩, rfl =>
    rw [step, if_pos ⟨hpc, hpid⟩]
    refine ⟨goto_self, hc.noFile, setProc_self, fun q i hq => ?_⟩
    by_cases hqp : q = c.pid
    · subst hqp
      have happ : (s.setProc c.pid (some (.app c.starter true))).alive c.pid i := hq
      simp only [State.alive, setProc_self, decide_eq_true_eq, Option.some.injEq, Proc.app.injEq,
        and_true] at happ
      exact ⟨rfl, happ.symm⟩
    · have hother : (s.setProc c.pid (some (.app c.starter true))).alive q i := hq
      rw [setProc_alive_other hqp, hc.noneAlive q i] at hother
      cases hother
  | 3, ⟨hpc, hfile, ha⟩, rfl =>
    rw [step, hpc, State.scriptStep, State.openFile, hfile]
    exact ⟨s.nextInode, goto_self, rfl, ha.runs, ha.only⟩
  | 4, ⟨inode, hpc, hfile, ha⟩, rfl =>
    rw [step, hpc, State.scriptStep, State.writePid, hfile]
    refine ⟨goto_self, ?_, ha.runs, ha.only⟩
    simp [State.pidInFile, State.goto]

theorem Cycle.Phase.run {c : Cycle ι} {events : List (Event ι)}
    (hapart : ∀ e ∈ events, e ≠ .exit c.pid ∧ e ≠ .spawn c.pid) {s : State ι} {k : ℕ} (h : c.Phase s k)
    (hevents : events.filter (fun e => e.script.isSome) = c.launching.drop k) :
    ∃ k', c.launching.length ≤ k' ∧ c.Phase (run step s events) k' := by
  induction events generalizing s k with
  | nil =>
    have hk := List.drop_eq_nil_iff.1 hevents.symm
    exact ⟨k, hk, h⟩
  | cons e events ih =>
    have hlater := fun e' he' => hapart e' (List.mem_cons_of_mem e he')
    rw [run_cons]
    by_cases hscript : e.script.isSome
    · rw [List.filter_cons, if_pos hscript] at hevents
      have hk : k < c.launching.length := by
        by_contra hk
        rw [List.drop_of_length_le (by omega)] at hevents
        cases hevents
      rw [List.drop_eq_getElem_cons hk] at hevents
      obtain ⟨hhead, htail⟩ := List.cons.inj hevents
      exact ih hlater (h.launch (by rw [List.getElem?_eq_getElem hk, hhead])) htail
    · rw [List.filter_cons, if_neg hscript] at hevents
      exact ih hlater (h.world (by simpa using hscript) (hapart e (by simp))) hevents

theorem Clean.opening {s : State ι} (h : Clean s) {c : Cycle ι} (hc : c.Fresh s) (hcompletes : c.Completes)
    (hpid : s.procs c.pid = none) :
    Serving c.starter c.pid (run step s c.opening) ∧
      (run step s c.opening).pcs c.starter = .waiting c.pid := by
  have hbegin : c.Phase s 0 := ⟨hc.starter, h, hpid⟩
  obtain ⟨k, hk, hphase⟩ := hbegin.run hcompletes.apart hcompletes.opening
  obtain ⟨k, rfl⟩ : ∃ j, k = j + 5 := ⟨k - 5, by simp [Cycle.launching] at hk; omega⟩
  obtain ⟨hpc, hfile, halone⟩ := hphase
  exact ⟨⟨by simp [State.alive, halone.runs], halone.only, hfile⟩, hpc⟩

theorem Cycle.Completes.starts {c : Cycle ι} (h : c.Completes) (e : Event ι) (he : e ∈ c.opening)
    (hscript : e.script.isSome) : e.script = some c.starter := by
  have hmem : e ∈ c.launching := h.opening ▸ List.mem_filter.2 ⟨he, hscript⟩
  simp only [Cycle.launching, List.mem_cons, List.not_mem_nil, or_false] at hmem
  rcases hmem with rfl | rfl | rfl | rfl | rfl <;> rfl

theorem Cycle.Completes.other {c : Cycle ι} (h : c.Completes) {i : ι} (hi : i ≠ c.starter ∧ i ≠ c.stopper)
    (s : State ι) : (run step s c.events).pcs i = s.pcs i := by
  apply pcs_run_other
  intro e he hscript
  simp only [Cycle.events, List.mem_append] at he
  have hallowed (ha : Allowed c.starter c.stopper e) : False := by
    obtain rfl := eq_step_of_allowed ha hscript
    exact ha.elim hi.1 hi.2
  rcases he with he | he | he
  · exact hi.1 (Option.some.inj (hscript.symm.trans (h.starts e he (by simp [hscript]))))
  · exact hallowed (h.running e he)
  · exact hallowed (h.leaving e he)

theorem Clean.cycle {s : State ι} (h : Clean s) {c : Cycle ι} (hc : c.Fresh s) (hcompletes : c.Completes)
    (hpid : s.procs c.pid = none) :
    Clean (run step s c.events) ∧ (run step s c.events).pcs c.starter = .done ∧
      (run step s c.events).pcs c.stopper = .done := by
  obtain ⟨hserving, hwait⟩ := h.opening hc hcompletes hpid
  have hstop : (run step s c.opening).pcs c.stopper = .stopper (.stop c.force c.timeout) .test := by
    rw [pcs_run_other fun e he hscript => ?_, hc.stopper]
    exact hcompletes.distinct
      (Option.some.inj ((hcompletes.starts e he (by simp [hscript])).symm.trans hscript))
  have hclosing := hserving.closing hstop fun _ => hwait
  obtain ⟨-, hnone⟩ := closing_ends hclosing hstop hcompletes.running hcompletes.stopped
  obtain ⟨hstarter, hclean⟩ := owner_ends (closing_run hclosing hcompletes.running)
    hcompletes.distinct hnone hcompletes.leaving hcompletes.left
  have hboth : ∀ e ∈ c.running ++ c.leaving, Allowed c.starter c.stopper e := fun e he =>
    (List.mem_append.1 he).elim (hcompletes.running e) (hcompletes.leaving e)
  have hsteps : c.timeout + 8 ≤ (c.running ++ c.leaving).count (.step c.stopper) := by
    rw [List.count_append]
    exact hcompletes.stopped.trans (Nat.le_add_right _ _)
  obtain ⟨hstopper, -⟩ := closing_ends hclosing hstop hboth hsteps
  simp only [run, Cycle.events, List.foldl_append] at *
  exact ⟨hclean, hstarter, hstopper⟩

def sampleCycle (n : ℕ) : Cycle ℕ where
  starter := 2 * n
  stopper := 2 * n + 1
  pid := 7
  force := false
  timeout := 10
  opening := [.step (2 * n), .spawn 9, .step (2 * n), .launch (2 * n) 7, .step (2 * n), .exit 9, .step (2 * n)]
  running := List.replicate 5 (.step (2 * n + 1)) ++ [.exit 7, .spawn 8, .reap 7] ++
    List.replicate 13 (.step (2 * n + 1))
  leaving := List.replicate 2 (.step (2 * n))

def alternating : State ℕ := fresh fun i => if i % 2 = 0 then .begin else .stopper (.stop false 10) .test

theorem sampleCycle_completes (n : ℕ) : (sampleCycle n).Completes where
  distinct := by simp [sampleCycle]
  opening := rfl
  apart := by simp [sampleCycle]
  running e he := by
    simp only [sampleCycle, List.mem_append, List.mem_replicate, List.mem_cons, List.not_mem_nil,
      or_false] at he
    rcases he with (⟨-, rfl⟩ | rfl | rfl | rfl) | ⟨-, rfl⟩
    · exact .inr rfl
    · trivial
    · trivial
    · trivial
    · exact .inr rfl
  leaving e he := by
    obtain ⟨-, rfl⟩ := List.mem_replicate.1 he
    exact .inl rfl
  stopped := by simp [sampleCycle]
  left := by simp [sampleCycle]

theorem sampleCycle_fresh (n : ℕ) : (sampleCycle n).Fresh alternating where
  starter := by simp [alternating, fresh, sampleCycle]
  stopper := by simp [alternating, fresh, sampleCycle]

theorem stop_completes_sample :
    (run step (run step alternating (sampleCycle 0).opening) (sampleCycle 0).running).pcs 1 = .done :=
  (stop_completes (k := .stop false 10)
    ((clean_fresh _).opening (sampleCycle_fresh 0) (sampleCycle_completes 0) rfl).1 rfl (fun _ => rfl)
    (sampleCycle_completes 0).running (sampleCycle_completes 0).leaving
    (sampleCycle_completes 0).stopped).1

/-- The system gives each application a PID that is free at its launch. -/
def PidsFree : State ι → List (Cycle ι) → Prop
  | _, [] => True
  | s, c :: cs => s.procs c.pid = none ∧ PidsFree (run step s c.events) cs

/-- Any number of cycles of `start.sh` and `stop.sh`, each with its own interleaving:
in each one the application runs alone with its PID in the file, and each one leaves
no application and no PID file. -/
theorem cycles_clean {s : State ι} (h : Clean s) {cs : List (Cycle ι)} (hfresh : ∀ c ∈ cs, c.Fresh s)
    (hdistinct : (cs.flatMap fun c => [c.starter, c.stopper]).Nodup)
    (hcompletes : ∀ c ∈ cs, c.Completes) (hpids : PidsFree s cs) {front rest : List (Cycle ι)}
    {c : Cycle ι} (hcs : cs = front ++ c :: rest) :
    Serving c.starter c.pid (run step s (front.flatMap Cycle.events ++ c.opening)) ∧
      Clean (run step s (front.flatMap Cycle.events ++ c.events)) := by
  induction front generalizing s cs with
  | nil =>
    subst hcs
    have hc := hfresh c (by simp)
    have hdone := hcompletes c (by simp)
    exact ⟨(h.opening hc hdone hpids.1).1, (h.cycle hc (hcompletes c (by simp)) hpids.1).1⟩
  | cons d front ih =>
    subst hcs
    have hd := hcompletes d (by simp)
    obtain ⟨hclean, -⟩ := h.cycle (hfresh d (by simp)) hd hpids.1
    rw [List.cons_append, List.flatMap_cons, List.nodup_append] at hdistinct
    obtain ⟨-, hlater, hapart⟩ := hdistinct
    have hother {i : ι} (hi : i ∈ (front ++ c :: rest).flatMap fun c => [c.starter, c.stopper]) :
        (run step s d.events).pcs i = s.pcs i :=
      hd.other ⟨(hapart d.starter (by simp) i hi).symm, (hapart d.stopper (by simp) i hi).symm⟩ s
    have hlaterFresh : ∀ e ∈ front ++ c :: rest, e.Fresh (run step s d.events) := fun e he => by
      have hscripts {i : ι} (hi : i ∈ [e.starter, e.stopper]) :
          i ∈ (front ++ c :: rest).flatMap fun c => [c.starter, c.stopper] :=
        List.mem_flatMap.2 ⟨e, he, hi⟩
      have hfreshe := hfresh e (List.mem_cons_of_mem _ he)
      exact ⟨(hother (hscripts (by simp))).trans hfreshe.starter,
        (hother (hscripts (by simp))).trans hfreshe.stopper⟩
    have hrun := ih hclean hlaterFresh hlater (fun e he => hcompletes e (List.mem_cons_of_mem _ he))
      hpids.2 rfl
    simpa only [run, List.flatMap_cons, List.append_assoc, List.foldl_append] using hrun

theorem cycles_clean_sample :
    Clean (run step alternating ((sampleCycle 0).events ++ (sampleCycle 1).events)) := by
  have hcs : [sampleCycle 0, sampleCycle 1] = [sampleCycle 0] ++ sampleCycle 1 :: [] := rfl
  have hfresh : ∀ c ∈ [sampleCycle 0, sampleCycle 1], c.Fresh alternating := by
    simp [sampleCycle_fresh]
  have hcompletes : ∀ c ∈ [sampleCycle 0, sampleCycle 1], c.Completes := by
    simp [sampleCycle_completes]
  exact (cycles_clean (clean_fresh _) hfresh (by decide) hcompletes ⟨rfl, rfl, trivial⟩ hcs).2

end PidFile
end StudentGrades
