import Mathlib.Data.Fintype.Basic
import StudentGrades.GuardedRuns
import StudentGrades.PidFile

/-!
# Runs of the scripts on one PID file

Where the accesses of the scripts do not overlap, a run keeps at most one
application, its PID in the file, and every signal on an application: `start.sh`
excludes all other scripts from its test to its write, and the scripts that only
remove the file may overlap among themselves. What a script has read about the
file is then still what it says when the script acts on it.
-/

namespace StudentGrades
namespace PidFile
open GuardedRuns

def Pc.inStart : Pc → Bool
  | .readOld | .checkOld _ | .removeStale | .prepare | .ready | .launched _ | .opened _ _ => true
  | _ => false

def Pc.unwritten : Pc → Bool
  | .launched _ | .opened _ _ => true
  | _ => false

def Pc.testsToStop : Pc → Bool
  | .stopper _ .test => true
  | _ => false

def Pc.stopping : Pc → Bool
  | .stopper _ pc => pc ≠ .test
  | _ => false

def Pc.holds : Pc → Pid → Bool
  | .launched q, p => q = p
  | .opened q _, p => q = p
  | .stopper _ (.check q), p => q = some p
  | .stopper _ (.term q), p => q = p
  | .stopper _ (.loop q _), p => q = p
  | .stopper _ (.kill9 q), p => q = p
  | _, _ => false

variable {ι : Type*} [DecidableEq ι]

namespace State
variable (s : State ι)

def alive (p : Pid) (i : ι) : Bool := s.procs p = some (.app i true)

def ending (i : ι) : Pc → Bool
  | .waiting p => !s.alive p i
  | .removeLast => true
  | _ => false

def busyAt (i : ι) (pc : Pc) : Bool := pc.inStart || pc.stopping || s.ending i pc

def busy (i : ι) : Bool := s.busyAt i (s.pcs i)

end State

/-- The accesses of the scripts do not overlap and no PID in use is given away. -/
def Careful (s : State ι) : Event ι → Prop
  | .step i =>
    (s.pcs i = .begin → ∀ j, j ≠ i → s.busy j = false) ∧
      ((s.pcs i).testsToStop → s.file.isSome → ∀ j, j ≠ i → (s.pcs j).inStart = false)
  | .exit p => ∀ i, s.alive p i → s.pcs i = .waiting p → ∀ j, j ≠ i → (s.pcs j).inStart = false
  | .spawn p => s.pidInFile ≠ some p ∧ ∀ i, (s.pcs i).holds p = false
  | .signal i => (s.pcs i).unwritten = false
  | .kill i => (s.pcs i).unwritten = false
  | _ => True

/-- At most one application is alive, its PID is in the file unless its script is
about to write it, and only applications have been signalled. -/
structure Safe (s : State ι) : Prop where
  unique : ∀ p q i j, s.alive p i → s.alive q j → p = q
  recorded : ∀ p i, s.alive p i → (s.pcs i).unwritten = false → s.pidInFile = some p
  onlyApps : ∀ x ∈ s.signalled, x ≠ .other

def State.NoneAlive (s : State ι) : Prop := ∀ p i, s.alive p i = false

theorem State.noneAlive_of {s : State ι} (h : ∀ p i, ¬ s.alive p i) : s.NoneAlive :=
  fun p i => eq_false_of_ne_true (h p i)

def State.Knows (s : State ι) (i : ι) : Pc → Prop
  | .checkOld old => ∀ p j, s.alive p j → old = some p
  | .removeStale => s.NoneAlive
  | .prepare => s.NoneAlive
  | .ready => s.NoneAlive
  | .launched _ => ∀ p j, s.alive p j → j = i
  | .opened _ inode => (∀ p j, s.alive p j → j = i) ∧ ∃ f, s.file = some f ∧ f.inode = inode
  | .waiting p => s.alive p i = false → s.NoneAlive
  | .removeLast => s.NoneAlive
  | .stopper _ (.check pid) => ∀ p j, s.alive p j → pid = some p
  | .stopper _ (.term q) => ∀ p j, s.alive p j → p = q
  | .stopper _ (.loop q _) => ∀ p j, s.alive p j → p = q
  | .stopper _ (.kill9 q) => ∀ p j, s.alive p j → p = q
  | .stopper _ (.recheck _) => s.NoneAlive
  | .stopper _ .remove => s.NoneAlive
  | _ => True

def Pc.Owns : Pc → Pid → Prop
  | .launched q, p => q = p
  | .opened q _, p => q = p
  | .waiting q, p => q = p
  | .removeLast, _ => True
  | .stopper .cleanup _, _ => True
  | .done, _ => True
  | _, _ => False

structure Inv (s : State ι) : Prop extends Safe s where
  exclusive : ∀ i j, j ≠ i → (s.pcs i).inStart → s.busy j = false
  owned : ∀ p i r, s.procs p = some (.app i r) → (s.pcs i).Owns p
  knows : ∀ i, s.Knows i (s.pcs i)
  fileKin : ∀ p, s.pidInFile = some p → s.procs p ≠ some .other
  heldKin : ∀ i p, (s.pcs i).holds p → s.procs p ≠ some .other

section Frame
variable {s : State ι} {i : ι} {pc : Pc}

@[simp] theorem goto_procs : (s.goto i pc).procs = s.procs := rfl
@[simp] theorem goto_self : (s.goto i pc).pcs i = pc := by simp [State.goto]

theorem goto_other {j : ι} (h : j ≠ i) : (s.goto i pc).pcs j = s.pcs j := by simp [State.goto, h]

theorem goto_busyAt (j : ι) (pc' : Pc) : (s.goto i pc).busyAt j pc' = s.busyAt j pc' := rfl

theorem goto_busy_other {j : ι} (h : j ≠ i) : (s.goto i pc).busy j = s.busy j := by
  rw [State.busy, State.busy, goto_other h]
  rfl

theorem inStart_of_not_busy {j : ι} (h : s.busy j = false) : (s.pcs j).inStart = false := by
  simp only [State.busy, State.busyAt, Bool.or_eq_false_iff] at h
  exact h.1.1

theorem unwritten_of_not_inStart {pc : Pc} (h : pc.inStart = false) : pc.unwritten = false := by
  cases pc <;> first | rfl | exact h

end Frame

section Processes
variable {s : State ι} {p q : Pid} {x : Option (Proc ι)}

theorem setProc_alive_other {i : ι} (h : q ≠ p) : (s.setProc p x).alive q i = s.alive q i := by
  simp [State.alive, State.setProc, h]

omit [DecidableEq ι]

@[simp] theorem setProc_pcs : (s.setProc p x).pcs = s.pcs := rfl
@[simp] theorem setProc_self : (s.setProc p x).procs p = x := by simp [State.setProc]

theorem setProc_other (h : q ≠ p) : (s.setProc p x).procs q = s.procs q := by
  simp [State.setProc, h]

theorem setProc_kin (hq : s.procs q ≠ some .other) (hx : q = p → x ≠ some .other) :
    (s.setProc p x).procs q ≠ some .other := by
  by_cases hqp : q = p
  · rw [hqp, setProc_self]
    exact hx hqp
  · rw [setProc_other hqp]
    exact hq

end Processes

theorem State.Knows.mono {s t : State ι} {i : ι} {pc : Pc} (h : s.Knows i pc)
    (halive : ∀ p j, t.alive p j → s.alive p j)
    (hwait : ∀ p, pc = .waiting p → t.alive p i = false → t.NoneAlive)
    (hopened : ∀ p inode, pc = .opened p inode → ∃ f, t.file = some f ∧ f.inode = inode) :
    t.Knows i pc := by
  have hnone (hs : s.NoneAlive) : t.NoneAlive := by
    apply State.noneAlive_of
    intro p j hp
    have hsp := halive p j hp
    simp [hs p j] at hsp
  cases pc with
  | begin | readOld | done => trivial
  | checkOld old => exact fun p j hp => h p j (halive p j hp)
  | removeStale | prepare | ready | removeLast => exact hnone h
  | launched q => exact fun p j hp => h p j (halive p j hp)
  | opened q inode => exact ⟨fun p j hp => h.1 p j (halive p j hp), hopened q inode rfl⟩
  | waiting q => exact hwait q rfl
  | stopper k pc =>
    cases pc with
    | test | read => trivial
    | check pid => exact fun p j hp => h p j (halive p j hp)
    | term q => exact fun p j hp => h p j (halive p j hp)
    | loop q left => exact fun p j hp => h p j (halive p j hp)
    | kill9 q => exact fun p j hp => h p j (halive p j hp)
    | recheck q => exact hnone h
    | remove => exact hnone h

theorem State.Knows.congr {s t : State ι} {i : ι} {pc : Pc} (h : s.Knows i pc)
    (hprocs : t.procs = s.procs) (hfile : t.file = s.file) : t.Knows i pc := by
  have halive : t.alive = s.alive := by
    unfold State.alive
    rw [hprocs]
  apply h.mono
  · rw [halive]
    exact fun p j hp => hp
  · rintro p rfl hp
    rw [halive] at hp
    unfold State.NoneAlive
    rw [halive]
    exact h hp
  · rintro p inode rfl
    rw [hfile]
    exact h.2

theorem Inv.goto {s : State ι} (h : Inv s) {i : ι} {pc : Pc}
    (hstart : pc.inStart → ∀ j, j ≠ i → s.busy j = false)
    (hbusy : s.busyAt i pc → ∀ j, j ≠ i → (s.pcs j).inStart = false)
    (howns : ∀ p, (s.pcs i).Owns p → pc.Owns p)
    (hwritten : pc.unwritten = false → ∀ p, s.alive p i → s.pidInFile = some p)
    (hknows : s.Knows i pc) (hholds : ∀ p, pc.holds p → s.procs p ≠ some .other) :
    Inv (s.goto i pc) where
  unique := h.unique
  recorded p j hp hj := by
    by_cases hji : j = i
    · subst hji
      rw [goto_self] at hj
      exact hwritten hj p hp
    · rw [goto_other hji] at hj
      exact h.recorded p j hp hj
  onlyApps := h.onlyApps
  exclusive j k hkj hj := by
    by_cases hji : j = i
    · subst hji
      rw [goto_self] at hj
      rw [goto_busy_other hkj]
      exact hstart hj k hkj
    · rw [goto_other hji] at hj
      by_cases hki : k = i
      · subst hki
        by_contra hb
        have hbusyAt : s.busyAt k pc := by
          simpa [State.busy, goto_busyAt] using hb
        simp [hbusy hbusyAt j hji] at hj
      · rw [goto_busy_other hki]
        exact h.exclusive j k hkj hj
  owned p j r hp := by
    by_cases hji : j = i
    · subst hji
      rw [goto_self]
      exact howns p (h.owned p j r hp)
    · rw [goto_other hji]
      exact h.owned p j r hp
  knows j := by
    by_cases hji : j = i
    · subst hji
      rw [goto_self]
      exact hknows.congr rfl rfl
    · rw [goto_other hji]
      exact (h.knows j).congr rfl rfl
  fileKin := h.fileKin
  heldKin j p hj := by
    by_cases hji : j = i
    · subst hji
      rw [goto_self] at hj
      exact hholds p hj
    · rw [goto_other hji] at hj
      exact h.heldKin j p hj

section Busy
variable {s : State ι} (h : Inv s) {i : ι}
include h

theorem Inv.alone (hi : s.busy i) : ∀ j, j ≠ i → (s.pcs j).inStart = false := by
  intro j hj
  by_contra hstart
  have hidle := h.exclusive j i hj.symm (by simpa using hstart)
  simp [hidle] at hi

theorem Inv.opened_eq (hi : s.busy i) {j : ι} {p : Pid} {inode : ℕ}
    (hj : s.pcs j = .opened p inode) : j = i := by
  by_contra hji
  have hstart := h.alone hi j hji
  rw [hj] at hstart
  cases hstart

theorem Inv.recorded_alone (hi : (s.pcs i).unwritten = false)
    (halone : ∀ j, j ≠ i → (s.pcs j).inStart = false) :
    ∀ p j, s.alive p j → s.pidInFile = some p := by
  intro p j hp
  apply h.recorded p j hp
  by_cases hji : j = i
  · rw [hji]
    exact hi
  · exact unwritten_of_not_inStart (halone j hji)

omit h in
theorem State.NoneAlive.knows_of_idle (hnone : s.NoneAlive) (hi : s.busy i = false)
    (t : State ι) : t.Knows i (s.pcs i) := by
  simp only [State.busy, State.busyAt, Bool.or_eq_false_iff] at hi
  obtain ⟨⟨hstart, hstop⟩, hend⟩ := hi
  cases hpc : s.pcs i with
  | begin | done => trivial
  | waiting p => simp [hpc, State.ending, hnone p i] at hend
  | removeLast => simp [hpc, State.ending] at hend
  | stopper k pc =>
    cases pc with
    | test => trivial
    | _ => simp [hpc, Pc.stopping] at hstop
  | _ => simp [hpc, Pc.inStart] at hstart

end Busy

theorem Inv.setFile {s : State ι} (h : Inv s) {file : Option File} {nextInode : ℕ}
    (hunwritten : ∀ p i, s.alive p i → (s.pcs i).unwritten)
    (hkin : ∀ p, file.bind File.content = some p → s.procs p ≠ some .other)
    (hopened : ∀ i p inode, s.pcs i = .opened p inode → ∃ f, file = some f ∧ f.inode = inode) :
    Inv { s with file := file, nextInode := nextInode } where
  unique := h.unique
  recorded p i hp hi := by
    have halive := hunwritten p i hp
    rw [hi] at halive
    cases halive
  onlyApps := h.onlyApps
  exclusive := h.exclusive
  owned := h.owned
  knows i := by
    apply (h.knows i).mono
    · exact fun p j hp => hp
    · intro p hpc hp
      have hi := h.knows i
      rw [hpc] at hi
      exact hi hp
    · exact hopened i
  fileKin := hkin
  heldKin := h.heldKin

theorem Inv.removeFile {s : State ι} (h : Inv s) {i : ι} (hi : s.busy i) (hnone : s.NoneAlive)
    (hself : ∀ p inode, s.pcs i ≠ .opened p inode) : Inv s.removeFile := by
  apply h.setFile
  · intro p j hp
    simp [hnone p j] at hp
  · intro p hp
    cases hp
  · intro j p inode hj
    rw [h.opened_eq hi hj] at hj
    exact absurd hj (hself p inode)

theorem Inv.record {s : State ι} (h : Inv s) {p : Pid} (hp : s.procs p ≠ some .other) :
    Inv (s.record p) where
  unique := h.unique
  recorded := h.recorded
  onlyApps x hx := by
    rcases List.mem_append.1 hx with hx | hx
    · rintro rfl
      exact hp (by simpa using hx)
    · exact h.onlyApps x hx
  exclusive := h.exclusive
  owned := h.owned
  knows i := (h.knows i).congr rfl rfl
  fileKin := h.fileKin
  heldKin := h.heldKin

theorem State.newly_busy {s t : State ι} {i : ι} (hpcs : t.pcs = s.pcs) (hs : s.busy i = false)
    (ht : t.busy i) : ∃ p, s.pcs i = .waiting p ∧ s.alive p i ∧ t.alive p i = false := by
  simp only [State.busy, State.busyAt, Bool.or_eq_false_iff] at hs
  simp only [State.busy, State.busyAt, hpcs, hs, Bool.false_or] at ht
  have hend := hs.2
  cases hpc : s.pcs i with
  | waiting p =>
    rw [hpc] at hend ht
    refine ⟨p, rfl, ?_, ?_⟩
    · simpa [State.ending] using hend
    · simpa [State.ending] using ht
  | removeLast => simp [hpc, State.ending] at hend
  | _ => simp [hpc, State.ending] at ht

theorem Inv.setProc {s : State ι} (h : Inv s) {p : Pid} {x : Option (Proc ι)}
    (hdead : ∀ i, x ≠ some (.app i true))
    (howner : ∀ i r, x = some (.app i r) → ∃ r', s.procs p = some (.app i r'))
    (hkin : x = some .other → s.pidInFile ≠ some p ∧ ∀ i, (s.pcs i).holds p = false)
    (hexit : ∀ i, s.alive p i → s.pcs i = .waiting p → ∀ j, j ≠ i → (s.pcs j).inStart = false) :
    Inv (s.setProc p x) := by
  have hfewer (q : Pid) (j : ι) (hq : (s.setProc p x).alive q j) : q ≠ p ∧ s.alive q j := by
    by_cases hqp : q = p
    · subst hqp
      exact absurd (by simpa [State.alive] using hq) (hdead j)
    · rw [setProc_alive_other hqp] at hq
      exact ⟨hqp, hq⟩
  have hended (q : Pid) (j : ι) (hq : s.alive q j) (hend : (s.setProc p x).alive q j = false) :
      q = p := by
    by_contra hqp
    rw [setProc_alive_other hqp, hq] at hend
    cases hend
  refine { unique := ?unique, recorded := ?recorded, onlyApps := h.onlyApps,
           exclusive := ?exclusive, owned := ?owned, knows := ?knows,
           fileKin := ?fileKin, heldKin := ?heldKin }
  case unique =>
    intro q r i j hq hr
    exact h.unique q r i j (hfewer q i hq).2 (hfewer r j hr).2
  case recorded =>
    intro q i hq
    exact h.recorded q i (hfewer q i hq).2
  case exclusive =>
    intro i j hji hi
    have hj := h.exclusive i j hji hi
    by_contra hbusy
    obtain ⟨q, hpc, hq, hend⟩ :=
      State.newly_busy (s := s) (t := s.setProc p x) rfl hj (eq_true_of_ne_false hbusy)
    have hqp := hended q j hq hend
    subst hqp
    have hstart := hexit j hq hpc i hji.symm
    simp [hstart] at hi
  case owned =>
    intro q i r hq
    by_cases hqp : q = p
    · subst hqp
      rw [setProc_self] at hq
      obtain ⟨r', hr'⟩ := howner i r hq
      exact h.owned q i r' hr'
    · rw [setProc_other hqp] at hq
      exact h.owned q i r hq
  case knows =>
    intro i
    apply (h.knows i).mono
    · exact fun q j hq => (hfewer q j hq).2
    · intro q hpc hq
      have hi := h.knows i
      rw [hpc] at hi
      apply State.noneAlive_of
      intro r j hr
      obtain ⟨hrp, hr⟩ := hfewer r j hr
      by_cases hqi : s.alive q i
      · have hqp := hended q i hqi hq
        exact hrp (hqp ▸ h.unique r q j i hr hqi)
      · simp [hi (eq_false_of_ne_true hqi) r j] at hr
    · intro q inode hpc
      have hi := h.knows i
      rw [hpc] at hi
      exact hi.2
  case fileKin =>
    intro q hq
    apply setProc_kin (h.fileKin q hq)
    intro hqp hx
    exact (hkin hx).1 (hqp ▸ hq)
  case heldKin =>
    intro i q hq
    apply setProc_kin (h.heldKin i q hq)
    rintro rfl hx
    have hheld := (hkin hx).2 i
    simp [hheld] at hq

omit [DecidableEq ι] in
theorem State.ended_cases (x : Option (Proc ι)) :
    State.ended x = none ∨ ∃ owner r, x = some (.app owner r) ∧
      State.ended x = some (.app owner false) := by
  cases x with
  | none => exact .inl rfl
  | some y =>
    cases y with
    | other => exact .inl rfl
    | app owner r => exact .inr ⟨owner, r, rfl, rfl⟩

theorem State.exit_alive {s : State ι} {p q : Pid} {j : ι} (hq : (s.exit p).alive q j) :
    q ≠ p ∧ s.alive q j := by
  by_cases hqp : q = p
  · subst hqp
    simp only [State.alive, State.exit, setProc_self] at hq
    rcases State.ended_cases (s.procs q) with hend | ⟨owner, r, -, hend⟩ <;> simp [hend] at hq
  · rw [State.exit, setProc_alive_other hqp] at hq
    exact ⟨hqp, hq⟩

theorem Inv.exit {s : State ι} (h : Inv s) {p : Pid}
    (hexit : ∀ i, s.alive p i → s.pcs i = .waiting p → ∀ j, j ≠ i → (s.pcs j).inStart = false) :
    Inv (s.exit p) := by
  unfold State.exit
  rcases State.ended_cases (s.procs p) with hend | ⟨owner, r, hp, hend⟩ <;> rw [hend]
  · exact h.setProc (by simp) (by simp) (by simp) hexit
  · apply h.setProc
    · simp
    · intro i r' hi
      cases hi
      exact ⟨r, hp⟩
    · simp
    · exact hexit

theorem Inv.reap {s : State ι} (h : Inv s) (p : Pid) : Inv (s.reap p) := by
  unfold State.reap
  split
  · rename_i owner hp
    apply h.setProc
    · simp
    · simp
    · simp
    · intro i hi
      simp [State.alive, hp] at hi
  · exact h

theorem Inv.spawn {s : State ι} (h : Inv s) {p : Pid} (hfree : s.procs p = none)
    (hfile : s.pidInFile ≠ some p) (hheld : ∀ i, (s.pcs i).holds p = false) :
    Inv (s.setProc p (some .other)) := by
  apply h.setProc
  · simp
  · simp
  · exact fun _ => ⟨hfile, hheld⟩
  · intro i hi
    simp [State.alive, hfree] at hi

theorem Inv.launch {s : State ι} (h : Inv s) {i : ι} {p : Pid} (hpc : s.pcs i = .ready) :
    Inv ((s.setProc p (some (.app i true))).goto i (.launched p)) := by
  have hnone : s.NoneAlive := by
    have hi := h.knows i
    rw [hpc] at hi
    exact hi
  have hidle : ∀ j, j ≠ i → s.busy j = false :=
    fun j hj => h.exclusive i j hj (by simp [hpc, Pc.inStart])
  have halive (q : Pid) (j : ι) (hq : (s.setProc p (some (.app i true))).alive q j) :
      q = p ∧ j = i := by
    by_cases hqp : q = p
    · subst hqp
      exact ⟨rfl, by simpa [State.alive, eq_comm] using hq⟩
    · rw [setProc_alive_other hqp, hnone q j] at hq
      cases hq
  refine { unique := ?unique, recorded := ?recorded, onlyApps := h.onlyApps,
           exclusive := ?exclusive, owned := ?owned, knows := ?knows,
           fileKin := ?fileKin, heldKin := ?heldKin }
  case unique =>
    intro q r j k hq hr
    rw [(halive q j hq).1, (halive r k hr).1]
  case recorded =>
    intro q j hq hj
    rw [(halive q j hq).2, goto_self] at hj
    cases hj
  case exclusive =>
    intro j k hkj hj
    by_cases hji : j = i
    · subst hji
      rw [goto_busy_other hkj]
      by_contra hbusy
      obtain ⟨q, -, hq, -⟩ := State.newly_busy (s := s) (t := s.setProc p (some (.app j true))) rfl
        (hidle k hkj) (eq_true_of_ne_false hbusy)
      simp [hnone q k] at hq
    · rw [goto_other hji] at hj
      have hstart := inStart_of_not_busy (hidle j hji)
      simp [hstart] at hj
  case owned =>
    intro q j r hq
    rw [goto_procs] at hq
    by_cases hqp : q = p
    · subst hqp
      rw [setProc_self] at hq
      cases hq
      rw [goto_self]
      rfl
    · rw [setProc_other hqp] at hq
      have hown := h.owned q j r hq
      by_cases hji : j = i
      · rw [hji, hpc] at hown
        cases hown
      · rw [goto_other hji]
        exact hown
  case knows =>
    intro j
    by_cases hji : j = i
    · subst hji
      rw [goto_self]
      exact fun q k hq => (halive q k hq).2
    · rw [goto_other hji]
      exact hnone.knows_of_idle (hidle j hji) _
  case fileKin =>
    intro q hq
    exact setProc_kin (h.fileKin q hq) (by simp)
  case heldKin =>
    intro j q hj
    by_cases hji : j = i
    · subst hji
      rw [goto_self] at hj
      have hqp : p = q := by
        simpa [Pc.holds] using hj
      rw [← hqp, goto_procs, setProc_self]
      simp
    · rw [goto_other hji] at hj
      exact setProc_kin (h.heldKin j q hj) (by simp)

theorem Inv.openFile {s : State ι} (h : Inv s) {i : ι} {p : Pid} (hpc : s.pcs i = .launched p) :
    Inv (s.openFile i p) := by
  have hi := h.knows i
  rw [hpc] at hi
  have hbusy : s.busy i := by
    simp [State.busy, State.busyAt, hpc, Pc.inStart]
  have htruncate (inode nextInode : ℕ) :
      Inv ({ s with file := some ⟨inode, none⟩, nextInode := nextInode }.goto i (.opened p inode)) := by
    have hfile : Inv { s with file := some ⟨inode, none⟩, nextInode := nextInode } := by
      apply h.setFile
      · intro q j hq
        rw [hi q j hq, hpc]
        rfl
      · intro q hq
        cases hq
      · intro j q n hj
        rw [h.opened_eq hbusy hj, hpc] at hj
        cases hj
    apply hfile.goto
    · exact fun _ j hj => h.exclusive i j hj (by simp [hpc, Pc.inStart])
    · exact fun _ => h.alone hbusy
    · intro q hq
      simpa [hpc, Pc.Owns] using hq
    · intro hunwritten
      cases hunwritten
    · exact ⟨hi, _, rfl, rfl⟩
    · intro q hq
      apply h.heldKin i q
      simpa [hpc, Pc.holds] using hq
  unfold State.openFile
  cases hf : s.file with
  | none => exact htruncate _ _
  | some f => exact htruncate _ _

theorem Inv.writePid {s : State ι} (h : Inv s) {i : ι} {p : Pid} {inode : ℕ}
    (hpc : s.pcs i = .opened p inode) : Inv (s.writePid i p inode) := by
  have hi := h.knows i
  rw [hpc] at hi
  obtain ⟨howner, f, hf, rfl⟩ := hi
  have hbusy : s.busy i := by
    simp [State.busy, State.busyAt, hpc, Pc.inStart]
  have halive : ∀ q j, s.alive q j → q = p := by
    intro q j hq
    have hown := h.owned q j true (by simpa [State.alive] using hq)
    rw [howner q j hq, hpc] at hown
    exact hown.symm
  have hfile : Inv { s with file := some ⟨f.inode, some p⟩ } := by
    apply h.setFile
    · intro q j hq
      rw [howner q j hq, hpc]
      rfl
    · intro q hq
      cases hq
      exact h.heldKin i p (by simp [hpc, Pc.holds])
    · intro j q n hj
      rw [h.opened_eq hbusy hj, hpc] at hj
      cases hj
      exact ⟨_, rfl, rfl⟩
  have hwrite : s.writePid i p f.inode =
      { s with file := some ⟨f.inode, some p⟩ }.goto i (.waiting p) := by
    simp [State.writePid, hf]
  rw [hwrite]
  apply hfile.goto
  · intro hstart
    cases hstart
  · exact fun _ => h.alone hbusy
  · intro q hq
    simpa [hpc, Pc.Owns] using hq
  · intro _ q hq
    rw [halive q i hq]
    rfl
  · intro hp
    apply State.noneAlive_of
    intro q j (hq : s.alive q j)
    have hqp := halive q j hq
    have hji := howner q j hq
    rw [hqp, hji] at hq
    exact Bool.noConfusion (hp.symm.trans hq)
  · intro q hq
    cases hq

section Steps
variable {s : State ι} (h : Inv s) {i : ι}
include h

theorem Inv.goto_busy {pc : Pc} (hbusy : s.busy i) (hstart : pc.inStart = false)
    (hwritten : (s.pcs i).unwritten = false) (howns : ∀ p, (s.pcs i).Owns p → pc.Owns p)
    (hknows : s.Knows i pc) (hholds : ∀ p, pc.holds p → s.procs p ≠ some .other) :
    Inv (s.goto i pc) := by
  apply h.goto
  · simp [hstart]
  · exact fun _ => h.alone hbusy
  · exact howns
  · exact fun _ p hp => h.recorded p i hp hwritten
  · exact hknows
  · exact hholds

theorem Inv.goto_done (hwritten : (s.pcs i).unwritten = false) : Inv (s.goto i .done) := by
  apply h.goto
  · intro hstart
    cases hstart
  · intro hbusy
    cases hbusy
  · intro p hp
    trivial
  · exact fun _ p hp => h.recorded p i hp hwritten
  · trivial
  · intro p hp
    cases hp

theorem Inv.goto_stopper {k : Stopper} {pc pc' : StopPc} (hpc : s.pcs i = .stopper k pc)
    (hbusy : s.busy i) (hknows : s.Knows i (.stopper k pc'))
    (hholds : ∀ p, (Pc.stopper k pc').holds p → s.procs p ≠ some .other) :
    Inv (s.goto i (.stopper k pc')) := by
  apply h.goto_busy hbusy rfl
  · rw [hpc]
    rfl
  · intro p hp
    rw [hpc] at hp
    cases k with
    | cleanup => trivial
    | stop => cases hp
  · exact hknows
  · exact hholds

theorem Inv.goto_held {k : Stopper} {pc pc' : StopPc} (hpc : s.pcs i = .stopper k pc)
    (hbusy : s.busy i) (hknows : s.Knows i (.stopper k pc'))
    (hheld : ∀ p, (Pc.stopper k pc').holds p → (Pc.stopper k pc).holds p) :
    Inv (s.goto i (.stopper k pc')) := by
  apply h.goto_stopper hpc hbusy hknows
  intro p hp
  apply h.heldKin i p
  rw [hpc]
  exact hheld p hp

theorem Inv.begin_step (hpc : s.pcs i = .begin) (halone : ∀ j, j ≠ i → s.busy j = false) :
    Inv (s.goto i (if s.file.isSome then .readOld else .prepare)) := by
  have hstart : ∀ j, j ≠ i → (s.pcs j).inStart = false := fun j hj => inStart_of_not_busy (halone j hj)
  have hrecorded := h.recorded_alone (by simp [hpc, Pc.unwritten]) hstart
  have hwritten : ∀ p, s.alive p i → s.pidInFile = some p := fun p hp => hrecorded p i hp
  have howns (pc : Pc) : ∀ p, (s.pcs i).Owns p → pc.Owns p := by
    intro p hp
    rw [hpc] at hp
    cases hp
  split_ifs with hfile
  · apply h.goto (fun _ => halone) (fun _ => hstart) (howns _) (fun _ => hwritten)
    · trivial
    · intro p hp
      cases hp
  · apply h.goto (fun _ => halone) (fun _ => hstart) (howns _) (fun _ => hwritten)
    · apply State.noneAlive_of
      intro p j hp
      have hcontent := hrecorded p j hp
      simp [State.pidInFile, Option.not_isSome_iff_eq_none.1 hfile] at hcontent
    · intro p hp
      cases hp

theorem Inv.goto_start {pc pc' : Pc} (hpc : s.pcs i = pc) (hstart : pc.inStart)
    (hwritten : pc.unwritten = false) (howns : ∀ p, ¬ pc.Owns p) (hknows : s.Knows i pc')
    (hholds : ∀ p, pc'.holds p = false) : Inv (s.goto i pc') := by
  subst hpc
  have hbusy : s.busy i := by
    simp [State.busy, State.busyAt, hstart]
  apply h.goto
  · exact fun _ j hj => h.exclusive i j hj hstart
  · exact fun _ => h.alone hbusy
  · exact fun p hp => absurd hp (howns p)
  · exact fun _ p hp => h.recorded p i hp hwritten
  · exact hknows
  · simp [hholds]

theorem Inv.checkOld_step {old : Option Pid} (hpc : s.pcs i = .checkOld old) :
    Inv (s.goto i (if old.any s.responds then .done else .removeStale)) := by
  have hi := h.knows i
  rw [hpc] at hi
  split_ifs with hold
  · apply h.goto_done
    rw [hpc]
    rfl
  · apply h.goto_start hpc rfl rfl (fun p hp => hp)
    · apply State.noneAlive_of
      intro p j hp
      have hproc : s.procs p = some (.app j true) := by
        simpa [State.alive] using hp
      simp [hi p j hp, State.responds, hproc] at hold
    · exact fun p => rfl

theorem Inv.waiting_step {p : Pid} (hpc : s.pcs i = .waiting p)
    (hproc : s.procs p ≠ some (.app i true)) : Inv (s.goto i .removeLast) := by
  have hdead : s.alive p i = false := by
    simpa [State.alive] using hproc
  have hi := h.knows i
  rw [hpc] at hi
  apply h.goto_busy
  · simp [State.busy, State.busyAt, State.ending, hpc, hdead]
  · rfl
  · rw [hpc]
    rfl
  · exact fun q hq => trivial
  · exact hi hdead
  · intro q hq
    cases hq

theorem Inv.test_step {k : Stopper} (hpc : s.pcs i = .stopper k .test)
    (hfree : s.file.isSome → ∀ j, j ≠ i → (s.pcs j).inStart = false) :
    Inv (s.goto i (if s.file.isSome then .stopper k .read else .done)) := by
  have hwritten : (s.pcs i).unwritten = false := by
    rw [hpc]
    rfl
  split_ifs with hfile
  · apply h.goto
    · intro hstart
      cases hstart
    · exact fun _ => hfree hfile
    · intro p hp
      rw [hpc] at hp
      cases k with
      | cleanup => trivial
      | stop => cases hp
    · exact fun _ p hp => h.recorded p i hp hwritten
    · trivial
    · intro p hp
      cases hp
  · exact h.goto_done hwritten

omit h in
theorem State.noneAlive_of_silent {p : Pid} (halive : ∀ q j, s.alive q j → q = p)
    (hsilent : ¬ s.responds p) : s.NoneAlive := by
  apply State.noneAlive_of
  intro q j hq
  have hproc : s.procs q = some (.app j true) := by
    simpa [State.alive] using hq
  rw [halive q j hq] at hproc
  simp [State.responds, hproc] at hsilent

theorem Inv.check_step {k : Stopper} {pid : Option Pid} (hpc : s.pcs i = .stopper k (.check pid))
    (hbusy : s.busy i) : Inv (s.stopStep i k (.check pid)) := by
  have hi := h.knows i
  rw [hpc] at hi
  cases pid with
  | none =>
    apply h.goto_held hpc hbusy
    · apply State.noneAlive_of
      intro p j hp
      cases hi p j hp
    · simp [Pc.holds]
  | some p =>
    have halive : ∀ q j, s.alive q j → q = p := fun q j hq => (Option.some.inj (hi q j hq)).symm
    simp only [State.stopStep]
    split_ifs with hresponds hforce
    · apply h.goto_held hpc hbusy
      · exact halive
      · simp [Pc.holds]
    · apply h.goto_held hpc hbusy
      · exact halive
      · simp [Pc.holds]
    · apply h.goto_held hpc hbusy
      · exact State.noneAlive_of_silent halive hresponds
      · simp [Pc.holds]

theorem Inv.term_step {k : Stopper} {p : Pid} (hpc : s.pcs i = .stopper k (.term p))
    (hbusy : s.busy i) : Inv (s.stopStep i k (.term p)) := by
  have halive := h.knows i
  rw [hpc] at halive
  have hkin := h.heldKin i p (by simp [hpc, Pc.holds])
  simp only [State.stopStep]
  split_ifs with hsilent
  · apply h.goto_done
    rw [hpc]
    rfl
  · apply (h.record hkin).goto_held hpc hbusy
    · exact halive
    · simp [Pc.holds]

theorem Inv.loop_step {k : Stopper} {p : Pid} {left : ℕ} (hpc : s.pcs i = .stopper k (.loop p left))
    (hbusy : s.busy i) : Inv (s.stopStep i k (.loop p left)) := by
  have halive := h.knows i
  rw [hpc] at halive
  cases left with
  | zero =>
    apply h.goto_held hpc hbusy
    · exact halive
    · simp [Pc.holds]
  | succ left =>
    simp only [State.stopStep]
    split_ifs with hresponds
    · apply h.goto_held hpc hbusy
      · exact halive
      · simp [Pc.holds]
    · apply h.goto_held hpc hbusy
      · exact State.noneAlive_of_silent halive hresponds
      · simp [Pc.holds]

theorem Inv.kill9_step {k : Stopper} {p : Pid} (hpc : s.pcs i = .stopper k (.kill9 p))
    (hbusy : s.busy i) : Inv (s.stopStep i k (.kill9 p)) := by
  have halive := h.knows i
  rw [hpc] at halive
  have hkin := h.heldKin i p (by simp [hpc, Pc.holds])
  have hexit : Inv ((s.record p).exit p) := by
    apply (h.record hkin).exit
    intro j hj hwait l hl
    by_cases hli : l = i
    · subst hli
      change (s.pcs l).inStart = false
      rw [hpc]
      rfl
    · exact h.alone hbusy l hli
  have hnone : ((s.record p).exit p).NoneAlive := by
    apply State.noneAlive_of
    intro q j hq
    obtain ⟨hqp, hq⟩ := State.exit_alive hq
    exact hqp (halive q j hq)
  have hbusy' : ((s.record p).exit p).busy i := by
    simp [State.busy, State.busyAt, State.exit, State.setProc, State.record, hpc, Pc.stopping]
  simp only [State.stopStep, State.afterKill]
  split
  · apply hexit.goto_held hpc hbusy'
    · exact hnone
    · simp [Pc.holds]
  · apply hexit.goto_held hpc hbusy'
    · exact hnone
    · simp [Pc.holds]

theorem Inv.stopStep {k : Stopper} {pc : StopPc} (hpc : s.pcs i = .stopper k pc)
    (htest : pc = .test → s.file.isSome → ∀ j, j ≠ i → (s.pcs j).inStart = false) :
    Inv (s.stopStep i k pc) := by
  have hbusy (hpast : pc ≠ .test) : s.busy i := by
    simp [State.busy, State.busyAt, hpc, Pc.stopping, hpast]
  have hi := h.knows i
  rw [hpc] at hi
  have hwritten : (s.pcs i).unwritten = false := by
    rw [hpc]
    rfl
  cases pc with
  | test => exact h.test_step hpc (htest rfl)
  | read =>
    apply h.goto_stopper hpc (hbusy (by simp))
    · exact h.recorded_alone hwritten (h.alone (hbusy (by simp)))
    · intro p hp
      apply h.fileKin p
      simpa [Pc.holds] using hp
  | check pid => exact h.check_step hpc (hbusy (by simp))
  | term p => exact h.term_step hpc (hbusy (by simp))
  | loop p left => exact h.loop_step hpc (hbusy (by simp))
  | kill9 p => exact h.kill9_step hpc (hbusy (by simp))
  | recheck p =>
    simp only [State.stopStep]
    split_ifs with hresponds
    · exact h.goto_done hwritten
    · apply h.goto_held hpc (hbusy (by simp))
      · exact hi
      · simp [Pc.holds]
  | remove =>
    have hremove : Inv s.removeFile := by
      apply h.removeFile (hbusy (by simp)) hi
      simp [hpc]
    exact hremove.goto_done hwritten

theorem Inv.scriptStep (hcareful : Careful s (.step i)) : Inv (s.scriptStep i (s.pcs i)) := by
  have hi := h.knows i
  cases hpc : s.pcs i with
  | begin => exact h.begin_step hpc (hcareful.1 hpc)
  | readOld =>
    have hbusy : s.busy i := by
      simp [State.busy, State.busyAt, hpc, Pc.inStart]
    apply h.goto_start hpc rfl rfl (fun p hp => hp)
    · exact h.recorded_alone (by simp [hpc, Pc.unwritten]) (h.alone hbusy)
    · exact fun p => rfl
  | checkOld old => exact h.checkOld_step hpc
  | removeStale =>
    rw [hpc] at hi
    have hremove : Inv s.removeFile := by
      apply h.removeFile (i := i) _ hi
      · simp [hpc]
      · simp [State.busy, State.busyAt, hpc, Pc.inStart]
    exact hremove.goto_start hpc rfl rfl (fun p hp => hp) hi (fun p => rfl)
  | prepare =>
    rw [hpc] at hi
    exact h.goto_start hpc rfl rfl (fun p hp => hp) hi (fun p => rfl)
  | ready => exact h
  | launched p => exact h.openFile hpc
  | opened p inode => exact h.writePid hpc
  | waiting p =>
    simp only [State.scriptStep]
    split_ifs with hproc
    · exact h
    · exact h.waiting_step hpc hproc
  | removeLast =>
    rw [hpc] at hi
    have hremove : Inv s.removeFile := by
      apply h.removeFile (i := i) _ hi
      · simp [hpc]
      · simp [State.busy, State.busyAt, State.ending, hpc]
    apply hremove.goto_done
    change (s.pcs i).unwritten = false
    rw [hpc]
    rfl
  | stopper k pc =>
    apply h.stopStep hpc
    intro htest
    apply hcareful.2
    rw [hpc, htest]
    rfl
  | done => exact h

theorem Inv.onSignal (hwritten : (s.pcs i).unwritten = false) :
    Inv (s.goto i (State.onSignal (s.pcs i))) := by
  have htrap : Inv (s.goto i (.stopper .cleanup .test)) := by
    apply h.goto
    · intro hstart
      cases hstart
    · intro hbusy
      cases hbusy
    · intro p hp
      trivial
    · exact fun _ p hp => h.recorded p i hp hwritten
    · trivial
    · intro p hp
      cases hp
  cases hpc : s.pcs i with
  | stopper k pc =>
    cases k with
    | cleanup => exact htrap
    | stop => exact h.goto_done hwritten
  | ready | launched | opened | waiting | removeLast => exact htrap
  | _ => exact h.goto_done hwritten

theorem Inv.step {e : Event ι} (hcareful : Careful s e) : Inv (step s e) := by
  cases e with
  | step i => exact h.scriptStep hcareful
  | giveUp i =>
    simp only [PidFile.step]
    split_ifs with hpc
    · apply h.goto_done
      rw [hpc]
      rfl
    · exact h
  | launch i p =>
    simp only [PidFile.step]
    split_ifs with hready
    · exact h.launch hready.1
    · exact h
  | signal i => exact h.onSignal hcareful
  | kill i => exact h.goto_done hcareful
  | exit p => exact h.exit hcareful
  | reap p => exact h.reap p
  | spawn p =>
    simp only [PidFile.step]
    split_ifs with hfree
    · exact h.spawn hfree hcareful.1 hcareful.2
    · exact h

end Steps

theorem Init.inv {s : State ι} (h : Init s) : Inv s := by
  have hnone : s.NoneAlive := by
    intro p i
    simp [State.alive, h.procs p i true]
  have hdead (p : Pid) (i : ι) : ¬ s.alive p i := by
    simp [hnone p i]
  refine ⟨⟨?_, ?_, ?_⟩, ?_, ?_, ?_, ?_, ?_⟩
  · exact fun p q i j hp => absurd hp (hdead p i)
  · exact fun p i hp => absurd hp (hdead p i)
  · simp [h.signalled]
  · intro i j hji hi
    rcases h.pcs i with hpc | ⟨force, timeout, hpc⟩ <;> rw [hpc] at hi <;> cases hi
  · exact fun p i r hp => absurd hp (h.procs p i r)
  · intro i
    rcases h.pcs i with hpc | ⟨force, timeout, hpc⟩ <;> rw [hpc] <;> trivial
  · simp [State.pidInFile, h.file]
  · intro i p hp
    rcases h.pcs i with hpc | ⟨force, timeout, hpc⟩ <;> rw [hpc] at hp <;> cases hp

/-- In every run whose steps meet the condition, every state reached is safe. -/
theorem safe_of_careful {s : State ι} (hs : Init s) {events front : List (Event ι)}
    (h : Meets step Careful s events) (hfront : front <+: events) : Safe (run step s front) :=
  (prefix_invariant (fun _ _ h hcareful => h.step hcareful) hs.inv h hfront).toSafe

def fresh (pcs : ι → Pc) : State ι := ⟨none, 0, fun _ => none, pcs, []⟩

omit [DecidableEq ι] in
theorem fresh_init {pcs : ι → Pc}
    (h : ∀ i, pcs i = .begin ∨ ∃ force timeout, pcs i = .stopper (.stop force timeout) .test) :
    Init (fresh pcs) :=
  ⟨rfl, fun _ _ _ => Option.some_ne_none _ ∘ Eq.symm, h, rfl⟩

def startTwice : State Bool := fresh fun _ => .begin

def startAndStop : State Bool := fresh fun
  | false => .begin
  | true => .stopper (.stop false 10) .test

theorem startTwice_init : Init startTwice := fresh_init fun _ => .inl rfl

theorem startAndStop_init : Init startAndStop := by
  apply fresh_init
  rintro (_ | _)
  · exact .inl rfl
  · exact .inr ⟨false, 10, rfl⟩

instance [Fintype ι] (s : State ι) : (e : Event ι) → Decidable (Careful s e)
  | .step _ => inferInstanceAs (Decidable (_ ∧ _))
  | .giveUp _ => inferInstanceAs (Decidable True)
  | .launch _ _ => inferInstanceAs (Decidable True)
  | .signal _ => inferInstanceAs (Decidable (_ = _))
  | .kill _ => inferInstanceAs (Decidable (_ = _))
  | .exit _ => inferInstanceAs (Decidable (∀ _, _))
  | .reap _ => inferInstanceAs (Decidable True)
  | .spawn _ => inferInstanceAs (Decidable (_ ∧ _))

def startToWrite : List (Event Bool) :=
  [.step false, .step false, .launch false 7, .step false, .step false]

theorem start_then_stop_safe :
    Safe (run step startAndStop (startToWrite ++ [.spawn 8, .step true, .step true, .step true,
      .step true, .exit 7, .step false, .reap 7, .step true, .step false, .step true])) :=
  safe_of_careful startAndStop_init (by decide) (List.prefix_refl _)

def bothLaunched : List (Event Bool) :=
  [.step false, .step true, .step false, .step true, .launch false 7, .launch true 8,
    .step false, .step false, .step true, .step true]

def signalledEarly : List (Event Bool) :=
  [.step false, .step false, .launch false 7, .signal false, .step false]

def pidGivenAway : List (Event Bool) :=
  startToWrite ++ [.kill false, .exit 7, .reap 7, .spawn 7, .step true, .step true, .step true,
    .step true]

theorem careless_runs_unsafe :
    Init startTwice ∧ Init startAndStop ∧ ¬ Safe (run step startTwice bothLaunched) ∧
      ¬ Safe (run step startAndStop signalledEarly) ∧
      ¬ Safe (run step startAndStop pidGivenAway) := by
  refine ⟨startTwice_init, startAndStop_init, ?_, ?_, ?_⟩
  · intro h
    have hsame : (7 : ℕ) = 8 := h.unique 7 8 false true (by decide) (by decide)
    omega
  · intro h
    have hfile := h.recorded 7 false (by decide) (by decide)
    cases hfile
  · intro h
    exact h.onlyApps .other (by decide) rfl

end PidFile
end StudentGrades
