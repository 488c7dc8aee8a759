import Mathlib.Logic.Function.Basic
import Mathlib.Tactic.Common

/-!
# The PID file of the scripts

`start.sh` tests, reads and removes the PID file, launches the application, writes
its PID, waits for it and removes the file; its trap and `stop.sh` read the file,
signal the process and remove the file. Every access is one step, so that the
steps of any number of scripts interleave with processes that exit and with PIDs
that the system gives away again. A process that has exited keeps its PID until
it is reaped, and `kill -0` still finds it; `SIGKILL` ends a process at once.
-/

namespace StudentGrades
namespace PidFile

abbrev Pid := ℕ

inductive Proc (ι : Type*)
  | app (owner : ι) (running : Bool)
  | other
deriving DecidableEq

/-- A file that was removed and written again has another inode. -/
structure File where
  inode : ℕ
  content : Option Pid
deriving DecidableEq

/-- The trap of `start.sh`, or `stop.sh` with its options. -/
inductive Stopper
  | cleanup
  | stop (force : Bool) (timeout : ℕ)
deriving DecidableEq

def Stopper.force : Stopper → Bool
  | .cleanup => false
  | .stop force _ => force

def Stopper.timeout : Stopper → ℕ
  | .cleanup => 10
  | .stop _ timeout => timeout

inductive StopPc
  | test
  | read
  | check (pid : Option Pid)
  | term (pid : Pid)
  | loop (pid : Pid) (left : ℕ)
  | kill9 (pid : Pid)
  | recheck (pid : Pid)
  | remove
deriving DecidableEq

inductive Pc
  | begin
  | readOld
  | checkOld (oldPid : Option Pid)
  | removeStale
  | prepare
  | ready
  | launched (appPid : Pid)
  | opened (appPid : Pid) (inode : ℕ)
  | waiting (appPid : Pid)
  | removeLast
  | stopper (k : Stopper) (pc : StopPc)
  | done
deriving DecidableEq

structure State (ι : Type*) where
  file : Option File
  nextInode : ℕ
  procs : Pid → Option (Proc ι)
  pcs : ι → Pc
  signalled : List (Proc ι)

inductive Event (ι : Type*)
  | step (i : ι)
  | giveUp (i : ι)
  | launch (i : ι) (p : Pid)
  | signal (i : ι)
  | kill (i : ι)
  | exit (p : Pid)
  | reap (p : Pid)
  | spawn (p : Pid)
deriving DecidableEq

variable {ι : Type*} [DecidableEq ι]

namespace State
variable (s : State ι)

def goto (i : ι) (pc : Pc) : State ι := { s with pcs := Function.update s.pcs i pc }

def setProc (p : Pid) (x : Option (Proc ι)) : State ι :=
  { s with procs := Function.update s.procs p x }

def removeFile : State ι := { s with file := none }

/-- What `cat` prints, nothing for an absent or empty file. -/
def pidInFile : Option Pid := s.file.bind File.content

/-- `kill -0` finds a process; scripts and application run under one user. -/
def responds (p : Pid) : Bool := (s.procs p).isSome

def record (p : Pid) : State ι := { s with signalled := (s.procs p).toList ++ s.signalled }

def ended : Option (Proc ι) → Option (Proc ι)
  | some (.app owner _) => some (.app owner false)
  | _ => none

def exit (p : Pid) : State ι := s.setProc p (ended (s.procs p))

def reap (p : Pid) : State ι :=
  match s.procs p with
  | some (.app _ false) => s.setProc p none
  | _ => s

def afterKill : Stopper → Pid → StopPc
  | .stop false _, p => .recheck p
  | _, _ => .remove

/-- A step of the trap or of `stop.sh`. A `kill` that finds no process ends the
trap, which runs under `set -e`; `stop.sh` ignores the failure. -/
def stopStep (i : ι) (k : Stopper) : StopPc → State ι
  | .test => s.goto i (if s.file.isSome then .stopper k .read else .done)
  | .read => s.goto i (.stopper k (.check s.pidInFile))
  | .check none => s.goto i (.stopper k .remove)
  | .check (some p) =>
    if s.responds p then s.goto i (.stopper k (if k.force then .kill9 p else .term p))
    else s.goto i (.stopper k .remove)
  | .term p =>
    if k = .cleanup ∧ ¬ s.responds p then s.goto i .done
    else (s.record p).goto i (.stopper k (.loop p k.timeout))
  | .loop p 0 => s.goto i (.stopper k (.kill9 p))
  | .loop p (left+1) => s.goto i (.stopper k (if s.responds p then .loop p left else .remove))
  | .kill9 p => ((s.record p).exit p).goto i (.stopper k (afterKill k p))
  | .recheck p => s.goto i (if s.responds p then .done else .stopper k .remove)
  | .remove => s.removeFile.goto i .done

/-- Opening for writing truncates the file or creates it. -/
def openFile (i : ι) (p : Pid) : State ι :=
  match s.file with
  | some f => { s with file := some ⟨f.inode, none⟩ }.goto i (.opened p f.inode)
  | none =>
    { s with file := some ⟨s.nextInode, none⟩, nextInode := s.nextInode + 1 }.goto i
      (.opened p s.nextInode)

/-- The PID goes into the file that was opened, which may have been removed since. -/
def writePid (i : ι) (p : Pid) (inode : ℕ) : State ι :=
  { s with file := s.file.map fun f : File => if f.inode = inode then ⟨inode, some p⟩ else f }.goto i
    (.waiting p)

def scriptStep (i : ι) : Pc → State ι
  | .begin => s.goto i (if s.file.isSome then .readOld else .prepare)
  | .readOld => s.goto i (.checkOld s.pidInFile)
  | .checkOld oldPid => s.goto i (if oldPid.any s.responds then .done else .removeStale)
  | .removeStale => s.removeFile.goto i .prepare
  | .prepare => s.goto i .ready
  | .ready => s
  | .launched p => s.openFile i p
  | .opened p inode => s.writePid i p inode
  | .waiting p => if s.procs p = some (.app i true) then s else s.goto i .removeLast
  | .removeLast => s.removeFile.goto i .done
  | .stopper k pc => s.stopStep i k pc
  | .done => s

/-- Before the trap is set a signal ends `start.sh`; afterwards it runs the trap,
also instead of a trap that is already running. -/
def onSignal : Pc → Pc
  | .ready => .stopper .cleanup .test
  | .launched _ => .stopper .cleanup .test
  | .opened _ _ => .stopper .cleanup .test
  | .waiting _ => .stopper .cleanup .test
  | .removeLast => .stopper .cleanup .test
  | .stopper .cleanup _ => .stopper .cleanup .test
  | _ => .done

end State

/-- An event that cannot happen leaves the state unchanged. -/
def step (s : State ι) : Event ι → State ι
  | .step i => s.scriptStep i (s.pcs i)
  | .giveUp i => if s.pcs i = .prepare then s.goto i .done else s
  | .launch i p =>
    if s.pcs i = .ready ∧ s.procs p = none then
      (s.setProc p (some (.app i true))).goto i (.launched p)
    else s
  | .signal i => s.goto i (State.onSignal (s.pcs i))
  | .kill i => s.goto i .done
  | .exit p => s.exit p
  | .reap p => s.reap p
  | .spawn p => if s.procs p = none then s.setProc p (some .other) else s

structure Init (s : State ι) : Prop where
  file : s.file = none
  procs : ∀ p i r, s.procs p ≠ some (.app i r)
  pcs : ∀ i, s.pcs i = .begin ∨ ∃ force timeout, s.pcs i = .stopper (.stop force timeout) .test
  signalled : s.signalled = []

end PidFile
end StudentGrades
