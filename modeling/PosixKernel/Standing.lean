import PosixKernel.SystemSteps

/-!
# What Moves Leave Alone

The calls on descriptors, the file actions of a spawn and the end of a process change what
the descriptors of a process lead to, its directory and its limits. Its number, its signals,
its pending descriptor actions, its group and whether it lives stay: these make up its
standing.

## Main results

* `standing_followed` — the calls of the file actions;
* `standing_applySpawnFileActions`, `standing_sysExit` — the file actions of a spawn, and
  the end of a process.
-/

namespace PosixKernel

/-- Whether a process lives, and the status it ended with. -/
def Process.life (p : Process) : ProcessState × ℤ := (p.state, p.exitStatus)

/-- The number of a process, its signals, its pending descriptor actions, its group and its
life. -/
def Process.standing (p : Process) :
    ℕ × SignalState × List FdAction × UInt32 × ProcessState × ℤ :=
  (p.pid, p.signals, p.forkFdActions, p.pgid, p.life)

/-- A process that has ended with a status. -/
def Process.ended (p : Process) (status : ℤ) : Process :=
  { p with state := .Exited, exitStatus := status }

section Standing

variable {p q : Process}

variable (h : q.standing = p.standing)

include h

/-- Processes of one standing have one number. -/
theorem Process.pid_of_standing : q.pid = p.pid :=
  congrArg (·.1) h

/-- They have the same signals. -/
theorem Process.signals_of_standing : q.signals = p.signals :=
  congrArg (·.2.1) h

/-- They have the same actions of a fork. -/
theorem Process.actions_of_standing : q.forkFdActions = p.forkFdActions := congrArg (·.2.2.1) h

/-- They are in one process group. -/
theorem Process.pgid_of_standing : q.pgid = p.pgid := congrArg (·.2.2.2.1) h

/-- They live, or have ended alike. -/
theorem Process.life_of_standing : q.life = p.life :=
  congrArg (·.2.2.2.2) h

/-- Processes of one standing end in one standing. -/
theorem Process.standing_ended (status : ℤ) :
    (q.ended status).standing = (p.ended status).standing :=
  congrArg (fun s => (s.1, s.2.1, s.2.2.1, s.2.2.2.1, ProcessState.Exited, status)) h

omit h

/-- The settings have the standing among them. -/
theorem Process.SameSettings.standing (h : p.SameSettings q) : q.standing = p.standing := by
  rw [h]
  rfl

end Standing

section Moves

variable {H : HostIO} {E : ProcfsEnv}

variable (c : Ctx)

/-- Duplicating a descriptor keeps the standing. -/
theorem standing_sysDup (fd : ℤ) : (sysDup c fd).2.proc.standing = c.proc.standing := by
  rw [sysDup]
  rcases c.proc.fdTable.get fd with e | entry
  · rfl
  simp only
  rcases halloc : allocFd (c.updProc fun p =>
      { p with ofdTable := p.ofdTable.incRef entry.ofdRef }) entry.ofdRef 0 with ⟨e | fd', c'⟩
  · rw [allocFd_eq_error halloc]
    rfl
  · obtain ⟨i, -, -, rfl⟩ := allocFd_eq_ok halloc
    rfl

/-- So does changing the directory. -/
theorem standing_sysChdir (path : Bytes) :
    (sysChdir H c path).2.proc.standing = c.proc.standing := by
  simp only [sysChdir, hostStat]
  split
  · split <;> rfl
  split
  · rfl
  generalize H.hostStat c.kernel.log (resolvePath path c.proc.cwd) = reply
  rcases reply with e | mode
  · rfl
  · simp only
    split <;> rfl

/-- So does changing it to an open one. -/
theorem standing_sysFchdir (fd : ℤ) : (sysFchdir c fd).2.proc.standing = c.proc.standing := by
  rw [sysFchdir]
  rcases ofdOf c.proc fd with e | ⟨idx, o⟩
  · rfl
  · simp only
    split <;> rfl

/-- The calls of the file actions keep the standing. -/
theorem standing_followed : Followed H E fun c c' => c'.proc.standing = c.proc.standing where
  refl _ := rfl
  trans h h' := h'.trans h
  sysOpen c path oflags mode := (sameSettings_sysOpen E c path oflags mode).standing
  sysClose c fd := (sameSettings_sysClose c fd).standing
  sysDup2 c oldfd newfd := (sameSettings_sysDup2 c oldfd newfd).standing
  setFlags _ _ _ := rfl
  sysChdir := standing_sysChdir
  sysFchdir := standing_sysFchdir

/-- So a child has the standing it was made with when its actions are done. -/
theorem standing_applySpawnFileActions (actions : List FileAction) :
    (applySpawnFileActions H E c actions).2.proc.standing = c.proc.standing :=
  standing_followed.applySpawnFileActions c actions fun c =>
    (sameSettings_closeFds c _).standing

/-- Closing the streams of directories keeps the standing. -/
theorem standing_closeStreams : (closeStreams c).proc.standing = c.proc.standing := by
  rw [closeStreams]
  generalize c.proc.dirStreams.entries = es
  induction es generalizing c with
  | nil => rfl
  | cons e es ih => exact ih _

/-- Dropping the locks at an exit changes nothing else of what ended. -/
theorem standing_unlock (status : ℤ) :
    (c.updProc fun p =>
      { p with
        lockTable := p.lockTable.filter fun l => l.2.pid ≠ p.pid
        state := .Exited
        exitStatus := status }).proc.standing = (c.proc.ended status).standing := rfl

/-- A process that exits stands as one that ended with that status. -/
theorem standing_sysExit (status : ℤ) :
    (sysExit H c status).proc.standing = (c.proc.ended status).standing := by
  rw [sysExit, standing_unlock]
  refine Process.standing_ended ?_ status
  rw [standing_closeStreams, (sameSettings_closeFds c _).standing]

end Moves

end PosixKernel
