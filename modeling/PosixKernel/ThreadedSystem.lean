import PosixKernel.Evolution
import PosixKernel.SignalCalls

/-!
# The System with its Threads

All processes with their threads. The kernel creates, forks, spawns, replaces and removes
processes and performs their calls on descriptors; their threads make the calls about
signals. The two parts meet in the record of the process: the kernel gives a new process its
signals, and leaves those of the others alone.

## Main results

* `System.step_origin` — where the signals of a process come from when the kernel acts;
* `ThreadedSystem.next` — one step of the system.
-/

namespace PosixKernel

open SlotTable

/-! ### Where signals come from -/

/-- The dispositions a spawned child inherits. -/
def inheritedSignals (s : SignalState) : SignalState :=
  setHandlers (fun sig => s.getHandler sig = .Ignore) .Ignore
    { SignalState.new with blocked := s.blocked }

/-- Where the signals of a process come from when the kernel has acted. -/
inductive Origin (s : System) (a : Action) (r : Except Errno Reply) (q : ℕ) (p' : Process) : Prop
  | kept {p : Process} (hp : s.procs.get q = some p) (hpid : p'.pid = p.pid)
      (hsignals : p'.signals = p.signals)
  | image {p : Process} (hp : s.procs.get q = some p) (ha : a = .exec q) (hr : r = .ok .done)
      (hsignals : p'.signals = execSignals p.signals)
  | created (hnew : s.procs.get q = none) (hsignals : p'.signals = .new)
  | forked {n : ℕ} {parent : Process} (hnew : s.procs.get q = none)
      (hp : s.procs.get n = some parent) (hsignals : p'.signals = signalsImage parent.signals)
  | spawned {n : ℕ} {argv envp : List Bytes} {actions : List FileAction} {attrs : SpawnAttrs}
      {parent : Process} (hnew : s.procs.get q = none) (ha : a = .spawn n argv envp actions attrs)
      (hp : s.procs.get n = some parent)
      (hsignals : p'.signals = spawnSignals attrs (inheritedSignals parent.signals))

theorem Origin.of_get {s : System} {a : Action} {r : Except Errno Reply} {q : ℕ} {p' : Process}
    (hp : s.procs.get q = some p') : Origin s a r q p' :=
  .kept hp rfl rfl

namespace System

variable {M : Machine} {s s' : System} {r : Except Errno Reply} {q : ℕ} {p' : Process}

/-- What one process does to its record shows in its own record only. -/
theorem origin_commit {a : Action} {pid : ℕ} {c : Ctx} (hown : Origin s a r pid c.proc)
    (hget : (s.commit pid c).procs.get q = some p') : Origin s a r q p' := by
  rw [get_commit] at hget
  split at hget
  next heq =>
    cases hget
    rwa [heq]
  next => exact .of_get hget

/-- What is left of the standing of a process whose exec fails. -/
theorem standing_kernelExecSetup_error {H : HostIO} {E : ProcfsEnv} {c c' : Ctx} {e : Errno}
    (h : kernelExecSetup H E c = (.error e, c')) :
    c'.proc.standing = ({ c.proc with forkFdActions := [] } : Process).standing := by
  have hactions := sameSettings_applyFdActions (H := H) (E := E)
    (c.updProc fun p => { p with forkFdActions := [] }) c.proc.forkFdActions
  rw [kernelExecSetup] at h
  rcases hrun : applyFdActions H E (c.updProc fun p => { p with forkFdActions := [] })
      c.proc.forkFdActions with ⟨e | u, c₁⟩
  · rw [hrun] at h hactions
    cases h
    exact hactions.standing
  rw [hrun] at h hactions
  have hclosed := hactions.trans (sameSettings_closeFds (H := H) c₁ (cloexecFds c₁.proc))
  simp only at h
  split at h
  · cases h
    exact hclosed.standing
  split at h
  · cases h
    exact hclosed.standing
  · cases congrArg Prod.fst h

/-- **Where signals come from**: the kernel leaves the signals of a process alone, except
that an exec rebuilds them, and gives a new process new ones or those of its parent. -/
theorem step_origin (a : Action) (hstep : s.step M a = some (r, s'))
    (hget : s'.procs.get q = some p') : Origin s a r q p' := by
  cases took_of_step hstep with
  | refused => exact .of_get hget
  | created pid =>
    obtain ⟨hcreated, -⟩ : (∀ q p', (s.createProcess pid).2.procs.get q = some p' →
        s.procs.get q = some p' ∨ s.procs.get q = none ∧ p'.signals = .new) ∧
        ∀ q p, s.procs.get q = some p → (s.createProcess pid).2.procs.get q = some p := by
      refine createProcess_induction (I := fun t => (∀ q p', t.procs.get q = some p' →
        s.procs.get q = some p' ∨ s.procs.get q = none ∧ p'.signals = .new) ∧
        ∀ q p, s.procs.get q = some p → t.procs.get q = some p)
        ⟨fun q p' h => .inl h, fun q p h => h⟩ pid fun t n argv ht hfree _ => ?_
      have hold : ∀ q p, s.procs.get q = some p → q ≠ n := by
        rintro q p hp rfl
        rw [ht.2 q p hp] at hfree
        exact Option.some_ne_none p hfree
      refine ⟨fun q p' h => ?_, fun q p hp => ?_⟩
      · rw [get_put] at h
        split at h
        next heq =>
          cases h
          refine .inr ⟨Option.eq_none_iff_forall_ne_some.mpr fun p hp => ?_, rfl⟩
          exact hold q p hp heq
        next => exact ht.1 q p' h
      · rw [get_put, if_neg (hold q p hp)]
        exact ht.2 q p hp
    rcases hcreated q p' hget with hp | ⟨hnew, hsignals⟩
    · exact .of_get hp
    · exact .created hnew hsignals
  | @called _ call _ _ _ hp hrun =>
    have hstanding := call.standing hrun
    exact origin_commit (.kept hp (Process.pid_of_standing hstanding)
      (Process.signals_of_standing hstanding)) hget
  | @execed _ _ r c hp hexec =>
    refine origin_commit ?_ hget
    rcases r with e | u
    · have hstanding := standing_kernelExecSetup_error hexec
      exact .kept hp (congrArg (·.1) hstanding) (congrArg (·.2.1) hstanding)
    · obtain ⟨mid, hsame, -, -, rfl, -⟩ := kernelExecSetup_eq_ok hexec
      exact .image hp rfl rfl (congrArg execSignals hsame.signals)
  | @exited _ p hp status =>
    have hstanding := standing_sysExit (H := M.host) ⟨s.kernel, p⟩ status
    have hpid := Process.pid_of_standing (p := p.ended status) hstanding
    exact origin_commit
      (.kept hp hpid (Process.signals_of_standing (p := p.ended status) hstanding)) hget
  | died hp => exact origin_commit (.kept hp rfl rfl) hget
  | @forked parentPid childPid parent hparent hnew =>
    have hne : parentPid ≠ childPid := by
      rintro rfl
      rw [hparent] at hnew
      exact Option.some_ne_none parent hnew
    simp only [forked, get_modify, get_put, if_neg hne] at hget
    split at hget
    next heq =>
      rw [hparent] at hget
      cases hget
      exact .kept (p := parent) (heq ▸ hparent) rfl rfl
    next =>
      split at hget
      next heq =>
        cases hget
        exact .forked (heq ▸ hnew) hparent rfl
      next => exact .of_get hget
  | @spawned parentPid argv envp actions attrs parent child c hparent hchild hc _ _ hend =>
    have hnew := get_pid_spawned hchild
    have hsignals : c.proc.signals = spawnSignals attrs (inheritedSignals parent.signals) := by
      rw [hc, Process.signals_of_standing (standing_applySpawnFileActions _ actions), hchild]
      simp only [spawnedChild, spawnGroup, inheritedSignals]
      split <;> split <;> rfl
    rcases hend with ⟨-, rfl⟩ | ⟨e, -, rfl⟩
    · rw [get_spawned] at hget
      split at hget
      next heq =>
        cases hget
        exact .spawned (heq ▸ hnew) rfl hparent hsignals
      next => exact .of_get hget
    rw [get_takenBack hnew] at hget
    exact .of_get hget
  | removed => exact .of_get (get_of_get_clear hget)

end System

/-! ### The system with its threads -/

/-- The system with the threads of its processes. -/
structure ThreadedSystem where
  base : System
  threads : ℕ → ThreadRecord

/-- What can happen: the kernel acts, a thread makes a call about signals, and the host
unblocks everything in a forked child. -/
inductive ThreadedAction
  | kernel (a : Action)
  | signal (pid tid : ℕ) (op : SignalOp)
  | resetMask (pid : ℕ)

namespace ThreadedSystem

/-- The system before any process exists. -/
def boot : ThreadedSystem := ⟨.boot, fun _ => .single⟩

/-- A process with its threads. -/
def process (s : ThreadedSystem) (pid : ℕ) : Option ThreadedProcess :=
  (s.base.procs.get pid).map fun p => ⟨p, s.threads pid⟩

/-- Put a process back. -/
def put (s : ThreadedSystem) (pid : ℕ) (p : ThreadedProcess) : ThreadedSystem :=
  ⟨{ s.base with procs := s.base.procs.put pid (some p.toProcess) },
    Function.update s.threads pid p.toThreadRecord⟩

/-- The threads when the kernel has acted: a new process and one after exec have their main
thread only. -/
def threadsAfter (s : ThreadedSystem) (a : Action) (r : Except Errno Reply) (pid : ℕ) :
    ThreadRecord :=
  if s.base.procs.get pid = none ∨ a = .exec pid ∧ r = .ok .done then .single else s.threads pid

/-- One step; a call of the kernel that does not return changes nothing. -/
def next (M : Machine) (s : ThreadedSystem) : ThreadedAction → ThreadedSystem
  | .kernel a =>
    match s.base.step M a with
    | none => s
    | some (r, base) => ⟨base, s.threadsAfter a r⟩
  | .signal pid tid op =>
    match s.process pid with
    | none => s
    | some p => s.put pid (op.run tid p).2
  | .resetMask pid =>
    match s.process pid with
    | none => s
    | some p => s.put pid p.resetSignalMask

theorem process_put (s : ThreadedSystem) (pid : ℕ) (p : ThreadedProcess) (q : ℕ) :
    (s.put pid p).process q = if q = pid then some p else s.process q := by
  simp only [process, put, get_put]
  split_ifs with hq
  · rw [hq, Function.update_self]
    rfl
  · rw [Function.update_of_ne hq]

end ThreadedSystem

end PosixKernel
