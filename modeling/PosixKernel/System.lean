import PosixKernel.Exec
import PosixKernel.Net
import PosixKernel.ProcessTable
import Mathlib.Logic.Relation

/-!
# The System as a State Machine

Every call of every process and every operation on the process table, as one step
function on the whole system, and the runs of the system. A step may fail, may have no
result because the host keeps a loop of the kernel busy, and may leave a state that the
machine cannot hold; only states that fit are reached.

## Main results

* `System.Run.invariant` — what every admitted step preserves holds in every state that a
  run of such steps reaches.
-/

namespace PosixKernel

/-- What the kernel runs on: the host, and the texts that the `/proc` and `/dev` trees
show. -/
structure Machine where
  host : HostIO
  render : Process → ProcfsEntry → Option Bytes
  devfsGetdents64 : PtyTable → Process → Bytes → ℕ → ℤ → Except Errno DirPart
  procfsGetdents64 : List ℕ → Process → Bytes → ℕ → ℤ → Except Errno DirPart

/-- A machine on a given host whose trees are empty. -/
def Machine.on (H : HostIO) : Machine where
  host := H
  render _ _ := none
  devfsGetdents64 _ _ _ _ _ := .error .ENOENT
  procfsGetdents64 _ _ _ _ _ := .error .ENOENT

/-- What the trees show in a state of the system. -/
def Machine.env (M : Machine) (s : System) : ProcfsEnv :=
  let pids := s.procs.entries.map Prod.fst
  { allPids := pids
    render := M.render
    foreign := fun pid entry => (s.procs.get pid).bind fun p => M.render p entry
    devfsGetdents64 := M.devfsGetdents64 s.kernel.ptys
    procfsGetdents64 := M.procfsGetdents64 pids
    foreignGetdents64 := fun pid path len off =>
      (s.procs.get pid).bind fun p => (M.procfsGetdents64 pids p path len off).toOption }

/-! ### Calls of one process -/

/-- What a call returns. -/
inductive Reply
  | done
  | num (n : ℤ)
  | pair (a b : ℤ)
  | data (bytes : Bytes)
  deriving DecidableEq

/-- The system calls. `fuel` bounds the number of directory entries that one call asks of
the host. -/
inductive Call
  | open (path : Bytes) (oflags mode : UInt32)
  | close (fd : ℤ)
  | dup (fd : ℤ)
  | dup2 (oldfd newfd : ℤ)
  | fcntlSetFd (fd : ℤ) (flags : UInt32)
  | pipe
  | socket (domain sockType protocol : UInt32)
  | socketpair (domain sockType : UInt32)
  | bind (fd : ℤ) (addr : Bytes)
  | listen (fd : ℤ)
  | accept (fd : ℤ)
  | connect (fd : ℤ) (addr : Bytes)
  | shutdown (fd : ℤ) (how : UInt32)
  | eventfd2 (initval flags : UInt32)
  | epollCreate1 (flags : UInt32)
  | timerfdCreate (clockId flags : UInt32)
  | signalfd4 (fd : ℤ) (mask : UInt64) (flags : UInt32)
  | memfdCreate (name : Bytes) (flags : UInt32)
  | chdir (path : Bytes)
  | fchdir (fd : ℤ)
  | lseek (fuel : ℕ) (fd offset : ℤ) (whence : UInt32)
  | getdents64 (fuel : ℕ) (fd : ℤ) (bufLen : ℕ)
  | setrlimit (resource : ℕ) (soft hard : UInt64)
  deriving DecidableEq

/-- The outcome of a call: none if the call does not return. -/
abbrev Outcome (σ : Type) := Option (Except Errno Reply × σ)

/-- The outcome of a call that returns. -/
def answer {α : Type} (f : α → Reply) (r : Except Errno α × Ctx) : Outcome Ctx :=
  some (r.1.map f, r.2)

/-- Perform a call. -/
def Call.run (H : HostIO) (E : ProcfsEnv) (c : Ctx) : Call → Outcome Ctx
  | .open path oflags mode => answer .num (sysOpen H E c path oflags mode)
  | .close fd => answer (fun _ => .done) (sysClose H c fd)
  | .dup fd => answer .num (sysDup c fd)
  | .dup2 oldfd newfd => answer .num (sysDup2 H c oldfd newfd)
  | .fcntlSetFd fd flags => answer .num (sysFcntlSetFd c fd flags)
  | .pipe => answer (fun r => .pair r.1 r.2) (sysPipe c)
  | .socket domain sockType protocol => answer .num (sysSocket c domain sockType protocol)
  | .socketpair domain sockType => answer (fun r => .pair r.1 r.2) (sysSocketpair c domain sockType)
  | .bind fd addr => answer (fun _ => .done) (sysBind H c fd addr)
  | .listen fd => answer (fun _ => .done) (sysListen c fd)
  | .accept fd => answer .num (sysAccept c fd)
  | .connect fd addr => answer (fun _ => .done) (sysConnect H c fd addr)
  | .shutdown fd how => answer (fun _ => .done) (sysShutdown c fd how)
  | .eventfd2 initval flags => answer .num (sysEventfd2 c initval flags)
  | .epollCreate1 flags => answer .num (sysEpollCreate1 c flags)
  | .timerfdCreate clockId flags => answer .num (sysTimerfdCreate c clockId flags)
  | .signalfd4 fd mask flags => answer .num (sysSignalfd4 c fd mask flags)
  | .memfdCreate name flags => answer .num (sysMemfdCreate c name flags)
  | .chdir path => answer (fun _ => .done) (sysChdir H c path)
  | .fchdir fd => answer (fun _ => .done) (sysFchdir c fd)
  | .lseek fuel fd offset whence => (sysLseek H fuel c fd offset whence).bind (answer .num)
  | .getdents64 fuel fd bufLen => (sysGetdents64 H E fuel c fd bufLen).bind (answer .data)
  | .setrlimit resource soft hard =>
    match sysSetrlimit c.proc resource soft hard with
    | .error e => some (.error e, c)
    | .ok p => some (.ok .done, { c with proc := p })

/-- Close the directory streams of a process. -/
def closeStreams (c : Ctx) : Ctx :=
  c.proc.dirStreams.entries.foldl
    (fun c e => (c.logCall (.closedir e.2.hostHandle)).updProc fun p =>
      { p with dirStreams := p.dirStreams.clear e.1 }) c

/-- Exit: the first 1024 descriptors and all directory streams are closed, and the locks
are dropped. -/
def sysExit (H : HostIO) (c : Ctx) (status : ℤ) : Ctx :=
  let c := closeStreams (closeFds H c (List.range 1024))
  c.updProc fun p =>
    { p with
      lockTable := p.lockTable.filter fun l => l.2.pid ≠ p.pid
      state := .Exited
      exitStatus := status }

/-- Death by a signal: nothing is closed. -/
def dieBySignal (c : Ctx) (signum : ℕ) : Ctx :=
  c.updProc fun p => { p with state := .Exited, exitStatus := 128 + signum }

/-! ### Steps -/

/-- What can happen in the system. -/
inductive Action
  | create (pid : ℕ)
  | call (pid : ℕ) (call : Call)
  | fork (parentPid childPid : ℕ)
  | spawn (parentPid : ℕ) (argv envp : List Bytes) (actions : List FileAction)
      (attrs : SpawnAttrs)
  | exec (pid : ℕ)
  | exit (pid : ℕ) (status : ℤ)
  | die (pid : ℕ) (signum : ℕ)
  | remove (pid : ℕ)
  deriving DecidableEq

namespace System

/-- Let a process act. -/
def onProcess (s : System) (pid : ℕ) (f : Ctx → Outcome Ctx) : Outcome System :=
  match s.procs.get pid with
  | none => some (.error .ESRCH, s)
  | some p => (f ⟨s.kernel, p⟩).map fun r => (r.1, s.commit pid r.2)

/-- One step of the system. -/
def step (M : Machine) (s : System) : Action → Outcome System
  | .create pid => some ((s.createProcess pid).1.map fun _ => .done, (s.createProcess pid).2)
  | .call pid call => s.onProcess pid fun c => call.run M.host (M.env s) c
  | .fork parentPid childPid =>
    some ((s.forkProcess parentPid childPid).1.map fun _ => .done,
      (s.forkProcess parentPid childPid).2)
  | .spawn parentPid argv envp actions attrs =>
    let r := s.spawnChild M.host M.env parentPid argv envp actions attrs
    some (r.1.map fun pid => .num pid, r.2)
  | .exec pid => s.onProcess pid fun c =>
      answer (fun _ => .done) (kernelExecSetup M.host (M.env s) c)
  | .exit pid status => s.onProcess pid fun c => some (.ok .done, sysExit M.host c status)
  | .die pid signum => s.onProcess pid fun c => some (.ok .done, dieBySignal c signum)
  | .remove pid =>
    some ((s.kernelRemoveProcess pid).1.map fun _ => .done, (s.kernelRemoveProcess pid).2)

end System

/-- Whatever a process does is either refused, there being no such process, or done and
put back in the table. -/
theorem System.onProcess_eq_some {s s' : System} {pid : ℕ} {f : Ctx → Outcome Ctx}
    {r : Except Errno Reply} (h : s.onProcess pid f = some (r, s')) :
    (s.procs.get pid = none ∧ r = .error .ESRCH ∧ s' = s) ∨
      ∃ p c, s.procs.get pid = some p ∧ f ⟨s.kernel, p⟩ = some (r, c) ∧ s' = s.commit pid c := by
  rw [onProcess] at h
  rcases hp : s.procs.get pid with _ | p
  · rw [hp] at h
    cases h
    exact .inl ⟨rfl, rfl, rfl⟩
  rw [hp] at h
  obtain ⟨⟨r', c⟩, hf, hr⟩ := Option.map_eq_some_iff.mp h
  cases hr
  exact .inr ⟨p, c, rfl, hf, rfl⟩

theorem System.get_commit (s : System) (pid : ℕ) (c : Ctx) (q : ℕ) :
    (s.commit pid c).procs.get q = if q = pid then some c.proc else s.procs.get q :=
  SlotTable.get_put _ _ _ _

/-- What creating a process leaves: the processes there were, and new ones. -/
theorem System.get_createProcess {s : System} {pid q : ℕ} {p : Process}
    (h : (s.createProcess pid).2.procs.get q = some p) :
    s.procs.get q = some p ∨ ∃ n argv, p = { Process.new n with argv := argv } := by
  have hinit : ∀ q p, s.ensureInit.procs.get q = some p →
      s.procs.get q = some p ∨ ∃ n argv, p = { Process.new n with argv := argv } := by
    rw [ensureInit]
    split
    · exact fun _ _ => .inl
    · exact SlotTable.forall_put (.inr ⟨1, _, rfl⟩) fun _ _ => .inl
  rw [createProcess] at h
  split at h
  · exact hinit q p h
  · exact SlotTable.forall_put (.inr ⟨pid, [], rfl⟩) hinit q p h

/-! ### What the machine can hold -/

/-- The memory of the kernel, in bytes: a table has fewer slots than that, and so is every
slot number it ever gave out. -/
def MEMORY : ℕ := 2 ^ 30

/-- A description as the machine stores it: 64-bit handle and position, 32-bit count. -/
def OpenFileDesc.Fits (o : OpenFileDesc) : Prop :=
  (-2 ^ 63 ≤ o.hostHandle ∧ o.hostHandle < 2 ^ 63) ∧ (-2 ^ 63 ≤ o.offset ∧ o.offset < 2 ^ 63) ∧
    o.refCount < 2 ^ 32

/-- A socket as the machine stores it. A host connection is named by a slot number. -/
def SocketInfo.Fits (s : SocketInfo) : Prop :=
  (∀ i ∈ s.sendBufIdx, i < MEMORY) ∧ (∀ i ∈ s.recvBufIdx, i < MEMORY) ∧
    (∀ i ∈ s.sharedBacklogIdx, i < MEMORY) ∧ ∀ h ∈ s.hostNetHandle, h ≠ -1

/-- A process as the machine stores it. -/
def Process.Fits (p : Process) : Prop :=
  (∀ e ∈ p.fdTable.entries.entries, e.1 < MEMORY ∧ e.2.ofdRef < MEMORY) ∧
    (∀ e ∈ p.ofdTable.entries, e.1 < MEMORY ∧ e.2.Fits) ∧
    ∀ e ∈ p.sockets.entries, e.1 < MEMORY ∧ e.2.Fits

/-- A state that the machine can hold. -/
def System.Fits (s : System) : Prop := ∀ e ∈ s.procs.entries, e.2.Fits

instance (o : OpenFileDesc) : Decidable o.Fits := by unfold OpenFileDesc.Fits; infer_instance

-- the handle is looked at where it is, not sought among all 32-bit numbers
instance (s : SocketInfo) : Decidable s.Fits :=
  letI : Decidable (∀ h ∈ s.hostNetHandle, h ≠ -1) := Option.decidableForallMem _
  inferInstanceAs (Decidable (_ ∧ _ ∧ _ ∧ ∀ h ∈ s.hostNetHandle, h ≠ -1))

instance (p : Process) : Decidable p.Fits := by unfold Process.Fits; infer_instance

instance (s : System) : Decidable s.Fits := by unfold System.Fits; infer_instance

namespace Process.Fits

variable {p : Process} {i : ℕ}

theorem fd (h : p.Fits) {e : FdEntry} (he : p.fdTable.entries.get i = some e) :
    i < 2 ^ 32 ∧ e.ofdRef < 2 ^ 32 := by
  have := h.1 (i, e) (SlotTable.mem_entries.mpr he)
  simp only [MEMORY] at this
  omega

theorem ofd (h : p.Fits) {o : OpenFileDesc} (ho : p.ofdTable.get i = some o) :
    i < 2 ^ 32 ∧ o.Fits := by
  have := h.2.1 (i, o) (SlotTable.mem_entries.mpr ho)
  simp only [MEMORY] at this
  exact ⟨by omega, this.2⟩

theorem socket (h : p.Fits) {s : SocketInfo} (hs : p.sockets.get i = some s) :
    i < 2 ^ 32 ∧ s.Fits := by
  have := h.2.2 (i, s) (SlotTable.mem_entries.mpr hs)
  simp only [MEMORY] at this
  exact ⟨by omega, this.2⟩

end Process.Fits

theorem System.Fits.process {s : System} (h : s.Fits) {pid : ℕ} {p : Process}
    (hp : s.procs.get pid = some p) : p.Fits :=
  h (pid, p) (SlotTable.mem_entries.mpr hp)

/-! ### Runs -/

namespace System

/-- A step that is admitted, returns, and leaves a state that fits. -/
def Next (M : Machine) (admitted : System → Action → Except Errno Reply → Prop)
    (s s' : System) : Prop :=
  ∃ a r, s.step M a = some (r, s') ∧ admitted s a r ∧ s'.Fits

/-- The runs of admitted steps. -/
def Run (M : Machine) (admitted : System → Action → Except Errno Reply → Prop) :
    System → System → Prop :=
  Relation.ReflTransGen (Next M admitted)

variable {M : Machine} {admitted : System → Action → Except Errno Reply → Prop}

/-- **Invariants of runs**: what every admitted step preserves holds in every state that
is reached. -/
theorem Run.invariant {I : System → Prop} {s s' : System} (hrun : Run M admitted s s') (hI : I s)
    (hstep : ∀ s a r s', I s → s.step M a = some (r, s') → admitted s a r → s'.Fits → I s') :
    I s' := by
  induction hrun with
  | refl => exact hI
  | tail _ hnext ih =>
    obtain ⟨a, r, hs, hadm, hfits⟩ := hnext
    exact hstep _ a r _ ih hs hadm hfits

/-- Perform actions in turn, as long as each is admitted, returns, and leaves a state that
fits. -/
def perform (M : Machine) (admitted : System → Action → Except Errno Reply → Prop)
    [∀ s a r, Decidable (admitted s a r)] (s : System) : List Action → Option System
  | [] => some s
  | a :: actions =>
    match s.step M a with
    | none => none
    | some (r, s') =>
      if admitted s a r ∧ s'.Fits then perform M admitted s' actions else none

theorem run_of_perform [∀ s a r, Decidable (admitted s a r)] {s s' : System}
    {actions : List Action} (h : perform M admitted s actions = some s') : Run M admitted s s' := by
  induction actions generalizing s with
  | nil =>
    cases h
    exact .refl
  | cons a actions ih =>
    rw [perform] at h
    rcases hs : s.step M a with _ | ⟨r, t⟩
    · rw [hs] at h
      cases h
    simp only [hs] at h
    split at h
    next hok => exact .head ⟨a, r, hs, hok.1, hok.2⟩ (ih h)
    · cases h

end System

end PosixKernel
