import PosixKernel.Lib.TwoWay
import PosixKernel.ThreadedSystem

/-!
# Parents and Children on the Host

The host's part in the life of processes (`kernel-worker.ts`, with the callbacks of
`node-kernel-worker-entry.ts`). The host passes most calls on to the kernel, but forks, spawns,
ends and waits it handles itself: it keeps the parent of every child, the children of every
parent and the statuses of children that nobody has waited for, and asks the kernel what it
needs to know about a process.

What a call does inside the kernel is an input of the step: the kernel after it, whichever
call it was. Inside the steps that report an end the kernel handles a `SIGCHLD` as well;
what it makes of one is an input too.

## Main definitions

* `Worker.handleFork`, `Worker.handleSpawnAfterResolve` — new processes;
* `Worker.handleExit`, `Worker.handleProcessTerminated`,
  `Worker.reapKilledProcessesAfterSyscall`, `Worker.finalizeProcessWorker` — ends;
* `Worker.handleWaitpid`, `Worker.handleWaitid` — waits;
* `Worker.next` — one step of the host.
-/

namespace PosixKernel

def SA_NOCLDWAIT : UInt32 := 2

def WNOHANG : UInt32 := 1

def WNOWAIT : UInt32 := 0x1000000

def P_PID : ℤ := 1

def P_ALL : ℤ := 0

def P_PGID : ℤ := 2

/-! ### What the host asks the kernel -/

namespace System

/-- The status a process ended with; negative for one that lives, and for a number without a
process. -/
def kernelGetProcessExitStatus (s : System) (pid : ℕ) : ℤ :=
  match s.procs.get pid with
  | some p => if p.state = .Exited then p.exitStatus else -1
  | none => -3

/-- Whether children of a process are reaped without a wait. -/
def kernelHasSaNocldwait (s : System) (pid : ℕ) : Bool :=
  match s.procs.get pid with
  | some p =>
    let action := p.signals.getAction SIGCHLD
    action.flags &&& SA_NOCLDWAIT ≠ 0 || action.handler = .Ignore
  | none => false

/-- The process group of a process. -/
def kernelGetpgidDirect (s : System) (pid : ℕ) : ℤ :=
  match s.procs.get pid with
  | some p => p.pgid.toInt32.toInt
  | none => -3

/-- The system after an action; one that does not return changes nothing. -/
def after (M : Machine) (s : System) (a : Action) : System :=
  match s.step M a with
  | none => s
  | some (_, s') => s'

/-- The child of a fork as the host leaves it: it is not marked as a child, and blocks
nothing. -/
def settleForkChild (s : System) (pid : ℕ) : System :=
  { s with
    procs := s.procs.modify pid fun p =>
      { p with forkChild := false, signals := { p.signals with blocked := 0 } } }

end System

/-! ### Wait statuses -/

/-- The wait status of a process that called exit. The kernel's status tells whether a signal
has ended it. -/
def exitWaitStatus (kernelExitStatus exitStatus : ℤ) : ℤ :=
  if 128 ≤ kernelExitStatus then (kernelExitStatus - 128) % 128 else exitStatus % 256 * 256

/-- The wait status of a process that the kernel says has ended. -/
def terminatedWaitStatus (exitStatus : ℤ) : ℤ :=
  let signum := if 128 ≤ exitStatus then exitStatus - 128 else 0
  if 0 < signum then signum % 128 else exitStatus % 256 * 256

/-! ### The host -/

/-- A wait that is not answered yet. -/
structure Waiter where
  parentPid : ℕ
  pid : ℤ
  options : UInt32
  isWaitid : Bool
  deriving DecidableEq

/-- The answers to waits. -/
inductive WaitAnswer
  | child (parentPid childPid : ℕ) (waitStatus : ℤ)
  | none (parentPid : ℕ)
  | echild (parentPid : ℕ)
  deriving DecidableEq

/-- The host: the kernel, the registered processes, the next number for a child, who is whose
child, the statuses nobody has waited for, the ends that are being reported, and the waits
with the answers given. -/
structure Worker where
  kernel : System
  processes : List ℕ
  nextChildPid : ℕ
  childToParent : SlotTable ℕ
  parentToChildren : SlotTable (List ℕ)
  exitedChildren : SlotTable ℤ
  hostReaped : List ℕ
  waitingForChild : List Waiter
  answers : List WaitAnswer

namespace Worker

/-- The host before any process exists. -/
def boot : Worker where
  kernel := .boot
  processes := []
  nextChildPid := 100
  childToParent := .empty
  parentToChildren := .empty
  exitedChildren := .empty
  hostReaped := []
  waitingForChild := []
  answers := []

/-- The children of a process. -/
def children (w : Worker) (pid : ℕ) : List ℕ := w.parentToChildren.members pid

/-- Give an answer. -/
def answer (w : Worker) (a : WaitAnswer) : Worker := { w with answers := w.answers ++ [a] }

/-! ### Registration -/

/-- Register a process that the kernel has. -/
def register (w : Worker) (pid : ℕ) : Worker :=
  { w with
    hostReaped := w.hostReaped.filter (· ≠ pid)
    processes := addOnce w.processes pid }

/-- Create and register a process; a number in use is refused. -/
def registerProcess (w : Worker) (pid : ℕ) : Worker :=
  match w.kernel.createProcess pid with
  | (.error _, k) => { w with kernel := k, hostReaped := w.hostReaped.filter (· ≠ pid) }
  | (.ok _, k) => { w with kernel := k }.register pid

/-- Forget the channels of a process about to exec. -/
def prepareProcessForExec (w : Worker) (pid : ℕ) : Worker :=
  { w with processes := w.processes.filter (· ≠ pid) }

/-- Forget the channels of a process that has ended; it stays in the kernel. -/
def deactivateProcess (w : Worker) (pid : ℕ) : Worker :=
  { w with
    processes := w.processes.filter (· ≠ pid)
    hostReaped := w.hostReaped.filter (· ≠ pid) }

/-- Take a process out of the kernel. -/
def removeFromKernelProcessTable (w : Worker) (pid : ℕ) : Worker :=
  { w with kernel := (w.kernel.kernelRemoveProcess pid).2 }

/-- Forget a process altogether. -/
def unregisterProcess (w : Worker) (pid : ℕ) : Worker :=
  (w.removeFromKernelProcessTable pid).prepareProcessForExec pid

/-! ### New processes -/

/-- The first number from the next one on that no process is registered under. -/
def freeChildPid (w : Worker) : ℕ :=
  (((List.range (w.processes.length + 1)).map (w.nextChildPid + ·)).find?
    (· ∉ w.processes)).getD w.nextChildPid

/-- Record a child of a process. -/
def recordChild (w : Worker) (parentPid childPid : ℕ) : Worker :=
  { w with
    childToParent := w.childToParent.put childPid (some parentPid)
    parentToChildren := w.parentToChildren.enlist parentPid childPid }

/-- `fork`, up to the start of the child's worker. -/
def handleFork (w : Worker) (parentPid : ℕ) : Except Errno ℕ × Worker :=
  let childPid := w.freeChildPid
  let w := { w with nextChildPid := childPid + 1 }
  match w.kernel.forkProcess parentPid childPid with
  | (.error e, k) => (.error e, { w with kernel := k })
  | (.ok _, k) =>
    (.ok childPid, { w with kernel := k.settleForkChild childPid }.recordChild parentPid childPid)

/-- The child's worker could not be started after a `fork`. -/
def onForkRejected (w : Worker) (childPid : ℕ) : Worker := w.removeFromKernelProcessTable childPid

/-- `posix_spawn` of a program that was found, up to the start of the child's worker. -/
def handleSpawnAfterResolve (M : Machine) (w : Worker) (parentPid : ℕ) (argv envp : List Bytes)
    (actions : List FileAction) (attrs : SpawnAttrs) : Except Errno ℕ × Worker :=
  match w.kernel.spawnChild M.host M.env parentPid argv envp actions attrs with
  | (.error e, k) => (.error e, { w with kernel := k })
  | (.ok childPid, k) =>
    (.ok childPid,
      { w with
        kernel := k
        nextChildPid := if w.nextChildPid ≤ childPid then childPid + 1 else w.nextChildPid
        }.recordChild parentPid childPid)

/-- The child's worker could not be started after a `posix_spawn`. -/
def onSpawnFailed (w : Worker) (parentPid childPid : ℕ) : Worker :=
  let w := w.removeFromKernelProcessTable childPid
  { w with
    childToParent := w.childToParent.clear childPid
    parentToChildren := w.parentToChildren.strike parentPid childPid }

/-! ### Waits -/

/-- The process group of a process, or its number if there is none. -/
def getProcessPgid (w : Worker) (pid : ℕ) : ℤ :=
  if 0 ≤ w.kernel.kernelGetpgidDirect pid then w.kernel.kernelGetpgidDirect pid else pid

/-- Whether a wait is for a child. -/
def childMatchesWaitTarget (w : Worker) (childPid : ℕ) (targetPid : ℤ) (parentPid : ℕ) : Bool :=
  if 0 < targetPid then childPid = targetPid
  else if targetPid = -1 then true
  else if targetPid = 0 then w.getProcessPgid childPid = w.getProcessPgid parentPid
  else w.getProcessPgid childPid = -targetPid

/-- Whether the status of a child is kept. -/
def hasExited (w : Worker) (childPid : ℕ) : Bool := (w.exitedChildren.get childPid).isSome

/-- The first ended child that a wait is for. -/
def findExitedChild (w : Worker) (parentPid : ℕ) (targetPid : ℤ) : Option ℕ :=
  (w.children parentPid).find? fun c =>
    w.hasExited c && w.childMatchesWaitTarget c targetPid parentPid

/-- Whether a child that a wait is for has not ended. -/
def hasMatchingLivingChild (w : Worker) (parentPid : ℕ) (targetPid : ℤ) : Bool :=
  (w.children parentPid).any fun c =>
    !w.hasExited c && w.childMatchesWaitTarget c targetPid parentPid

/-- A wait takes an ended child. -/
def consumeExitedChild (w : Worker) (parentPid childPid : ℕ) : Worker :=
  let w := { w with
    exitedChildren := w.exitedChildren.clear childPid
    childToParent := w.childToParent.clear childPid }
  let w := w.removeFromKernelProcessTable childPid
  { w with parentToChildren := w.parentToChildren.strikeOff parentPid childPid }

/-- Answer a wait with an ended child, and take the child unless it is to stay. -/
def giveChild (w : Worker) (parentPid childPid : ℕ) (waitStatus : ℤ) (keep : Bool) : Worker :=
  (if keep then w else w.consumeExitedChild parentPid childPid).answer
    (.child parentPid childPid waitStatus)

/-- `wait4`. -/
def handleWaitpid (w : Worker) (parentPid : ℕ) (targetPid : ℤ) (options : UInt32) : Worker :=
  if (w.children parentPid).isEmpty then w.answer (.echild parentPid)
  else
    match w.findExitedChild parentPid targetPid with
    | some childPid =>
      w.giveChild parentPid childPid ((w.exitedChildren.get childPid).getD 0) false
    | none =>
      if !w.hasMatchingLivingChild parentPid targetPid then w.answer (.echild parentPid)
      else if hasFlag options WNOHANG then w.answer (.none parentPid)
      else
        { w with waitingForChild := w.waitingForChild ++ [⟨parentPid, targetPid, options, false⟩] }

/-- The children that `waitid` asks about. -/
def waitidMatches (w : Worker) (parentPid : ℕ) (idtype id : ℤ) (childPid : ℕ) : Bool :=
  if idtype = P_PID then childPid = id
  else if idtype = P_PGID then
    w.getProcessPgid childPid = if id = 0 then w.getProcessPgid parentPid else id
  else true

/-- The ended child that `waitid` finds; an unknown kind of number finds none. -/
def findWaitidChild (w : Worker) (parentPid : ℕ) (idtype id : ℤ) : Option ℕ :=
  if idtype = P_PID ∨ idtype = P_ALL ∨ idtype = P_PGID then
    (w.children parentPid).find? fun c => w.hasExited c && w.waitidMatches parentPid idtype id c
  else none

/-- The number under which a `waitid` waits. -/
def waitidTarget (idtype id : ℤ) : ℤ :=
  if idtype = P_PID then id else if idtype = P_PGID then if id = 0 then 0 else -id else -1

/-- `waitid`. -/
def handleWaitid (w : Worker) (parentPid : ℕ) (idtype id : ℤ) (options : UInt32) : Worker :=
  if (w.children parentPid).isEmpty then w.answer (.echild parentPid)
  else
    match w.findWaitidChild parentPid idtype id with
    | some childPid =>
      w.giveChild parentPid childPid ((w.exitedChildren.get childPid).getD 0)
        (hasFlag options WNOWAIT)
    | none =>
      if !(w.children parentPid).any fun c =>
          !w.hasExited c && w.waitidMatches parentPid idtype id c then
        w.answer (.echild parentPid)
      else if hasFlag options WNOHANG then w.answer (.none parentPid)
      else
        { w with
          waitingForChild := w.waitingForChild ++
            [⟨parentPid, waitidTarget idtype id, options, true⟩] }

end Worker

/-- A call of `wait4` or `waitid`. -/
inductive WaitCall
  | wait4 (parentPid : ℕ) (targetPid : ℤ) (options : UInt32)
  | waitid (parentPid : ℕ) (idtype id : ℤ) (options : UInt32)

namespace WaitCall

def parentPid : WaitCall → ℕ
  | .wait4 p _ _ | .waitid p _ _ _ => p

/-- The children that a call asks for. -/
def wants (w : Worker) (c : ℕ) : WaitCall → Bool
  | .wait4 p target _ => w.childMatchesWaitTarget c target p
  | .waitid p idtype id _ => w.waitidMatches p idtype id c

/-- Whether a call leaves the child that it is answered with. -/
def keeps : WaitCall → Bool
  | .wait4 .. => false
  | .waitid _ _ _ options => hasFlag options WNOWAIT

/-- What the host keeps of a call that it puts off. -/
def waiter : WaitCall → Waiter
  | .wait4 p target options => ⟨p, target, options, false⟩
  | .waitid p idtype id options => ⟨p, Worker.waitidTarget idtype id, options, true⟩

end WaitCall

namespace Worker

/-- A wait. -/
def handleWait (w : Worker) : WaitCall → Worker
  | .wait4 parentPid targetPid options => w.handleWaitpid parentPid targetPid options
  | .waitid parentPid idtype id options => w.handleWaitid parentPid idtype id options

/-- Whether a `waitid` is put off. -/
def defersWaitid (w : Worker) (parentPid : ℕ) (idtype id : ℤ) (options : UInt32) : Bool :=
  (w.findWaitidChild parentPid idtype id).isNone &&
    ((w.children parentPid).any fun c =>
      !w.hasExited c && w.waitidMatches parentPid idtype id c) && !hasFlag options WNOHANG

/-- Whether a wait is put off. -/
def defers (w : Worker) : WaitCall → Bool
  | .wait4 parentPid target options =>
    (w.findExitedChild parentPid target).isNone && w.hasMatchingLivingChild parentPid target &&
      !hasFlag options WNOHANG
  | .waitid parentPid idtype id options => w.defersWaitid parentPid idtype id options

/-- **What becomes of a wait**: it is answered without a child, or with a child that it asks for and
that has ended, or it is put off. -/
theorem handleWait_cases (w : Worker) (call : WaitCall) :
    (∃ a, (a = .echild call.parentPid ∨ a = .none call.parentPid) ∧
        w.handleWait call = w.answer a) ∨
      (∃ c ∈ w.children call.parentPid, w.hasExited c = true ∧ call.wants w c = true ∧
        w.handleWait call = w.giveChild call.parentPid c ((w.exitedChildren.get c).getD 0)
          call.keeps) ∨
      w.defers call = true ∧
        w.handleWait call = { w with waitingForChild := w.waitingForChild ++ [call.waiter] } := by
  cases call with
  | wait4 =>
    simp only [handleWait]
    fun_cases handleWaitpid with
    | case1 | case3 => exact .inl ⟨_, .inl rfl, rfl⟩
    | case2 _ c hfound =>
      have hc := List.find?_some hfound
      rw [Bool.and_eq_true] at hc
      exact .inr (.inl ⟨c, List.mem_of_find?_eq_some hfound, hc.1, hc.2, rfl⟩)
    | case4 => exact .inl ⟨_, .inr rfl, rfl⟩
    | case5 _ hnone hliving hhang =>
      refine .inr (.inr ⟨?_, rfl⟩)
      simp only [Bool.not_eq_true, Bool.not_eq_false'] at hliving
      rw [defers, hnone, hliving, eq_false_of_ne_true hhang]
      rfl
  | waitid =>
    simp only [handleWait]
    fun_cases handleWaitid with
    | case1 | case3 => exact .inl ⟨_, .inl rfl, rfl⟩
    | case2 _ c hfound =>
      rw [findWaitidChild] at hfound
      split at hfound
      · have hc := List.find?_some hfound
        rw [Bool.and_eq_true] at hc
        exact .inr (.inl ⟨c, List.mem_of_find?_eq_some hfound, hc.1, hc.2, rfl⟩)
      · cases hfound
    | case4 => exact .inl ⟨_, .inr rfl, rfl⟩
    | case5 _ hnone hliving hhang =>
      refine .inr (.inr ⟨?_, rfl⟩)
      simp only [Bool.not_eq_true, Bool.not_eq_false'] at hliving
      rw [defers, defersWaitid, hnone, hliving, eq_false_of_ne_true hhang]
      rfl

/-- Whether a wait for a process group has lost its last child. -/
def lostChildren (w : Worker) (x : Waiter) : Bool :=
  (x.pid = 0 || x.pid < -1) && !w.hasMatchingLivingChild x.parentPid x.pid &&
    (w.findExitedChild x.parentPid x.pid).isNone

/-- Answer the waits for process groups that have no child left. -/
def recheckDeferredWaitpids (w : Worker) : Worker :=
  { w with
    waitingForChild := w.waitingForChild.filter fun x => !w.lostChildren x
    answers := w.answers ++
      (w.waitingForChild.filter w.lostChildren).reverse.map fun x => .echild x.parentPid }

/-- Wake a parent that waits for a child. -/
def wakeWaitingParent (w : Worker) (parentPid childPid : ℕ) (waitStatus : ℤ) : Worker :=
  let woken (x : Waiter) : Bool :=
    x.parentPid = parentPid && w.childMatchesWaitTarget childPid x.pid parentPid
  match w.waitingForChild.find? woken with
  | none => w
  | some waiter =>
    { w with waitingForChild := w.waitingForChild.eraseP woken }.giveChild parentPid childPid
      waitStatus (waiter.isWaitid && hasFlag waiter.options WNOWAIT)

/-! ### Ends -/

section Ends

variable (M : Machine) (sigchld : System → ℕ → System)

/-- Send `SIGCHLD` to a process, if it is registered. -/
def sendSigchld (w : Worker) (pid : ℕ) : Worker :=
  if pid ∈ w.processes then { w with kernel := sigchld w.kernel pid } else w

/-- Report the end of a process to its parent. -/
def reportEnd (w : Worker) (exitingPid : ℕ) (waitStatus : ℤ) : Worker :=
  match w.childToParent.get exitingPid with
  | none => w
  | some parentPid =>
    if w.kernel.kernelHasSaNocldwait parentPid then
      -- the list of the parent's children is not touched
      { w with childToParent := w.childToParent.clear exitingPid }
    else
      ({ w with exitedChildren := w.exitedChildren.put exitingPid (some waitStatus) }.sendSigchld
        sigchld parentPid).wakeWaitingParent parentPid exitingPid waitStatus

/-- `exit` of the main thread, and `exit_group`. -/
def handleExit (w : Worker) (exitingPid : ℕ) (exitStatus : ℤ) : Worker :=
  let w := { w with kernel := w.kernel.after M (.exit exitingPid exitStatus) }
  if exitingPid ∈ w.hostReaped then w.deactivateProcess exitingPid
  else
    ({ w with hostReaped := addOnce w.hostReaped exitingPid }.reportEnd sigchld exitingPid
      (exitWaitStatus (w.kernel.kernelGetProcessExitStatus exitingPid) exitStatus)
      ).deactivateProcess exitingPid

/-- The end of a process that a signal has ended. -/
def handleProcessTerminated (w : Worker) (exitingPid : ℕ) (waitStatus : ℤ) : Worker :=
  if exitingPid ∈ w.hostReaped then w
  else
    ({ w with hostReaped := addOnce w.hostReaped exitingPid }.reportEnd sigchld exitingPid
      waitStatus).deactivateProcess exitingPid

/-- After a call and before a retry the host asks whether the caller has ended: the host once
it has reported the end, if so. -/
def noticeDeath (w : Worker) (pid : ℕ) : Option Worker :=
  let exitStatus := w.kernel.kernelGetProcessExitStatus pid
  if 0 ≤ exitStatus then
    some (w.handleProcessTerminated sigchld pid (terminatedWaitStatus exitStatus))
  else none

/-- One process of the loop that looks for processes that a signal has ended. -/
def reapKilled (w : Worker) (pid : ℕ) : Worker :=
  let status := w.kernel.kernelGetProcessExitStatus pid
  if status < 0 then w
  else if pid ∈ w.hostReaped then w
  else if pid ∈ w.processes then
    w.handleProcessTerminated sigchld pid (terminatedWaitStatus status)
  else w

/-- Report the ends of all processes that a signal has ended. -/
def reapKilledProcessesAfterSyscall (w : Worker) : Worker :=
  w.processes.foldl (reapKilled sigchld) w

/-- The worker of a process has died. -/
def notifyHostProcessCrashed (w : Worker) (pid : ℕ) (signum : ℤ) : Worker :=
  if pid ∈ w.hostReaped then w
  else { w with hostReaped := addOnce w.hostReaped pid }.reportEnd sigchld pid (signum % 128)

/-- The worker of a process has died, and is taken down. -/
def finalizeProcessWorker (w : Worker) (pid : ℕ) : Worker :=
  if pid ∈ w.processes then (w.notifyHostProcessCrashed sigchld pid 11).deactivateProcess pid
  else w

end Ends

end Worker

/-! ### Steps -/

/-- What can happen on the host. A call that goes to the kernel comes with the kernel after
it: `syscall` is one after which the host asks whether the caller has ended, `kill` also has
the processes looked through that it may have ended, `setpgid` also has the waits looked
through, and after `unwatched` the host asks nothing. -/
inductive WorkerAction
  | create (pid : ℕ)
  | register (pid : ℕ)
  | prepareExec (pid : ℕ)
  | syscall (pid : ℕ) (kernel : System)
  | kill (pid : ℕ) (kernel : System) (ok : Bool)
  | setpgid (pid : ℕ) (kernel : System) (ok : Bool)
  | unwatched (kernel : System)
  | retry (pid : ℕ)
  | fork (parentPid : ℕ)
  | forkRejected (childPid : ℕ)
  | spawn (parentPid : ℕ) (argv envp : List Bytes) (actions : List FileAction)
      (attrs : SpawnAttrs)
  | spawnFailed (parentPid childPid : ℕ)
  | exit (pid : ℕ) (status : Int32)
  | crashed (pid : ℕ)
  | unregister (pid : ℕ)
  | wait4 (parentPid : ℕ) (targetPid : ℤ) (options : UInt32)
  | waitid (parentPid : ℕ) (idtype id : ℤ) (options : UInt32)

/-- A step: what happens, and what the kernel makes of every `SIGCHLD` sent in the course of
it. -/
structure WorkerEvent where
  action : WorkerAction
  sigchld : System → ℕ → System

namespace Worker

/-- The host after a call that the kernel has performed. -/
def performed (w : Worker) (sigchld : System → ℕ → System) (pid : ℕ) (kernel : System)
    (andThen : Worker → Worker) : Worker :=
  let w := { w with kernel := kernel }
  (w.noticeDeath sigchld pid).getD (andThen w)

/-- One step of the host. -/
def next (M : Machine) (w : Worker) (e : WorkerEvent) : Worker :=
  match e.action with
  | .create pid => w.registerProcess pid
  | .register pid => w.register pid
  | .prepareExec pid => w.prepareProcessForExec pid
  | .syscall pid kernel => w.performed e.sigchld pid kernel id
  | .kill pid kernel ok => w.performed e.sigchld pid kernel fun w =>
      if ok then w.reapKilledProcessesAfterSyscall e.sigchld else w
  | .setpgid pid kernel ok => w.performed e.sigchld pid kernel fun w =>
      if ok then w.recheckDeferredWaitpids else w
  | .unwatched kernel => { w with kernel := kernel }
  | .retry pid => (w.noticeDeath e.sigchld pid).getD w
  | .fork parentPid => (w.handleFork parentPid).2
  | .forkRejected childPid => w.onForkRejected childPid
  | .spawn parentPid argv envp actions attrs =>
    (w.handleSpawnAfterResolve M parentPid argv envp actions attrs).2
  | .spawnFailed parentPid childPid => w.onSpawnFailed parentPid childPid
  | .exit pid status => w.handleExit M e.sigchld pid status.toInt
  | .crashed pid => w.finalizeProcessWorker e.sigchld pid
  | .unregister pid => w.unregisterProcess pid
  | .wait4 parentPid targetPid options => w.handleWaitpid parentPid targetPid options
  | .waitid parentPid idtype id options => w.handleWaitid parentPid idtype id options

/-! ### What a report does -/

/-- The host with the status of a child stored, and a kernel that has handled the `SIGCHLD`. -/
def ended (w : Worker) (k : System) (c : ℕ) (st : ℤ) : Worker :=
  { w with kernel := k, exitedChildren := w.exitedChildren.put c (some st) }

/-- The end of a process is reported to a parent that does not reap its children without a
wait: the status is kept, and given to a wait of the parent if there is one. -/
theorem reportEnd_of_parent (sigchld : System → ℕ → System) {w : Worker} {pid parentPid : ℕ}
    (hparent : w.childToParent.get pid = some parentPid)
    (hauto : w.kernel.kernelHasSaNocldwait parentPid = false) (status : ℤ) :
    ∃ k, (k = w.kernel ∨ k = sigchld w.kernel parentPid) ∧
      w.reportEnd sigchld pid status =
        (w.ended k pid status).wakeWaitingParent parentPid pid status := by
  rw [reportEnd, hparent]
  simp only [hauto, Bool.false_eq_true, if_false, sendSigchld]
  split
  · exact ⟨_, .inr rfl, rfl⟩
  · exact ⟨_, .inl rfl, rfl⟩

theorem wakeWaitingParent_cases (w : Worker) (parentPid childPid : ℕ) (status : ℤ) :
    w.wakeWaitingParent parentPid childPid status = w ∨
      ∃ waiting keep, w.wakeWaitingParent parentPid childPid status =
        { w with waitingForChild := waiting }.giveChild parentPid childPid status keep := by
  simp only [wakeWaitingParent]
  split
  · exact .inl rfl
  · exact .inr ⟨_, _, rfl⟩

/-- **What a report does**: nothing for a process that is nobody's child; one table forgets the
child of a parent that reaps its children without a wait; otherwise the status is kept. -/
theorem reportEnd_cases (sigchld : System → ℕ → System) (w : Worker) (pid : ℕ) (status : ℤ) :
    (w.childToParent.get pid = none ∧ w.reportEnd sigchld pid status = w) ∨
      ∃ parentPid, w.childToParent.get pid = some parentPid ∧
        (w.kernel.kernelHasSaNocldwait parentPid = true ∧
            w.reportEnd sigchld pid status =
              { w with childToParent := w.childToParent.clear pid } ∨
          w.kernel.kernelHasSaNocldwait parentPid = false) := by
  rcases hparent : w.childToParent.get pid with _ | parentPid
  · refine .inl ⟨rfl, ?_⟩
    rw [reportEnd, hparent]
  refine .inr ⟨parentPid, rfl, ?_⟩
  cases hauto : w.kernel.kernelHasSaNocldwait parentPid with
  | true =>
    refine .inl ⟨rfl, ?_⟩
    rw [reportEnd, hparent]
    simp [hauto]
  | false => exact .inr rfl

end Worker

end PosixKernel
