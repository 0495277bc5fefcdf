import PosixKernel.Create
import PosixKernel.Dir
import PosixKernel.Fork
import PosixKernel.Resources

/-!
# The Process Table

Creating, forking, spawning and removing processes (`process_table.rs`). A new process
counts as a further holder of everything it inherits; a process that is removed gives
back what it holds, except for its host file handles.
-/

namespace PosixKernel

open OpenFileDesc

/-- The system: the shared state and the processes, by pid. -/
structure System where
  kernel : Kernel
  procs : SlotTable Process

namespace System

/-- The system before any process exists. -/
def boot : System := ⟨.boot, .empty⟩

/-- The virtual first process, which runs nothing. -/
def ensureInit (s : System) : System :=
  match s.procs.get 1 with
  | some _ => s
  | none => { s with procs := s.procs.put 1 (some { Process.new 1 with argv := [ascii "init"] }) }

/-- Create a process. -/
def createProcess (s : System) (pid : ℕ) : Except Errno Unit × System :=
  let s := s.ensureInit
  match s.procs.get pid with
  | some _ => (.error .EEXIST, s)
  | none => (.ok (), { s with procs := s.procs.put pid (some (Process.new pid)) })

end System

/-! ### Inheriting -/

/-- What a new process takes, in the order in which it is counted. -/
def Process.inherited (child : Process) : List Resource :=
  child.ofdTable.values.flatMap pipeEnds ++
    child.ofdTable.values.flatMap hostFiles ++
    child.ofdTable.values.flatMap ptySides ++
    child.ofdTable.values.flatMap (socketEnds child.sockets) ++
    child.sockets.values.flatMap SocketInfo.shared

/-- Count a new process as a holder of everything it inherits. -/
def bumpInheritedResourceRefcounts (k : Kernel) (child : Process) : Kernel :=
  child.inherited.foldl Kernel.take k

/-- The descriptors open on global pipes, with the pipe and the end. -/
def pipeFds (p : Process) : List (ℕ × ℕ × PipeEnd) :=
  (List.range 1024).filterMap fun fd =>
    match p.fdTable.entries.get fd with
    | none => none
    | some e =>
      match p.ofdTable.get e.ofdRef with
      | none => none
      | some o =>
        if o.fileType = .Pipe ∧ o.hostHandle < 0 then
          some (fd, handleSlot o.hostHandle, pipeEndOf o.statusFlags)
        else none

/-- The last descriptor on an end of a pipe. -/
def lastPipeFd (fds : List (ℕ × ℕ × PipeEnd)) (idx : ℕ) (e : PipeEnd) : ℤ :=
  ((fds.filter fun f => f.2.1 = idx ∧ f.2.2 = e).getLast?.map fun f => (f.1 : ℤ)).getD (-1)

/-- The descriptors that a forked child hands out again when it repeats the calls that
created its pipes, in the order of the pipes. -/
def buildForkPipeReplay (child : Process) : List (ℤ × ℤ) :=
  let fds := pipeFds child
  let idxs := (fds.map fun f => f.2.1).dedup.insertionSort (· ≤ ·)
  idxs.map fun i => (lastPipeFd fds i .read, lastPipeFd fds i .write)

/-! ### Removing -/

/-- The pipe ends of the connections that wait in a socket's own queue. -/
def SocketInfo.backlogEnds (sockets : SocketTable) (s : SocketInfo) : List Resource :=
  s.listenBacklog.flatMap fun i =>
    match sockets.get i with
    | none => []
    | some waiting => waiting.pipeEnds

/-- What goes with a description on a socket when its process is removed. -/
def OpenFileDesc.removedSocketEnds (sockets : SocketTable) (o : OpenFileDesc) : List Resource :=
  if o.fileType = .Socket ∧ o.hostHandle < 0 then
    match sockets.get (handleSlot o.hostHandle) with
    | none => []
    | some s => s.pipeEnds ++ s.backlogEnds sockets
  else []

/-- What a removed process gives back, in the order in which it is counted. Host file
handles are not among it. -/
def Process.returned (p : Process) : List Resource :=
  p.ofdTable.values.flatMap pipeEnds ++
    p.ofdTable.values.flatMap ptySides ++
    p.ofdTable.values.flatMap (removedSocketEnds p.sockets) ++
    p.sockets.values.flatMap SocketInfo.shared

/-- Take the local sockets of a process out of the registry. -/
def cleanupUnix (pid : ℕ) (k : Kernel) : Kernel :=
  { k with
    unixRegistry := k.unixRegistry.entries.foldl
      (fun m e => if e.2.pid = pid then m.erase e.1 else m) k.unixRegistry }

namespace System

/-- Remove a process from the table and give back what it held. The host connections that
nobody shares are closed last, which is when their counts are dropped here. -/
def removeProcess (s : System) (pid : ℕ) : Option System :=
  match s.procs.get pid with
  | none => none
  | some p =>
    some ⟨cleanupUnix pid (p.returned.foldl Kernel.drop s.kernel), s.procs.clear pid⟩

/-- Remove a process that has ended, with the devices it owned. -/
def kernelRemoveProcess (s : System) (pid : ℕ) : Except Errno Unit × System :=
  match s.removeProcess pid with
  | none => (.error .ESRCH, s)
  | some s =>
    (.ok (), { s with
      kernel := maybeReleaseDsp pid (maybeReleaseMice pid (maybeReleaseFb0 pid s.kernel)) })

/-! ### Forking -/

/-- Fork a process through the fork state. -/
def forkProcess (s : System) (parentPid childPid : ℕ) : Except Errno Unit × System :=
  match s.procs.get childPid with
  | some _ => (.error .EEXIST, s)
  | none =>
    match s.procs.get parentPid with
    | none => (.error .ESRCH, s)
    | some parent =>
      match serializeForkState parent FORK_BUF_LEN with
      | .error e => (.error e, s)
      | .ok bytes =>
        match deserializeForkState bytes childPid with
        | .error e => (.error e, s)
        | .ok child =>
          let child := { child with forkPipeReplay := buildForkPipeReplay child }
          let procs := s.procs.put childPid (some child)
          (.ok (), ⟨bumpInheritedResourceRefcounts s.kernel child,
            procs.modify parentPid fun p => { p with forkCount := p.forkCount + 1 }⟩)

end System

/-! ### Spawning -/

/-- A file action of a spawn. -/
inductive FileAction
  | Open (fd : Int32) (path : Bytes) (oflag : Int32) (mode : UInt32)
  | Close (fd : Int32)
  | Dup2 (srcfd fd : Int32)
  | Chdir (path : Bytes)
  | Fchdir (fd : Int32)
  deriving DecidableEq

/-- The attributes of a spawn. -/
structure SpawnAttrs where
  flags : UInt32
  pgrp : Int32
  sigdef : UInt64
  sigmask : UInt64
  deriving DecidableEq

def SETPGROUP : UInt32 := 0x02
def SETSIGDEF : UInt32 := 0x04
def SETSIGMASK : UInt32 := 0x08
def SETSID : UInt32 := 0x80

def SpawnAttrs.empty : SpawnAttrs := ⟨0, 0, 0, 0⟩

/-- Whether a signal is in a mask whose lowest bit stands for signal 1. -/
def inSignalMask (mask : UInt64) (signum : ℕ) : Bool :=
  mask >>> UInt64.ofNat (signum - 1) &&& 1 = 1

/-- Set the handler of each of the signals 1 to 64 that is chosen. -/
def setHandlers (chosen : ℕ → Bool) (h : SignalHandler) (s : SignalState) : SignalState :=
  ((List.range' 1 64).filter chosen).foldl (fun s sig => s.setHandler sig h) s

/-- The session and process group that the attributes ask for. -/
def spawnGroup (attrs : SpawnAttrs) (child : Process) : Process :=
  let pid := UInt32.ofNat child.pid
  let child := if hasFlag attrs.flags SETSID then
      { child with sid := pid, pgid := pid, isSessionLeader := true } else child
  if hasFlag attrs.flags SETPGROUP then
    { child with pgid := if attrs.pgrp = 0 then pid else attrs.pgrp.toUInt32 }
  else child

/-- The signal state that the attributes ask for. -/
def spawnSignals (attrs : SpawnAttrs) (s : SignalState) : SignalState :=
  let s := if hasFlag attrs.flags SETSIGMASK then { s with blocked := attrs.sigmask } else s
  if hasFlag attrs.flags SETSIGDEF then setHandlers (inSignalMask attrs.sigdef) .Default s else s

/-- The child of a spawn before its file actions. What is not listed starts as in a new
process. -/
def spawnedChild (parent : Process) (parentPid childPid : ℕ) (argv envp : List Bytes)
    (attrs : SpawnAttrs) : Process :=
  let inheritedSignals := setHandlers (fun sig => parent.signals.getHandler sig = .Ignore) .Ignore
    { SignalState.new with blocked := parent.signals.blocked }
  spawnGroup attrs
    { Process.new childPid with
      ppid := parentPid
      uid := parent.uid
      gid := parent.gid
      euid := parent.euid
      egid := parent.egid
      pgid := parent.pgid
      sid := parent.sid
      umask := parent.umask
      nice := parent.nice
      rlimits := parent.rlimits
      cwd := parent.cwd
      argv := argv
      environ := envp
      fdTable := parent.fdTable
      ofdTable := parent.ofdTable
      sockets := parent.sockets.clone
      signals := spawnSignals attrs inheritedSignals }

section FileActions

variable (H : HostIO) (E : ProcfsEnv)

/-- Move an opened descriptor to the number an action asks for; the descriptor it was
opened at is closed in any case. -/
def moveOpened (c : Ctx) (opened fd : ℤ) : Except Errno Unit × Ctx :=
  let moved := sysDup2 H c opened fd
  (moved.1.map fun _ => (), (sysClose H moved.2 opened).2)

/-- Duplicating a descriptor to itself keeps it open across the exec. -/
def rescueFd (c : Ctx) (fd : ℤ) : Except Errno Unit × Ctx :=
  match c.proc.fdTable.get fd with
  | .error e => (.error e, c)
  | .ok _ =>
    (.ok (), c.updProc fun p =>
      { p with fdTable := p.fdTable.setFlags fd fun flags => flags &&& ~~~ FD_CLOEXEC })

/-- One file action of a spawn. A close never fails. -/
def applyFileAction (c : Ctx) : FileAction → Except Errno Unit × Ctx
  | .Close fd => (.ok (), (sysClose H c fd.toInt).2)
  | .Dup2 srcfd fd =>
    if srcfd = fd then rescueFd c fd.toInt
    else
      match sysDup2 H c srcfd.toInt fd.toInt with
      | (.error e, c) => (.error e, c)
      | (.ok _, c) => (.ok (), c)
  | .Open fd path oflag mode =>
    match sysOpen H E c path oflag.toUInt32 mode with
    | (.error e, c) => (.error e, c)
    | (.ok opened, c) => if opened = fd.toInt then (.ok (), c) else moveOpened H c opened fd.toInt
  | .Chdir path => sysChdir H c path
  | .Fchdir fd => sysFchdir c fd.toInt

/-- The file actions in turn, up to the first that fails. -/
def applyFileActions (c : Ctx) : List FileAction → Except Errno Unit × Ctx
  | [] => (.ok (), c)
  | a :: actions =>
    match applyFileAction H E c a with
    | (.error e, c) => (.error e, c)
    | (.ok (), c) => applyFileActions c actions

/-- The file actions of a spawn, and then the descriptors marked close-on-exec are
closed. -/
def applySpawnFileActions (c : Ctx) (actions : List FileAction) : Except Errno Unit × Ctx :=
  match applyFileActions H E c actions with
  | (.error e, c) => (.error e, c)
  | (.ok (), c) => (.ok (), closeCloexec H c)

end FileActions

namespace System

/-- The smallest unused pid from 2 on. -/
def allocateSpawnPid (s : System) : ℕ :=
  2 + ((s.procs.slots.drop 2).findIdx? Option.isNone).getD (s.procs.slots.length - 2)

/-- The system once a child is in the table and counted. -/
def insertSpawned (s : System) (child : Process) : System :=
  ⟨bumpInheritedResourceRefcounts s.kernel child, s.procs.put child.pid (some child)⟩

/-- Put the state of a process back after a call of it. -/
def commit (s : System) (pid : ℕ) (c : Ctx) : System := ⟨c.kernel, s.procs.put pid (some c.proc)⟩

/-- Spawn a child of a process. A file action that fails takes the child back. -/
def spawnChild (H : HostIO) (env : System → ProcfsEnv) (s : System) (parentPid : ℕ)
    (argv envp : List Bytes) (actions : List FileAction) (attrs : SpawnAttrs) :
    Except Errno ℕ × System :=
  match s.procs.get parentPid with
  | none => (.error .ESRCH, s)
  | some parent =>
    let childPid := s.allocateSpawnPid
    let child := spawnedChild parent parentPid childPid argv envp attrs
    let s := s.insertSpawned child
    match applySpawnFileActions H (env s) ⟨s.kernel, child⟩ actions with
    | (.ok (), c) => (.ok childPid, s.commit childPid c)
    | (.error e, c) =>
      let s := s.commit childPid c
      (.error e, (s.removeProcess childPid).getD s)

end System

end PosixKernel
