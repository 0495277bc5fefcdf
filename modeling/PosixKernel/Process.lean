import PosixKernel.Descriptors
import PosixKernel.Memory
import PosixKernel.Pipe
import PosixKernel.Signal
import PosixKernel.Socket

/-!
# Processes, the Kernel's Shared State, and the Host

The per-process record (`process.rs`), the state that all processes share, and the host
the kernel runs on. A system call acts on a `Ctx`: the shared state and the calling
process. The host answers through `HostIO`; every call is entered in a log that is part
of the shared state, and an answer may depend on all calls made before, so nothing is
assumed about the host beyond what a statement says.
-/

namespace PosixKernel

/-! ### Objects owned by one process -/

structure EventFdState where
  counter : UInt64
  semaphore : Bool
  deriving DecidableEq

structure EpollInterest where
  fd : ℤ
  events : UInt32
  data : UInt64
  deriving DecidableEq

structure EpollInstance where
  interests : List EpollInterest
  deriving DecidableEq

structure TimerFdState where
  clockId : UInt32
  intervalSec : ℤ
  intervalNsec : ℤ
  valueSec : ℤ
  valueNsec : ℤ
  expirations : UInt64
  deriving DecidableEq

structure SignalFdState where
  mask : UInt64
  deriving DecidableEq

/-- An open directory stream; `hostHandle` is the host's iterator. -/
structure DirStream where
  hostHandle : ℤ
  path : Bytes
  position : ℕ
  synthDotState : UInt8
  deriving DecidableEq

/-- An advisory lock on a byte range. -/
structure FileLock where
  pid : ℕ
  lockType : UInt32
  start : ℤ
  len : ℤ
  deriving DecidableEq

/-- The advisory locks of a process, keyed by host handle. -/
abbrev LockTable := List (ℤ × FileLock)

/-- Drop the locks a process holds on a handle. -/
def LockTable.removeForHandle (t : LockTable) (hostHandle : ℤ) (pid : ℕ) : LockTable :=
  t.filter fun l => ¬ (l.1 = hostHandle ∧ l.2.pid = pid)

/-- A descriptor action that a forked child performs before it execs. -/
inductive FdAction
  | Dup2 (oldFd newFd : Int32)
  | Close (fd : Int32)
  | Open (fd : Int32) (path : Bytes) (flags mode : Int32)
  deriving DecidableEq

/-- The live mapping of the framebuffer device. -/
structure FbBinding where
  addr : ℕ
  len : ℕ
  deriving DecidableEq

/-- The number of control characters of a terminal. -/
def NCCS : ℕ := 32

/-- Terminal attributes, window size and owning session. -/
structure TerminalState where
  cIflag : UInt32
  cOflag : UInt32
  cCflag : UInt32
  cLflag : UInt32
  cLine : UInt8
  cCc : Fin NCCS → UInt8
  cIspeed : UInt32
  cOspeed : UInt32
  wsRow : UInt16
  wsCol : UInt16
  wsXpixel : UInt16
  wsYpixel : UInt16
  foregroundPgid : Int32
  sessionId : Int32

/-- The control characters of a new terminal: interrupt, quit, erase, kill, end of file,
the minimum read count, start, stop and suspend. -/
def defaultCc : Fin NCCS → UInt8 := fun i =>
  match i.val with
  | 0 => 0x03 | 1 => 0x1C | 2 => 0x7F | 3 => 0x15 | 4 => 0x04 | 6 => 1
  | 8 => 0x11 | 9 => 0x13 | 10 => 0x1A | _ => 0

def TerminalState.new : TerminalState where
  cIflag := 0o0400 ||| 0o2000 ||| 0o4000 ||| 0o20000
  cOflag := 0o0001 ||| 0o0004
  cCflag := 0o0060 ||| 0o0200 ||| 0o2000 ||| 0o0000017
  cLflag := 0o0010 ||| 0o0020 ||| 0o0040 ||| 0o0002 ||| 0o0001 ||| 0o100000
  cLine := 0
  cCc := defaultCc
  cIspeed := 0o0000017
  cOspeed := 0o0000017
  wsRow := 24
  wsCol := 80
  wsXpixel := 0
  wsYpixel := 0
  foregroundPgid := 1
  sessionId := 0

inductive ProcessState
  | Running | Exited
  deriving DecidableEq

def RLIM_NLIMITS : ℕ := 16

/-- The limits a process starts with: unlimited but for the stack and the number of
descriptors. -/
def defaultRlimits : Fin RLIM_NLIMITS → UInt64 × UInt64 := fun i =>
  let infinity := UInt64.ofNat (2 ^ 64 - 1)
  match i.val with
  | 3 => (8 * 1024 * 1024, infinity)
  | 7 => (1024, 4096)
  | _ => (infinity, infinity)

/-! ### Processes -/

/-- The kernel's record of a process. -/
structure Process where
  pid : ℕ
  ppid : ℕ
  uid : UInt32
  gid : UInt32
  euid : UInt32
  egid : UInt32
  pgid : UInt32
  sid : UInt32
  isSessionLeader : Bool
  state : ProcessState
  exitStatus : ℤ
  fdTable : FdTable
  ofdTable : OfdTable
  lockTable : LockTable
  pipes : SlotTable PipeBuffer
  sockets : SocketTable
  cwd : Bytes
  dirStreams : SlotTable DirStream
  signals : SignalState
  memory : MemoryManager
  terminal : TerminalState
  environ : List Bytes
  argv : List Bytes
  umask : UInt32
  nice : Int32
  rlimits : Fin RLIM_NLIMITS → UInt64 × UInt64
  forkChild : Bool
  forkExecPath : Option Bytes
  forkExecArgv : Option (List Bytes)
  forkFdActions : List FdAction
  nextEphemeralPort : UInt16
  eventfds : SlotTable EventFdState
  epolls : SlotTable EpollInstance
  timerfds : SlotTable TimerFdState
  signalfds : SlotTable SignalFdState
  forkPipeReplay : List (ℤ × ℤ)
  memfds : SlotTable Bytes
  procfsBufs : SlotTable Bytes
  hasExec : Bool
  fbBinding : Option FbBinding
  forkCount : ℕ

/-- The descriptions of a new process: the three standard streams. -/
def stdioOfds : OfdTable :=
  ⟨[some (.fresh .CharDevice O_RDONLY 0 (ascii "/dev/stdin")),
    some (.fresh .CharDevice O_WRONLY 1 (ascii "/dev/stdout")),
    some (.fresh .CharDevice O_WRONLY 2 (ascii "/dev/stderr"))]⟩

/-- The descriptors of a new process, pointing at the standard streams. -/
def stdioFds : FdTable :=
  { FdTable.new with entries := ⟨[some ⟨0, 0⟩, some ⟨1, 0⟩, some ⟨2, 0⟩]⟩ }

/-- A new process with its standard streams open. -/
def Process.new (pid : ℕ) : Process where
  pid := pid
  ppid := 0
  uid := 0
  gid := 0
  euid := 0
  egid := 0
  pgid := UInt32.ofNat pid
  sid := 0
  isSessionLeader := false
  state := .Running
  exitStatus := 0
  fdTable := stdioFds
  ofdTable := stdioOfds
  lockTable := []
  pipes := .empty
  sockets := .empty
  cwd := ascii "/"
  dirStreams := .empty
  signals := .new
  memory := .new
  terminal := .new
  environ := []
  argv := []
  umask := 0o022
  nice := 0
  rlimits := defaultRlimits
  forkChild := false
  forkExecPath := none
  forkExecArgv := none
  forkFdActions := []
  nextEphemeralPort := 49152
  eventfds := .empty
  epolls := .empty
  timerfds := .empty
  signalfds := .empty
  forkPipeReplay := []
  memfds := .empty
  procfsBufs := .empty
  hasExec := false
  fbBinding := none
  forkCount := 0

def RLIMIT_DATA : ℕ := 2
def RLIMIT_NOFILE : ℕ := 7

/-- The descriptor limit that a soft limit asks for. -/
def nofileMax (soft : UInt64) : ℕ :=
  if soft = UInt64.ofNat (2 ^ 64 - 1) then 1024 * 1024 else soft.toNat

/-- Set a limit. Two limits are enforced and so are also kept where they take effect: the
number of descriptors, and the growth of the break. -/
def sysSetrlimit (p : Process) (resource : ℕ) (soft hard : UInt64) : Except Errno Process :=
  if h : RLIM_NLIMITS ≤ resource then .error .EINVAL
  else if hard < soft then .error .EINVAL
  else
    let p := { p with rlimits := Function.update p.rlimits ⟨resource, not_le.mp h⟩ (soft, hard) }
    let p := if resource = RLIMIT_NOFILE then
        { p with fdTable := { p.fdTable with maxFds := nofileMax soft } } else p
    .ok (if resource = RLIMIT_DATA then { p with memory := p.memory.setDataLimit soft } else p)

/-! ### The host -/

/-- A directory entry as the host reports it. -/
structure HostDirEntry where
  ino : UInt64
  dType : UInt32
  name : Bytes
  deriving DecidableEq

/-- The calls the kernel makes on the host, each with the answer it got. -/
inductive HostCall
  | open (path : Bytes) (flags mode : UInt32) (reply : Except Errno ℤ)
  | close (handle : ℤ)
  | seek (handle offset : ℤ) (whence : UInt32)
  | stat (path : Bytes)
  | unlink (path : Bytes)
  | fcntlLock (path : Bytes) (pid : ℕ)
  | opendir (path : Bytes) (reply : Except Errno ℤ)
  | readdir (handle : ℤ)
  | closedir (handle : ℤ)
  | netConnect (handle : Int32) (addr : Ipv4) (port : UInt16) (reply : Except Errno Unit)
  | netClose (handle : Int32)
  | netListen (fd : ℤ) (port : UInt16) (addr : Ipv4)

/-- How often a log of host calls opens a file under a handle. -/
def opensOf (log : List HostCall) (h : ℤ) : ℕ :=
  log.countP fun
    | .open _ _ _ (.ok h') => h' = h
    | _ => false

/-- How often a log of host calls closes a file handle. -/
def closesOf (log : List HostCall) (h : ℤ) : ℕ :=
  log.countP fun
    | .close h' => h' = h
    | _ => false

/-- The host's behaviour: each answer may depend on every call made before, latest
first. -/
structure HostIO where
  hostOpen : List HostCall → Bytes → UInt32 → UInt32 → Except Errno ℤ
  hostClose : List HostCall → ℤ → Except Errno Unit
  hostSeek : List HostCall → ℤ → ℤ → UInt32 → Except Errno ℤ
  hostStat : List HostCall → Bytes → Except Errno UInt32
  hostOpendir : List HostCall → Bytes → Except Errno ℤ
  hostReaddir : List HostCall → ℤ → Except Errno (Option HostDirEntry)
  hostNetConnect : List HostCall → Int32 → Ipv4 → UInt16 → Except Errno Unit

/-- A host without files, directories or network. -/
def HostIO.barren : HostIO where
  hostOpen _ _ _ _ := .error .ENOENT
  hostClose _ _ := .ok ()
  hostSeek _ _ _ _ := .error .EBADF
  hostStat _ _ := .error .ENOENT
  hostOpendir _ _ := .error .ENOENT
  hostReaddir _ _ := .error .EBADF
  hostNetConnect _ _ _ _ := .error .ENETUNREACH

/-- A host on which every open succeeds, with handle 100. -/
def HostIO.oneFile : HostIO := { HostIO.barren with hostOpen := fun _ _ _ _ => .ok 100 }

/-! ### State shared by all processes -/

/-- The character devices implemented in the kernel. -/
inductive VirtualDevice
  | Null | Zero | Urandom | Full | Fb0 | Mice | Dsp
  deriving DecidableEq

/-- The size of the framebuffer. -/
def FB_SMEM_LEN : ℤ := 640 * 4 * 400

/-- Where an `AF_UNIX` path is bound. -/
structure UnixSocketEntry where
  pid : ℕ
  sockIdx : ℕ
  deriving DecidableEq

/-- The state that all processes share. `centralized` is the kernel's mode: whether one
kernel serves all processes, as opposed to one instance for each. `deviceOwner` gives the
pid that owns a single-owner device, `-1` for nobody. -/
structure Kernel where
  centralized : Bool
  pipes : PipeTable
  hostHandleRefs : SharedRefs ℤ
  hostNetRefs : SharedRefs Int32
  ptys : PtyTable
  backlogs : SharedBacklogTable
  unixRegistry : AList fun _ : Bytes => UnixSocketEntry
  deviceOwner : VirtualDevice → ℤ
  log : List HostCall

/-- The shared state before any process exists. -/
def Kernel.boot : Kernel where
  centralized := true
  pipes := .new
  hostHandleRefs := ∅
  hostNetRefs := ∅
  ptys := .empty
  backlogs := .empty
  unixRegistry := ∅
  deviceOwner := fun _ => -1
  log := []

/-- Enter a host call in the log. -/
def Kernel.logCall (k : Kernel) (call : HostCall) : Kernel := { k with log := call :: k.log }

/-- What a system call can touch: the shared state and the calling process. -/
structure Ctx where
  kernel : Kernel
  proc : Process

/-- Two records of a process that differ at most in the objects it owns and the locks it
holds. -/
def Process.SameCore (p q : Process) : Prop :=
  q = { p with
    lockTable := q.lockTable
    pipes := q.pipes
    sockets := q.sockets
    eventfds := q.eventfds
    epolls := q.epolls
    timerfds := q.timerfds
    signalfds := q.signalfds
    memfds := q.memfds
    procfsBufs := q.procfsBufs }

namespace Process.SameCore

variable {p q r : Process}

theorem refl (p : Process) : p.SameCore p := rfl

variable (h : p.SameCore q)

include h

theorem trans (h' : q.SameCore r) : p.SameCore r := by
  rw [SameCore] at h
  rw [SameCore, h', h]

theorem pid : q.pid = p.pid := by rw [h]

theorem fdTable : q.fdTable = p.fdTable := by rw [h]

theorem ofdTable : q.ofdTable = p.ofdTable := by rw [h]

omit h

end Process.SameCore

/-- Two records of a process that differ at most in its descriptors and in what they lead
to. -/
def Process.SameSettings (p q : Process) : Prop :=
  q = { p with
    fdTable := q.fdTable
    ofdTable := q.ofdTable
    lockTable := q.lockTable
    pipes := q.pipes
    sockets := q.sockets
    eventfds := q.eventfds
    epolls := q.epolls
    timerfds := q.timerfds
    signalfds := q.signalfds
    memfds := q.memfds
    procfsBufs := q.procfsBufs }

namespace Process.SameSettings

variable {p q r : Process}

theorem refl (p : Process) : p.SameSettings p := rfl

variable (h : p.SameSettings q)

include h

theorem trans (h' : q.SameSettings r) : p.SameSettings r := by
  rw [SameSettings] at h
  rw [SameSettings, h', h]

theorem signals : q.signals = p.signals := by rw [h]

omit h

end Process.SameSettings

/-- The settings are among the core. -/
theorem Process.SameCore.sameSettings {p q : Process} (h : p.SameCore q) : p.SameSettings q := by
  rw [SameSettings, h]

namespace Ctx

/-- Change the shared state. -/
def updKernel (c : Ctx) (f : Kernel → Kernel) : Ctx := { c with kernel := f c.kernel }

/-- Change the calling process. -/
def updProc (c : Ctx) (f : Process → Process) : Ctx := { c with proc := f c.proc }

/-- Make a host call: enter it in the log. -/
def logCall (c : Ctx) (call : HostCall) : Ctx := c.updKernel (·.logCall call)

@[simp] theorem updKernel_kernel (c : Ctx) (f : Kernel → Kernel) :
    (c.updKernel f).kernel = f c.kernel := rfl

@[simp] theorem updKernel_proc (c : Ctx) (f : Kernel → Kernel) :
    (c.updKernel f).proc = c.proc := rfl

@[simp] theorem updProc_kernel (c : Ctx) (f : Process → Process) :
    (c.updProc f).kernel = c.kernel := rfl

@[simp] theorem updProc_proc (c : Ctx) (f : Process → Process) :
    (c.updProc f).proc = f c.proc := rfl

@[simp] theorem logCall_kernel (c : Ctx) (call : HostCall) :
    (c.logCall call).kernel = c.kernel.logCall call := rfl

@[simp] theorem logCall_proc (c : Ctx) (call : HostCall) :
    (c.logCall call).proc = c.proc := rfl

end Ctx

end PosixKernel
