import PosixKernel.Lib.ByteCodec
import PosixKernel.Lib.ByteMemory
import PosixKernel.Shared

/-!
# The Shared Scratch Area

The host calls the kernel through one area of the kernel's memory (`kernel-worker.ts`). For
every call of every process it copies what the arguments point to into this area, has the kernel
work on the copies, and copies the results back; a call that has to wait leaves the area to
others and is tried again, or completed, by a timer. A `poll` that finds nothing ready is such a
call (`syscalls.rs`).

What a call other than `poll` and `ppoll` does in the kernel is a parameter, as are the state of
the kernel, the readiness of descriptors and the handling of signals. The channels in which the
processes make their calls are left out.

## Main definitions

* `marshal`, `HostState.completeChannel` — arguments in, results out;
* `KernelPort.poll`, `KernelPort.ppoll` — what the kernel does for a poll;
* `HostState.handleSyscall`, `HostState.handleBlockingRetry`, `HostState.fire` — the host.
-/

namespace PosixKernel

open ByteMemory ByteCodec

def SYS_POLL : ℕ := 60
def SYS_PPOLL : ℕ := 251
def SYS_EPOLL_PWAIT : ℕ := 241
def SYS_MSGRCV : ℕ := 338
def SYS_MSGSND : ℕ := 339
def SYS_SEMOP : ℕ := 342

def CH_SYSCALL : ℕ := 4
def CH_ARGS : ℕ := 8
def CH_ARG_SIZE : ℕ := 8
def CH_DATA : ℕ := 72
def CH_DATA_SIZE : ℕ := 65536

/-- The record of a signal to deliver: the last bytes of the data area. -/
def CH_SIG_BASE : ℕ := CH_DATA + CH_DATA_SIZE - 48

/-! ### Memories -/

/-- The memory of a process. -/
structure ProcessMemory where
  cells : ℕ → UInt8
  size : ℕ

namespace ProcessMemory

/-- The bytes between two addresses, as far as the memory goes. -/
def subarray (m : ProcessMemory) (a b : ℕ) : Bytes := load m.cells a (min b m.size - a)

/-- Copy bytes into the memory; it is an error if they do not fit. -/
def set (m : ProcessMemory) (bytes : Bytes) (a : ℕ) : Option ProcessMemory :=
  if a + bytes.length ≤ m.size then some { m with cells := store m.cells a bytes } else none

/-- A 64-bit number, with its sign. -/
def getBigInt64 (m : ProcessMemory) (a : ℕ) : ℤ :=
  (UInt64.ofNat (leNat (load m.cells a 8))).toInt64.toInt

/-- A 32-bit number, with its sign. -/
def getInt32 (m : ProcessMemory) (a : ℕ) : ℤ :=
  (UInt32.ofNat (leNat (load m.cells a 4))).toInt32.toInt

theorem subarray_of_le (m : ProcessMemory) {a n : ℕ} (h : a + n ≤ m.size) :
    m.subarray a (a + n) = load m.cells a n := by
  rw [subarray, Nat.min_eq_left h, Nat.add_sub_cancel_left]

end ProcessMemory

/-! ### Arguments in, results out -/

inductive ArgDirection
  | input | output | inout
  deriving DecidableEq

/-- How many bytes an argument points to. -/
inductive ArgSize
  | cstring
  | arg (argIndex : ℕ)
  | deref (argIndex : ℕ)
  | fixed (size : ℕ)
  deriving DecidableEq

/-- A pointer among the arguments of a call. -/
structure ArgDesc where
  argIndex : ℕ
  direction : ArgDirection
  size : ArgSize
  deriving DecidableEq

/-- Some calls count records. -/
def inputScale (syscallNr : ℕ) (size : ℤ) : ℤ :=
  if syscallNr = SYS_POLL ∨ syscallNr = SYS_PPOLL then size * 8
  else if syscallNr = SYS_MSGSND ∨ syscallNr = SYS_MSGRCV then size + 4
  else if syscallNr = SYS_SEMOP then size * 6
  else size

def outputScale (syscallNr : ℕ) (size : ℤ) : ℤ :=
  if syscallNr = SYS_EPOLL_PWAIT then size * 12 else inputScale syscallNr size

/-- The length of a string, cut off where the data area ends. -/
def cstringLength (m : ProcessMemory) (ptr bound : ℕ) : ℕ :=
  ((List.range bound).takeWhile fun i => !(ptr + i < m.size && m.cells (ptr + i) = 0)).length

def argSize (m : ProcessMemory) (scale : ℤ → ℤ) (origArgs : List ℤ) (offset : ℕ)
    (desc : ArgDesc) : Option ℤ :=
  match desc.size with
  | .cstring =>
    some (cstringLength m (origArgs.getD desc.argIndex 0).toNat (CH_DATA_SIZE - offset - 1) + 1)
  | .arg i => some (scale (origArgs.getD i 0))
  | .deref i =>
    if origArgs.getD i 0 = 0 then none else some (m.getInt32 (origArgs.getD i 0).toNat)
  | .fixed size => some size

/-- The size cut off where the data area ends; nothing is copied if there is no room. -/
def cappedSize (offset : ℕ) (size : ℤ) : Option ℕ :=
  if size ≤ 0 then none
  else if (CH_DATA_SIZE : ℤ) < offset + size then
    if CH_DATA_SIZE ≤ offset then none else some (CH_DATA_SIZE - offset)
  else some size.toNat

def align4 (n : ℕ) : ℕ := (n + 3) / 4 * 4

/-- The area and the arguments while the arguments are copied in. -/
structure Marshalled where
  kernelMem : ℕ → UInt8
  args : List ℤ
  offset : ℕ

/-- A size that was cut off is passed on where it came from another argument. -/
def shrinkArg (desc : ArgDesc) (size : ℕ) (wanted : ℤ) (args : List ℤ) : List ℤ :=
  match desc.size with
  | .arg i => if (size : ℤ) < wanted then args.set i size else args
  | _ => args

section Area

variable (scratchOffset : ℕ)

/-- Copy what one argument points to. -/
def marshalArg (m : ProcessMemory) (syscallNr : ℕ) (origArgs : List ℤ) (st : Marshalled)
    (desc : ArgDesc) : Marshalled :=
  let ptr := origArgs.getD desc.argIndex 0
  if ptr = 0 then st
  else
    match argSize m (inputScale syscallNr) origArgs st.offset desc with
    | none => st
    | some wanted =>
      match cappedSize st.offset wanted with
      | none => st
      | some size =>
        let kernelPtr := scratchOffset + CH_DATA + st.offset
        let data : Bytes :=
          if desc.direction = .output then List.replicate size 0
          else m.subarray ptr.toNat (ptr.toNat + size)
        { kernelMem := store st.kernelMem kernelPtr data
          args := (shrinkArg desc size wanted st.args).set desc.argIndex kernelPtr
          offset := align4 (st.offset + size) }

/-- Copy what the arguments point to. -/
def marshal (m : ProcessMemory) (syscallNr : ℕ) (origArgs : List ℤ) (argDescs : List ArgDesc)
    (kernelMem : ℕ → UInt8) : Marshalled :=
  argDescs.foldl (marshalArg scratchOffset m syscallNr origArgs) ⟨kernelMem, origArgs, 0⟩

/-- The number of the call and the arguments in front of the data. -/
def writeHeader (syscallNr : ℕ) (args : List ℤ) (kernelMem : ℕ → UInt8) : ℕ → UInt8 :=
  let mem := store kernelMem (scratchOffset + CH_SYSCALL) (leBytes 4 syscallNr)
  (List.range 6).foldl (fun mem i =>
    store mem (scratchOffset + CH_ARGS + i * CH_ARG_SIZE)
      (leBytes 8 (Int64.ofInt (args.getD i 0)).toUInt64.toNat)) mem

/-- The memory of the caller while results are copied back; it stays as it is from the first
result on that does not fit. -/
structure CopyBack where
  memory : ProcessMemory
  offset : ℕ
  ok : Bool

/-- Copy one result back. -/
def copyBackArg (kernelMem : ℕ → UInt8) (syscallNr : ℕ) (origArgs : List ℤ) (retVal : ℤ)
    (st : CopyBack) (desc : ArgDesc) : CopyBack :=
  let ptr := origArgs.getD desc.argIndex 0
  if ptr = 0 ∨ st.ok = false then st
  else
    match argSize st.memory (outputScale syscallNr) origArgs st.offset desc with
    | none => st
    | some wanted =>
      match cappedSize st.offset wanted with
      | none => st
      | some size =>
        let offset := align4 (st.offset + size)
        if desc.direction = .input ∨ desc.direction = .output ∧ retVal < 0 then
          { st with offset }
        else
          let copySize :=
            match desc.direction, desc.size with
            | .output, .arg _ =>
              if 0 < retVal ∧ retVal < size then
                retVal.toNat + if syscallNr = SYS_MSGRCV then 4 else 0
              else size
            | _, _ => size
          match st.memory.set (load kernelMem (scratchOffset + CH_DATA + st.offset) copySize)
              ptr.toNat with
          | none => { st with ok := false }
          | some memory => { memory, offset, ok := true }

/-- Copy the results back. -/
def copyBack (kernelMem : ℕ → UInt8) (m : ProcessMemory) (syscallNr : ℕ) (origArgs : List ℤ)
    (argDescs : List ArgDesc) (retVal : ℤ) : CopyBack :=
  argDescs.foldl (copyBackArg scratchOffset kernelMem syscallNr origArgs retVal) ⟨m, 0, true⟩

end Area

/-! ### The kernel -/

/-- The kernel as the host sees it. -/
structure KernelPort (κ : Type) where
  /-- what of the given events a descriptor of a process is ready for -/
  revents : κ → ℕ → Int32 → Int16 → Int16
  /-- `ppoll` takes its mask; whether a signal is deliverable under it -/
  takeMask : κ → ℕ → Option UInt64 → Bool × κ
  /-- `ppoll` gives its mask back -/
  giveMaskBack : κ → ℕ → κ
  deliverPendingSignals : κ → ℕ → κ
  /-- the record of the signal that is delivered next, if there is one -/
  dequeueSignal : κ → ℕ → Option Bytes × κ
  /-- any other call -/
  handleChannel : κ → ℕ → ℕ → List ℤ → (ℕ → UInt8) → Except Errno ℤ × κ × (ℕ → UInt8)

namespace KernelPort

variable {κ : Type} (K : KernelPort κ)

/-- What one entry of a `pollfd` array is ready for; an entry with a negative descriptor is
passed over. -/
def entryRevents (k : κ) (pid : ℕ) (mem : ℕ → UInt8) (entry : ℕ) : Int16 :=
  let fd := (UInt32.ofNat (leNat (load mem entry 4))).toInt32
  let events := (UInt16.ofNat (leNat (load mem (entry + 4) 2))).toInt16
  if fd < 0 then 0 else K.revents k pid fd events

/-- One pass over a `pollfd` array. -/
def pollCheck (k : κ) (pid : ℕ) (fds nfds : ℕ) (mem : ℕ → UInt8) : ℕ × (ℕ → UInt8) :=
  (List.range nfds).foldl (fun st i =>
    let revents := K.entryRevents k pid st.2 (fds + 8 * i)
    (if revents = 0 then st.1 else st.1 + 1,
      store st.2 (fds + 8 * i + 6) (leBytes 2 revents.toUInt16.toNat))) (0, mem)

/-- `poll`: without a descriptor that is ready the caller has to wait. -/
def poll (k : κ) (pid : ℕ) (fds nfds : ℕ) (timeout : Int32) (mem : ℕ → UInt8) :
    Except Errno ℤ × (ℕ → UInt8) :=
  let checked := K.pollCheck k pid fds nfds mem
  (if 0 < checked.1 ∨ timeout = 0 then .ok checked.1 else .error .EAGAIN, checked.2)

/-- `ppoll`. -/
def ppoll (k : κ) (pid : ℕ) (fds nfds : ℕ) (timeout : Int32) (mask : Option UInt64)
    (mem : ℕ → UInt8) : Except Errno ℤ × κ × (ℕ → UInt8) :=
  match K.takeMask k pid mask with
  | (true, k) => (.error .EINTR, k, mem)
  | (false, k) =>
    match K.poll k pid fds nfds timeout mem with
    | (.error .EAGAIN, mem) => (.error .EAGAIN, k, mem)
    | (r, mem) => (r, K.giveMaskBack k pid, mem)

/-- The mask in the arguments of `ppoll`. -/
def maskOf (args : List ℤ) : Option UInt64 :=
  if args.getD 3 0 = 0 then none
  else some (UInt64.ofNat ((args.getD 4 0).toNat + 2 ^ 32 * (args.getD 5 0).toNat))

/-- One call through the scratch area. -/
def call (k : κ) (pid syscallNr : ℕ) (args : List ℤ) (mem : ℕ → UInt8) :
    Except Errno ℤ × κ × (ℕ → UInt8) :=
  let fds := (args.getD 0 0).toNat
  let nfds := (UInt32.ofInt (args.getD 1 0)).toNat
  let timeout := Int32.ofInt (args.getD 2 0)
  if syscallNr = SYS_POLL then
    let polled := K.poll k pid fds nfds timeout mem
    (polled.1, K.deliverPendingSignals k pid, polled.2)
  else if syscallNr = SYS_PPOLL then
    let polled := K.ppoll k pid fds nfds timeout (maskOf args) mem
    (polled.1, K.deliverPendingSignals polled.2.1 pid, polled.2.2)
  else K.handleChannel k pid syscallNr args mem

end KernelPort

/-! ### The host -/

/-- A `poll` that waits: the call, when it is over, and whether it only sleeps. -/
structure PollTimer where
  pid : ℕ
  syscallNr : ℕ
  origArgs : List ℤ
  deadline : ℤ
  sleeps : Bool
  deriving DecidableEq

/-- Whether a timer that goes off completes its poll; otherwise the poll is tried again. -/
def PollTimer.isOver (t : PollTimer) (now : ℤ) : Bool :=
  t.sleeps || decide (0 < t.deadline) && decide (t.deadline ≤ now)

/-- The host: the kernel with its memory, the memories of the processes, the processes that are
registered, the polls that wait, and the calls that were completed. -/
structure HostState (κ : Type) where
  kernel : κ
  kernelMem : ℕ → UInt8
  memory : ℕ → ProcessMemory
  processes : List ℕ
  pendingPollRetries : List PollTimer
  completed : List (ℕ × Except Errno ℤ)

/-- The pointers among the arguments of `poll` and `ppoll`. -/
def pollArgs : List ArgDesc := [⟨0, .inout, .arg 1⟩]

/-- The timeout that `ppoll` points to, in milliseconds. -/
def timespecMs (m : ProcessMemory) (tsPtr : ℤ) : ℤ :=
  if tsPtr = 0 then -1
  else m.getBigInt64 tsPtr.toNat * 1000 + m.getBigInt64 (tsPtr.toNat + 8) / 1000000

/-- `ppoll` passes its timeout and its mask as numbers. -/
def ppollArgs (m : ProcessMemory) (origArgs args : List ℤ) : List ℤ :=
  let args := args.set 2 (timespecMs m (origArgs.getD 2 0))
  let maskPtr := origArgs.getD 3 0
  if maskPtr = 0 then ((args.set 3 0).set 4 0).set 5 0
  else
    ((args.set 3 1).set 4 (leNat (load m.cells maskPtr.toNat 4))).set 5
      (leNat (load m.cells (maskPtr.toNat + 4) 4))

namespace HostState

variable {κ : Type} (K : KernelPort κ) (scratchOffset : ℕ)

/-- Copy the arguments in and have the kernel perform the call. -/
def callKernel (h : HostState κ) (pid syscallNr : ℕ) (origArgs : List ℤ)
    (argDescs : List ArgDesc) : Except Errno ℤ × HostState κ :=
  let m := h.memory pid
  let marshalled := marshal scratchOffset m syscallNr origArgs argDescs h.kernelMem
  let args := if syscallNr = SYS_PPOLL then ppollArgs m origArgs marshalled.args
    else marshalled.args
  let mem := writeHeader scratchOffset syscallNr args marshalled.kernelMem
  let done := K.call h.kernel pid syscallNr args mem
  (done.1, { h with kernel := done.2.1, kernelMem := done.2.2 })

/-- Take the next signal to deliver; its record goes to the end of the data area. -/
def dequeueSignalForDelivery (h : HostState κ) (pid : ℕ) : HostState κ :=
  match K.dequeueSignal h.kernel pid with
  | (none, k) => { h with kernel := k }
  | (some bytes, k) =>
    { h with
      kernel := k
      kernelMem := store h.kernelMem (scratchOffset + CH_SIG_BASE) (bytes.take 44) }

/-- Copy the results back and complete the call. -/
def completeChannel (h : HostState κ) (pid syscallNr : ℕ) (origArgs : List ℤ)
    (argDescs : List ArgDesc) (result : Except Errno ℤ) : HostState κ :=
  let retVal := match result with
    | .ok n => n
    | .error _ => -1
  let back := copyBack scratchOffset h.kernelMem (h.memory pid) syscallNr origArgs argDescs retVal
  let h := { h with memory := Function.update h.memory pid back.memory }
  if back.ok then { h with completed := h.completed ++ [(pid, result)] } else h

/-- A call that has to wait: polls wait for a timer, other calls for an event. -/
def handleBlockingRetry (h : HostState κ) (pid syscallNr : ℕ) (origArgs : List ℤ) (now : ℤ) :
    HostState κ :=
  if pid ∉ h.processes then h
  else if syscallNr = SYS_POLL ∨ syscallNr = SYS_PPOLL then
    let timeoutMs := if syscallNr = SYS_POLL then origArgs.getD 2 0
      else timespecMs (h.memory pid) (origArgs.getD 2 0)
    if timeoutMs = 0 then h.completeChannel scratchOffset pid syscallNr origArgs pollArgs (.ok 0)
    else
      let sleeps := decide (0 < timeoutMs) && decide (origArgs.getD 1 0 = 0)
      let deadline := if 0 < timeoutMs then now + timeoutMs else -1
      { h with
        pendingPollRetries := h.pendingPollRetries ++
          [⟨pid, syscallNr, origArgs, deadline, sleeps⟩] }
  else h

/-- One call of a process. -/
def handleSyscall (h : HostState κ) (pid syscallNr : ℕ) (origArgs : List ℤ)
    (argDescs : List ArgDesc) (now : ℤ) : HostState κ :=
  let done := h.callKernel K scratchOffset pid syscallNr origArgs argDescs
  let h := done.2.dequeueSignalForDelivery K scratchOffset pid
  if done.1 = .error .EAGAIN then h.handleBlockingRetry scratchOffset pid syscallNr origArgs now
  else h.completeChannel scratchOffset pid syscallNr origArgs argDescs done.1

/-- A timer goes off. -/
def fire (h : HostState κ) (t : PollTimer) (now : ℤ) : HostState κ :=
  if t ∉ h.pendingPollRetries then h
  else
    let h := { h with pendingPollRetries := h.pendingPollRetries.erase t }
    if t.pid ∉ h.processes then h
    else if t.isOver now then
      h.completeChannel scratchOffset t.pid t.syscallNr t.origArgs pollArgs (.ok 0)
    else h.handleSyscall K scratchOffset t.pid t.syscallNr t.origArgs pollArgs now

end HostState

/-- What can happen on the host: a call that is handled like `poll`, a timer, or anything else,
with the kernel and the memories after it. -/
inductive HostEvent (κ : Type)
  | syscall (pid syscallNr : ℕ) (origArgs : List ℤ) (argDescs : List ArgDesc) (now : ℤ)
  | fire (timer : PollTimer) (now : ℤ)
  | other (kernel : κ) (kernelMem : ℕ → UInt8) (memory : ℕ → ProcessMemory)
      (processes : List ℕ)

/-- One step of the host. -/
def HostState.next {κ : Type} (K : KernelPort κ) (scratchOffset : ℕ) (h : HostState κ) :
    HostEvent κ → HostState κ
  | .syscall pid syscallNr origArgs argDescs now =>
    h.handleSyscall K scratchOffset pid syscallNr origArgs argDescs now
  | .fire timer now => h.fire K scratchOffset timer now
  | .other kernel kernelMem memory processes =>
    { h with kernel, kernelMem, memory, processes }

end PosixKernel
