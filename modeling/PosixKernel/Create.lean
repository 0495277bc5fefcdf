import PosixKernel.Open

/-!
# Creating Pipes, Sockets and Other Objects

The calls that create an object together with its descriptor. They differ in what they
undo when the descriptor table is full: the event, poll, timer and signal descriptors give
the description and the object back, the others keep what they have obtained.
-/

namespace PosixKernel

/-- Create a description and a descriptor on it. A full descriptor table leaves the
description behind. -/
def newDescriptor (c : Ctx) (o : OpenFileDesc) (fdFlags : UInt32) : Except Errno ℤ × Ctx :=
  let made := c.proc.ofdTable.alloc o
  allocFd (c.updProc fun p => { p with ofdTable := made.2 }) made.1 fdFlags

/-- Create a description and a descriptor on it, or drop the description again and undo
what came before. -/
def newDescriptorOrUndo (undo : Process → Process) (c : Ctx) (o : OpenFileDesc)
    (fdFlags : UInt32) : Except Errno ℤ × Ctx :=
  let made := c.proc.ofdTable.alloc o
  match allocFd (c.updProc fun p => { p with ofdTable := made.2 }) made.1 fdFlags with
  | (.ok fd, c) => (.ok fd, c)
  | (.error e, c) =>
    (.error e, c.updProc fun p => undo { p with ofdTable := (p.ofdTable.decRef made.1).2 })

/-- Descriptor flags of a call that knows close-on-exec only. -/
def cloexecFlag (cloexec : Bool) : UInt32 := if cloexec then FD_CLOEXEC else 0

/-- Status flags with non-blocking mode on request. -/
def nonblockFlag (base : UInt32) (nonblock : Bool) : UInt32 :=
  if nonblock then base ||| O_NONBLOCK else base

/-! ### Event, poll, timer and signal descriptors -/

/-- Create an event counter. The lowest flag bit asks for semaphore mode. -/
def sysEventfd2 (c : Ctx) (initval flags : UInt32) : Except Errno ℤ × Ctx :=
  if hasFlag flags (~~~ (1 ||| O_CLOEXEC ||| O_NONBLOCK)) then (.error .EINVAL, c)
  else
    let made := c.proc.eventfds.alloc ⟨initval.toUInt64, hasFlag flags 1⟩
    newDescriptorOrUndo (fun p => { p with eventfds := p.eventfds.clear made.1 })
      (c.updProc fun p => { p with eventfds := made.2 })
      (.fresh .EventFd (nonblockFlag O_RDWR (hasFlag flags O_NONBLOCK)) (slotHandle made.1)
        (ascii "/dev/eventfd"))
      (cloexecFlag (hasFlag flags O_CLOEXEC))

/-- Create a poll set. -/
def sysEpollCreate1 (c : Ctx) (flags : UInt32) : Except Errno ℤ × Ctx :=
  if hasFlag flags (~~~ O_CLOEXEC) then (.error .EINVAL, c)
  else
    let made := c.proc.epolls.alloc ⟨[]⟩
    newDescriptorOrUndo (fun p => { p with epolls := p.epolls.clear made.1 })
      (c.updProc fun p => { p with epolls := made.2 })
      (.fresh .Epoll O_RDWR (slotHandle made.1) (ascii "/dev/epoll"))
      (cloexecFlag (hasFlag flags O_CLOEXEC))

/-- Create a disarmed timer. -/
def sysTimerfdCreate (c : Ctx) (clockId flags : UInt32) : Except Errno ℤ × Ctx :=
  if hasFlag flags (~~~ (O_CLOEXEC ||| O_NONBLOCK)) then (.error .EINVAL, c)
  else
    let made := c.proc.timerfds.alloc ⟨clockId, 0, 0, 0, 0, 0⟩
    newDescriptorOrUndo (fun p => { p with timerfds := p.timerfds.clear made.1 })
      (c.updProc fun p => { p with timerfds := made.2 })
      (.fresh .TimerFd (nonblockFlag O_RDWR (hasFlag flags O_NONBLOCK)) (slotHandle made.1)
        (ascii "/dev/timerfd"))
      (cloexecFlag (hasFlag flags O_CLOEXEC))

/-- Change the mask of an existing signal descriptor. -/
def updateSignalfd (c : Ctx) (fd : ℤ) (mask : UInt64) : Except Errno ℤ × Ctx :=
  match c.proc.fdTable.get fd with
  | .error e => (.error e, c)
  | .ok entry =>
    match c.proc.ofdTable.get entry.ofdRef with
    | none => (.error .EBADF, c)
    | some o =>
      if o.fileType ≠ .SignalFd then (.error .EINVAL, c)
      else
        match c.proc.signalfds.get (handleSlot o.hostHandle) with
        | none => (.error .EBADF, c)
        | some _ =>
          (.ok fd, c.updProc fun p =>
            { p with signalfds := p.signalfds.put (handleSlot o.hostHandle) (some ⟨mask⟩) })

/-- Create a signal descriptor, or change the mask of an existing one. -/
def sysSignalfd4 (c : Ctx) (fd : ℤ) (mask : UInt64) (flags : UInt32) : Except Errno ℤ × Ctx :=
  if hasFlag flags (~~~ (O_CLOEXEC ||| O_NONBLOCK)) then (.error .EINVAL, c)
  else if fd ≠ -1 then updateSignalfd c fd mask
  else
    let made := c.proc.signalfds.alloc ⟨mask⟩
    newDescriptorOrUndo (fun p => { p with signalfds := p.signalfds.clear made.1 })
      (c.updProc fun p => { p with signalfds := made.2 })
      (.fresh .SignalFd (nonblockFlag O_RDONLY (hasFlag flags O_NONBLOCK)) (slotHandle made.1)
        (ascii "/dev/signalfd"))
      (cloexecFlag (hasFlag flags O_CLOEXEC))

/-! ### Memory files -/

/-- Create a file in memory; the table of memory files only grows. -/
def sysMemfdCreate (c : Ctx) (name : Bytes) (flags : UInt32) : Except Errno ℤ × Ctx :=
  if hasFlag flags (~~~ 3) then (.error .EINVAL, c)
  else
    let idx := c.proc.memfds.slots.length
    newDescriptor (c.updProc fun p => { p with memfds := p.memfds.put idx (some []) })
      (.fresh .MemFd O_RDWR (slotHandle idx) (ascii "memfd:" ++ name.take 249))
      (cloexecFlag (hasFlag flags 1))

/-! ### Pipes -/

/-- Place a pipe: in the global table in centralized mode, else in the process's own. -/
def allocPipe (c : Ctx) (pipe : PipeBuffer) : ℕ × Ctx :=
  if c.kernel.centralized then
    let made := c.kernel.pipes.alloc pipe
    (made.1, c.updKernel fun k => { k with pipes := made.2 })
  else
    let made := c.proc.pipes.alloc pipe
    (made.1, c.updProc fun p => { p with pipes := made.2 })

/-- The description of one end of a pipe. -/
def pipeOfd (idx : ℕ) (flags : UInt32) : OpenFileDesc :=
  .fresh .Pipe flags (slotHandle idx) (ascii "/dev/pipe")

/-- Create a pipe. A forked child that runs its parent's code again first gets the pipes
it inherited. A full descriptor table drops both descriptions, not the pipe. -/
def sysPipe (c : Ctx) : Except Errno (ℤ × ℤ) × Ctx :=
  match c.proc.forkChild, c.proc.forkPipeReplay with
  | true, fds :: rest => (.ok fds, c.updProc fun p => { p with forkPipeReplay := rest })
  | _, _ =>
    let placed := allocPipe c (.new DEFAULT_PIPE_CAPACITY)
    let c := placed.2
    let readOfd := c.proc.ofdTable.alloc (pipeOfd placed.1 O_RDONLY)
    let writeOfd := readOfd.2.alloc (pipeOfd placed.1 O_WRONLY)
    let c := c.updProc fun p => { p with ofdTable := writeOfd.2 }
    match allocFd c readOfd.1 0 with
    | (.error e, c) =>
      (.error e, c.updProc fun p =>
        { p with ofdTable := ((p.ofdTable.decRef readOfd.1).2.decRef writeOfd.1).2 })
    | (.ok readFd, c) =>
      match allocFd c writeOfd.1 0 with
      | (.error e, c) =>
        (.error e, c.updProc fun p =>
          { p with
            fdTable := { p.fdTable with entries := p.fdTable.entries.clear readFd.toNat }
            ofdTable := ((p.ofdTable.decRef readOfd.1).2.decRef writeOfd.1).2 })
      | (.ok writeFd, c) => (.ok (readFd, writeFd), c)

/-! ### Sockets -/

/-- The address family a number stands for. -/
def socketDomain (domain : UInt32) : Option SocketDomain :=
  if domain = AF_UNIX then some .Unix
  else if domain = AF_INET then some .Inet
  else if domain = AF_INET6 then some .Inet6
  else none

/-- The socket type a number stands for, with the flag bits taken off. -/
def socketType (sockType : UInt32) : Option SocketType :=
  let base := sockType &&& ~~~ (SOCK_NONBLOCK ||| SOCK_CLOEXEC)
  if base = SOCK_STREAM then some .Stream
  else if base = SOCK_DGRAM then some .Dgram
  else none

/-- The description of a socket. -/
def socketOfd (sockIdx : ℕ) (flags : UInt32) : OpenFileDesc :=
  .fresh .Socket flags (slotHandle sockIdx) (ascii "/dev/socket")

/-- Create a socket. -/
def sysSocket (c : Ctx) (domain sockType protocol : UInt32) : Except Errno ℤ × Ctx :=
  match socketDomain domain with
  | none => (.error .EAFNOSUPPORT, c)
  | some dom =>
    match socketType sockType with
    | none => (.error .EPROTOTYPE, c)
    | some stype =>
      let made := c.proc.sockets.alloc (.new dom stype protocol)
      newDescriptor (c.updProc fun p => { p with sockets := made.2 })
        (socketOfd made.1 (nonblockFlag O_RDWR (hasFlag sockType SOCK_NONBLOCK)))
        (cloexecFlag (hasFlag sockType SOCK_CLOEXEC))

/-- One of two connected sockets over two global pipes. -/
def pairedSocket (sendBuf recvBuf : ℕ) (peer : ℕ) : SocketInfo :=
  { SocketInfo.new .Unix .Stream 0 with
    state := .Connected
    sendBufIdx := some sendBuf
    recvBufIdx := some recvBuf
    globalPipes := true
    peerIdx := some peer }

/-- Create two connected sockets, always over the global pipe table. -/
def sysSocketpair (c : Ctx) (domain sockType : UInt32) : Except Errno (ℤ × ℤ) × Ctx :=
  if domain ≠ AF_UNIX then (.error .EAFNOSUPPORT, c)
  else if socketType sockType ≠ some .Stream then (.error .EPROTOTYPE, c)
  else
    let ab := c.kernel.pipes.alloc (.new DEFAULT_PIPE_CAPACITY)
    let ba := ab.2.alloc (.new DEFAULT_PIPE_CAPACITY)
    -- the peer numbers are filled in once both slots are known
    let a := (c.proc.sockets.alloc (pairedSocket ab.1 ba.1 0)).1
    let b := ((c.proc.sockets.alloc (pairedSocket ab.1 ba.1 0)).2.alloc
      (pairedSocket ba.1 ab.1 a)).1
    let sockets := ((c.proc.sockets.alloc (pairedSocket ab.1 ba.1 b)).2.alloc
      (pairedSocket ba.1 ab.1 a)).2
    let flags := nonblockFlag O_RDWR (hasFlag sockType SOCK_NONBLOCK)
    let ofdA := c.proc.ofdTable.alloc (socketOfd a flags)
    let ofdB := ofdA.2.alloc (socketOfd b flags)
    let c := (c.updKernel fun k => { k with pipes := ba.2 }).updProc fun p =>
      { p with sockets, ofdTable := ofdB.2 }
    let fdFlags := cloexecFlag (hasFlag sockType SOCK_CLOEXEC)
    match allocFd c ofdA.1 fdFlags with
    | (.error e, c) => (.error e, c)
    | (.ok fd0, c) =>
      match allocFd c ofdB.1 fdFlags with
      | (.error e, c) => (.error e, c)
      | (.ok fd1, c) => (.ok (fd0, fd1), c)

/-- Two new pipes with the two sockets over them and their descriptions, before they have
descriptors. -/
def placedSockets (c : Ctx) (flags : UInt32) : Ctx :=
  let ab := c.kernel.pipes.alloc (.new DEFAULT_PIPE_CAPACITY)
  let ba := ab.2.alloc (.new DEFAULT_PIPE_CAPACITY)
  let a := (c.proc.sockets.alloc (pairedSocket ab.1 ba.1 0)).1
  let b := ((c.proc.sockets.alloc (pairedSocket ab.1 ba.1 0)).2.alloc
    (pairedSocket ba.1 ab.1 a)).1
  (c.updKernel fun k => { k with pipes := ba.2 }).updProc fun p =>
    { p with
      sockets := ((c.proc.sockets.alloc (pairedSocket ab.1 ba.1 b)).2.alloc
        (pairedSocket ba.1 ab.1 a)).2
      ofdTable := ((c.proc.ofdTable.alloc (socketOfd a flags)).2.alloc (socketOfd b flags)).2 }

theorem allocFd_frame_of_eq {c c' : Ctx} {idx : ℕ} {flags : UInt32} {r : Except Errno ℤ}
    (h : allocFd c idx flags = (r, c')) :
    ∃ t, c' = c.updProc fun p => { p with fdTable := t } := by
  have hframe := allocFd_frame c idx flags
  rwa [h] at hframe

/-- A pair of sockets is refused at once, or created, with or without descriptors. -/
theorem sysSocketpair_cases (c : Ctx) (domain sockType : UInt32) :
    ((domain ≠ AF_UNIX ∨ socketType sockType ≠ some .Stream) ∧
      (sysSocketpair c domain sockType).2 = c) ∨
    ¬ (domain ≠ AF_UNIX ∨ socketType sockType ≠ some .Stream) ∧
      ∃ flags t, (sysSocketpair c domain sockType).2 =
        (placedSockets c flags).updProc fun p => { p with fdTable := t } := by
  rw [sysSocketpair]
  split
  · rename_i hdomain
    exact .inl ⟨.inl hdomain, rfl⟩
  rename_i hdomain
  split
  · rename_i htype
    exact .inl ⟨.inr htype, rfl⟩
  rename_i htype
  refine .inr ⟨not_or.mpr ⟨hdomain, htype⟩,
    nonblockFlag O_RDWR (hasFlag sockType SOCK_NONBLOCK), ?_⟩
  dsimp only
  split
  · rename_i hfirst
    exact allocFd_frame_of_eq hfirst
  rename_i hfirst
  obtain ⟨t₀, rfl⟩ := allocFd_frame_of_eq hfirst
  split
  all_goals
    rename_i hsecond
    obtain ⟨t₁, rfl⟩ := allocFd_frame_of_eq hsecond
    exact ⟨t₁, rfl⟩

end PosixKernel
