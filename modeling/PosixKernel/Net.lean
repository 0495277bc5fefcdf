import PosixKernel.Create

/-!
# Binding, Connecting and Shutting Sockets Down

The calls on existing sockets. An `AF_INET` connection to another machine is the host's;
one to the own machine, and an `AF_UNIX` connection, runs over two pipes and puts the
server's side in the listener's queue.
-/

namespace PosixKernel

/-- The socket a descriptor is open on, with its slot. -/
def socketOf (p : Process) (fd : ℤ) : Except Errno (ℕ × SocketInfo) :=
  match p.fdTable.get fd with
  | .error e => .error e
  | .ok entry =>
    match p.ofdTable.get entry.ofdRef with
    | none => .error .EBADF
    | some o =>
      if o.fileType ≠ .Socket then .error .ENOTSOCK
      else
        match p.sockets.get (handleSlot o.hostHandle) with
        | none => .error .EBADF
        | some sock => .ok (handleSlot o.hostHandle, sock)

theorem socketOf_eq_ok {p : Process} {fd : ℤ} {idx : ℕ} {s : SocketInfo}
    (h : socketOf p fd = .ok (idx, s)) : p.sockets.get idx = some s := by
  rw [socketOf] at h
  split at h
  · cases h
  split at h
  · cases h
  split at h
  · cases h
  split at h
  · cases h
  next hs =>
    cases h
    exact hs

/-- Change a socket of the calling process. -/
def Ctx.updSocket (c : Ctx) (idx : ℕ) (f : SocketInfo → SocketInfo) : Ctx :=
  c.updProc fun p => { p with sockets := p.sockets.modify idx f }

/-! ### Shutting down -/

/-- Close an end of a socket's buffer without giving its slot back. -/
def shutBuffer (globalPipes : Bool) (c : Ctx) (buf : Option ℕ) (e : PipeEnd) : Ctx :=
  match buf with
  | none => c
  | some idx =>
    if globalPipes then
      c.updKernel fun k => { k with pipes := k.pipes.modify idx (PipeBuffer.closeEnd e) }
    else c.updProc fun p => { p with pipes := p.pipes.modify idx (PipeBuffer.closeEnd e) }

/-- Close a socket's host connection on the host. -/
def shutNetHandle (c : Ctx) : Option Int32 → Ctx
  | none => c
  | some h => c.logCall (.netClose h)

/-- Shut one or both directions of a connection down. -/
def sysShutdown (c : Ctx) (fd : ℤ) (how : UInt32) : Except Errno Unit × Ctx :=
  match socketOf c.proc fd with
  | .error e => (.error e, c)
  | .ok (idx, sock) =>
    if how = SHUT_RD then (.ok (), c.updSocket idx fun s => { s with shutRd := true })
    else if how = SHUT_WR then
      let c := c.updSocket idx fun s => { s with shutWr := true }
      (.ok (), shutBuffer sock.globalPipes c sock.sendBufIdx .write)
    else if how = SHUT_RDWR then
      let c := c.updSocket idx fun s => { s with shutRd := true, shutWr := true }
      let c := shutNetHandle c sock.hostNetHandle
      let c := shutBuffer sock.globalPipes c sock.sendBufIdx .write
      (.ok (), shutBuffer sock.globalPipes c sock.recvBufIdx .read)
    else (.error .EINVAL, c)

/-! ### Addresses -/

/-- The port of an internet address, stored with its high byte first. -/
def addrPort (addr : Bytes) : UInt16 := (addr.getD 2 0).toUInt16 * 256 + (addr.getD 3 0).toUInt16

def addrIp (addr : Bytes) : Ipv4 :=
  (addr.getD 4 0, addr.getD 5 0, addr.getD 6 0, addr.getD 7 0)

/-- The path of a local address: up to the first zero byte, and not empty. -/
def unixPath (addr : Bytes) : Option Bytes :=
  if addr.length < 3 then none
  else
    let path := (addr.drop 2).takeWhile (· ≠ 0)
    if path = [] then none else some path

def loopback : Ipv4 := (127, 0, 0, 1)

/-- The port number after the one handed out; the range starts again at 49152. -/
def nextPort (port : UInt16) : UInt16 := if port + 1 = 0 then 49152 else port + 1

/-- A port for a socket that asked for none. -/
def choosePort (c : Ctx) (port : UInt16) : UInt16 × Ctx :=
  if port = 0 then
    (c.proc.nextEphemeralPort,
      c.updProc fun p => { p with nextEphemeralPort := nextPort p.nextEphemeralPort })
  else (port, c)

/-! ### Binding and listening -/

variable (H : HostIO)

/-- Enter a local socket in the registry, with an inode on the host at its path. -/
def bindUnix (c : Ctx) (idx : ℕ) (resolved : Bytes) : Except Errno Unit × Ctx :=
  let flags := O_CREAT ||| O_EXCL ||| O_WRONLY
  let reply := H.hostOpen c.kernel.log resolved flags 0o600
  let c := c.logCall (.open resolved flags 0o600 reply)
  match reply with
  | .error .EEXIST => (.error .EADDRINUSE, c)
  | .error e => (.error e, c)
  | .ok h =>
    let c := c.logCall (.close h)
    if (c.kernel.unixRegistry.lookup resolved).isSome then
      (.error .EADDRINUSE, c.logCall (.unlink resolved))
    else
      let c := c.updKernel fun k =>
        { k with unixRegistry := k.unixRegistry.insert resolved ⟨c.proc.pid, idx⟩ }
      (.ok (), c.updSocket idx fun s => { s with bindPath := some resolved, state := .Bound })

/-- Give a socket an address. -/
def sysBind (c : Ctx) (fd : ℤ) (addr : Bytes) : Except Errno Unit × Ctx :=
  match socketOf c.proc fd with
  | .error e => (.error e, c)
  | .ok (idx, sock) =>
    if sock.state ≠ .Unbound then (.error .EINVAL, c)
    else
      match sock.domain with
      | .Inet =>
        if addr.length < 8 then (.error .EINVAL, c)
        else
          let chosen := choosePort c (addrPort addr)
          (.ok (), chosen.2.updSocket idx fun s =>
            { s with bindAddr := addrIp addr, bindPort := chosen.1, state := .Bound })
      | .Unix =>
        match unixPath addr with
        | none => (.error .EINVAL, c)
        | some path => bindUnix H c idx (resolvePath path c.proc.cwd)
      | .Inet6 => (.error .EADDRNOTAVAIL, c)

/-- Reserve the shared accept queue of an internet listener that has none. -/
def listenQueue (c : Ctx) (idx : ℕ) (sock : SocketInfo) : Ctx :=
  if sock.domain = .Inet ∧ sock.sharedBacklogIdx = none then
    let made := c.kernel.backlogs.allocQueue
    (c.updKernel fun k => { k with backlogs := made.2 }).updSocket idx fun s =>
      { s with sharedBacklogIdx := some made.1 }
  else c

/-- Let a bound stream socket accept connections. -/
def sysListen (c : Ctx) (fd : ℤ) : Except Errno Unit × Ctx :=
  match socketOf c.proc fd with
  | .error e => (.error e, c)
  | .ok (idx, sock) =>
    if sock.sockType ≠ .Stream then (.error .EOPNOTSUPP, c)
    else if sock.state ≠ .Bound ∧ sock.state ≠ .Listening then (.error .EINVAL, c)
    else
      let c := c.updSocket idx fun s => { s with state := .Listening }
      let c := listenQueue c idx sock
      (.ok (), if sock.domain = .Inet then c.logCall (.netListen fd sock.bindPort sock.bindAddr)
        else c)

/-! ### Accepting -/

/-- The socket of a connection taken from a shared accept queue. -/
def acceptedSocket (listener : SocketInfo) (pc : PendingConnection) : SocketInfo :=
  { SocketInfo.new .Inet .Stream 0 with
    state := .Connected
    recvBufIdx := some pc.recvPipeIdx
    sendBufIdx := some pc.sendPipeIdx
    bindAddr := listener.bindAddr
    bindPort := listener.bindPort
    peerAddr := pc.peerAddr
    peerPort := pc.peerPort
    globalPipes := true }

/-- Accept from the listener's own queue, whose sockets exist already. -/
def acceptLocal (c : Ctx) (idx : ℕ) (sock : SocketInfo) : Except Errno ℤ × Ctx :=
  match sock.listenBacklog with
  | [] => (.error .EAGAIN, c)
  | accepted :: rest =>
    newDescriptor (c.updSocket idx fun s => { s with listenBacklog := rest })
      (socketOfd accepted O_RDWR) 0

/-- The oldest connection in a listener's shared accept queue, if it has one. -/
def popShared (c : Ctx) (sock : SocketInfo) : Option (PendingConnection × SharedBacklogTable) :=
  sock.sharedBacklogIdx.bind c.kernel.backlogs.pop

/-- Take a pending connection and open a descriptor on it. -/
def sysAccept (c : Ctx) (fd : ℤ) : Except Errno ℤ × Ctx :=
  match socketOf c.proc fd with
  | .error e => (.error e, c)
  | .ok (idx, sock) =>
    if sock.state ≠ .Listening then (.error .EINVAL, c)
    else
      match popShared c sock with
      | some (pc, backlogs) =>
        let made := c.proc.sockets.alloc (acceptedSocket sock pc)
        newDescriptor
          ((c.updKernel fun k => { k with backlogs }).updProc fun p =>
            { p with sockets := made.2 })
          (socketOfd made.1 O_RDWR) 0
      | none => acceptLocal c idx sock

/-! ### Connecting -/

/-- The first listening stream socket on a port. -/
def findListener (t : SocketTable) (port : UInt16) : Option ℕ :=
  (List.range t.slots.length).find? fun i =>
    match t.get i with
    | none => false
    | some s => s.state = .Listening && s.bindPort = port && s.sockType = .Stream

/-- The lowest two neighbouring free slots of a process's own pipe table, or the next two
new ones. -/
def freePair (t : SlotTable PipeBuffer) : ℕ :=
  ((List.range (t.slots.length - 1)).find? fun i =>
    (t.get i).isNone && (t.get (i + 1)).isNone).getD t.slots.length

/-- Place two pipes next to each other in the process's own table. -/
def allocPipePair (c : Ctx) (p q : PipeBuffer) : (ℕ × ℕ) × Ctx :=
  let i := freePair c.proc.pipes
  ((i, i + 1), c.updProc fun proc =>
    { proc with pipes := (proc.pipes.put i (some p)).put (i + 1) (some q) })

/-- Fill the local address of a client that had none. -/
def fillLocal (port : UInt16) (s : SocketInfo) : SocketInfo :=
  if s.bindPort = 0 then { s with bindPort := port, bindAddr := loopback } else s

/-- Connect a datagram socket on the own machine: only the addresses are recorded. -/
def connectDgram (c : Ctx) (idx : ℕ) (sock : SocketInfo) (ip : Ipv4) (port : UInt16) : Ctx :=
  let chosen := choosePort c sock.bindPort
  chosen.2.updSocket idx fun s =>
    fillLocal chosen.1 { s with state := .Connected, peerAddr := ip, peerPort := port }

/-- Put the server's side of a new connection in the listener's queue and connect the
client to it: the client writes to the first pipe and reads from the second. -/
def joinSockets (c : Ctx) (client listener : ℕ) (accepted : SocketInfo)
    (f : ℕ → SocketInfo → SocketInfo) : Ctx :=
  let made := c.proc.sockets.alloc accepted
  let c := c.updProc fun p => { p with sockets := made.2 }
  let c := c.updSocket listener fun s => { s with listenBacklog := s.listenBacklog ++ [made.1] }
  let c := c.updSocket client (f made.1)
  c.updSocket made.1 fun s => { s with peerIdx := some client }

/-- Connect a stream socket on the own machine, over pipes of the process. -/
def connectLoopback (c : Ctx) (idx : ℕ) (sock : SocketInfo) (ip : Ipv4) (port : UInt16) :
    Except Errno Unit × Ctx :=
  match findListener c.proc.sockets port with
  | none => (.error .ECONNREFUSED, c)
  | some listenerIdx =>
    let pipes := allocPipePair c (.new 65536) (.new 65536)
    let clientAddr := if sock.bindAddr = (0, 0, 0, 0) then loopback else sock.bindAddr
    let chosen := choosePort pipes.2 sock.bindPort
    let listener := c.proc.sockets.get listenerIdx
    let accepted : SocketInfo :=
      { SocketInfo.new .Inet .Stream 0 with
        state := .Connected
        recvBufIdx := some pipes.1.1
        sendBufIdx := some pipes.1.2
        bindAddr := (listener.map (·.bindAddr)).getD (0, 0, 0, 0)
        bindPort := (listener.map (·.bindPort)).getD 0
        peerAddr := clientAddr
        peerPort := chosen.1 }
    (.ok (), joinSockets chosen.2 idx listenerIdx accepted fun peer s =>
      fillLocal chosen.1
        { s with
          sendBufIdx := some pipes.1.1
          recvBufIdx := some pipes.1.2
          state := .Connected
          peerAddr := ip
          peerPort := port
          peerIdx := some peer })

/-- The number under which the host knows a socket's connection: the socket's slot. -/
def netHandle (sockIdx : ℕ) : Int32 := Int32.ofNat sockIdx

/-- Connect to another machine through the host. -/
def connectExternal (c : Ctx) (idx : ℕ) (ip : Ipv4) (port : UInt16) :
    Except Errno Unit × Ctx :=
  let reply := H.hostNetConnect c.kernel.log (netHandle idx) ip port
  let c := c.logCall (.netConnect (netHandle idx) ip port reply)
  match reply with
  | .error e => (.error e, c)
  | .ok () =>
    (.ok (), c.updSocket idx fun s =>
      { s with state := .Connected, hostNetHandle := some (netHandle idx) })

/-- Connect an internet socket. -/
def connectInet (c : Ctx) (idx : ℕ) (sock : SocketInfo) (addr : Bytes) :
    Except Errno Unit × Ctx :=
  if sock.state = .Connected then (.error .EISCONN, c)
  else if addr.length < 8 then (.error .EINVAL, c)
  else if addrIp addr = loopback ∧ sock.domain = .Inet then
    if sock.sockType = .Dgram then
      (.ok (), connectDgram c idx sock (addrIp addr) (addrPort addr))
    else connectLoopback c idx sock (addrIp addr) (addrPort addr)
  else connectExternal H c idx (addrIp addr) (addrPort addr)

/-- Connect two local sockets of the process over two global pipes. -/
def joinUnix (c : Ctx) (idx listenerIdx : ℕ) : Ctx :=
  let a := c.kernel.pipes.alloc (.new 65536)
  let b := a.2.alloc (.new 65536)
  let accepted : SocketInfo :=
    { SocketInfo.new .Unix .Stream 0 with
      state := .Connected
      recvBufIdx := some a.1
      sendBufIdx := some b.1
      globalPipes := true }
  joinSockets (c.updKernel fun k => { k with pipes := b.2 }) idx listenerIdx accepted
    fun peer s =>
      { s with
        sendBufIdx := some a.1
        recvBufIdx := some b.1
        state := .Connected
        peerIdx := some peer
        globalPipes := true }

/-- The listener at a path, if it is a listening socket of the calling process. -/
def unixListener (c : Ctx) (resolved : Bytes) : Option ℕ :=
  match c.kernel.unixRegistry.lookup resolved with
  | none => none
  | some entry =>
    if entry.pid ≠ c.proc.pid then none
    else
      match c.proc.sockets.get entry.sockIdx with
      | none => none
      | some listener => if listener.state = .Listening then some entry.sockIdx else none

/-- Connect a local socket. A datagram socket has nothing to connect to. -/
def connectUnix (c : Ctx) (idx : ℕ) (sock : SocketInfo) (addr : Bytes) :
    Except Errno Unit × Ctx :=
  if sock.sockType = .Dgram then (.ok (), c.updSocket idx fun s => { s with state := .Connected })
  else if sock.state = .Connected then (.error .EISCONN, c)
  else
    match unixPath addr with
    | none => (.error .EINVAL, c)
    | some path =>
      match unixListener c (resolvePath path c.proc.cwd) with
      | none => (.error .ECONNREFUSED, c)
      | some listenerIdx => (.ok (), joinUnix c idx listenerIdx)

/-- Connect a socket to an address. -/
def sysConnect (c : Ctx) (fd : ℤ) (addr : Bytes) : Except Errno Unit × Ctx :=
  match socketOf c.proc fd with
  | .error e => (.error e, c)
  | .ok (idx, sock) =>
    match sock.domain with
    | .Inet | .Inet6 => connectInet H c idx sock addr
    | .Unix => connectUnix c idx sock addr

end PosixKernel
