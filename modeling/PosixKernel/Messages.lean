import PosixKernel.Dir
import PosixKernel.Net
import PosixKernel.PipeData

/-!
# Sending and Receiving on Sockets

`write` and `recv` on sockets, in the mode in which one kernel serves all processes: instead of
waiting the calls report `EAGAIN`. A connection on the own machine runs over pipes; the others are
the host's.

## Main definitions

* `sysWriteSocket` — sending;
* `sysRecv` — receiving.
-/

namespace PosixKernel

def SIGPIPE : ℕ := 13

def MSG_OOB : UInt32 := 1
def MSG_PEEK : UInt32 := 2
def MSG_WAITALL : UInt32 := 0x100

/-- What a call on messages acts on: the shared state and the caller, and what was handed to the
host's network. -/
structure MsgCtx where
  ctx : Ctx
  wire : List (Int32 × Bytes)

/-- The host's network: how many of the bytes it takes, and the bytes that have arrived. -/
structure NetIO where
  netSend : Int32 → (len : ℕ) → UInt32 → Except Errno (Fin (len + 1))
  netRecv : Int32 → (len : ℕ) → UInt32 → Except Errno { bytes : Bytes // bytes.length ≤ len }

/-- A host without a network. -/
def NetIO.down : NetIO where
  netSend _ _ _ := .error .ENETUNREACH
  netRecv _ _ _ := .error .ENETUNREACH

namespace MsgCtx

/-- Act on the shared state and the caller only. -/
def upd (m : MsgCtx) (f : Ctx → Ctx) : MsgCtx := { m with ctx := f m.ctx }

/-- A pipe of a socket. -/
def pipeAt (m : MsgCtx) (globalPipes : Bool) (idx : ℕ) : Option PipeBuffer :=
  if globalPipes then m.ctx.kernel.pipes.get idx else m.ctx.proc.pipes.get idx

/-- Change a pipe of a socket. -/
def putPipe (m : MsgCtx) (globalPipes : Bool) (idx : ℕ) (p : PipeBuffer) : MsgCtx :=
  m.upd fun c =>
    if globalPipes then c.updKernel fun k => { k with pipes := k.pipes.modify idx fun _ => p }
    else c.updProc fun proc => { proc with pipes := proc.pipes.modify idx fun _ => p }

def raiseSigpipe (m : MsgCtx) : MsgCtx :=
  m.upd fun c => c.updProc fun p => { p with signals := p.signals.raise SIGPIPE }

end MsgCtx

variable (N : NetIO)

/-! ### Sending bytes -/

/-- Hand bytes to the host's network. -/
def hostNetSend (m : MsgCtx) (handle : Option Int32) (buf : Bytes) (flags : UInt32) :
    Except Errno ℕ × MsgCtx :=
  match handle with
  | none => (.error .ENOTCONN, m)
  | some h =>
    match N.netSend h buf.length flags with
    | .error e => (.error e, m)
    | .ok n => (.ok n, { m with wire := m.wire ++ [(h, buf.take n)] })

/-- Write to the pipe of a socket. -/
def writeBuffer (m : MsgCtx) (globalPipes : Bool) (idx : ℕ) (buf : Bytes) :
    Except Errno ℕ × MsgCtx :=
  match m.pipeAt globalPipes idx with
  | none => (.error .EBADF, m)
  | some pipe =>
    if !pipe.isReadEndOpen then (.error .EPIPE, m.raiseSigpipe)
    else
      let written := pipe.write buf
      if 0 < written.1 then (.ok written.1, m.putPipe globalPipes idx written.2)
      else (.error .EAGAIN, m)

/-- `write` on a socket. -/
def sysWriteSocket (m : MsgCtx) (fd : ℤ) (sock : SocketInfo) (buf : Bytes) :
    Except Errno ℕ × MsgCtx :=
  match ofdOf m.ctx.proc fd with
  | .error e => (.error e, m)
  | .ok (_, o) =>
    if o.statusFlags &&& O_ACCMODE = O_RDONLY then (.error .EBADF, m)
    else if buf = [] then (.ok 0, m)
    else if sock.shutWr then (.error .EPIPE, m.raiseSigpipe)
    else
      match sock.sendBufIdx, sock.domain with
      | some idx, _ => writeBuffer m sock.globalPipes idx buf
      | none, .Unix => if sock.sockType = .Dgram then (.ok buf.length, m) else (.error .ENOTCONN, m)
      | none, _ => hostNetSend N m sock.hostNetHandle buf 0

/-! ### Receiving bytes -/

/-- What a receive returns: the count, the bytes that it put in the buffer, and the sender of a
datagram. -/
structure Received where
  count : ℕ
  bytes : Bytes
  source : Option (Ipv4 × UInt16)
  deriving DecidableEq

/-- Receive from the pipe of a socket. Bytes that do not fill a buffer that has to be filled are
taken out all the same. -/
def readBuffer (m : MsgCtx) (globalPipes : Bool) (idx bufLen : ℕ) (flags : UInt32) :
    Except Errno Received × MsgCtx :=
  match m.pipeAt globalPipes idx with
  | none => (.error .EBADF, m)
  | some pipe =>
    let isPeek := hasFlag flags MSG_PEEK
    let waitall := hasFlag flags MSG_WAITALL && !isPeek
    let bytes := pipe.peek bufLen
    let m := if isPeek then m else m.putPipe globalPipes idx (pipe.read bufLen).2
    if bufLen ≤ bytes.length ∨ 0 < bytes.length ∧ waitall = false then
      (.ok ⟨bytes.length, bytes, none⟩, m)
    else if bytes = [] ∧ pipe.isWriteEndOpen = false then (.ok ⟨0, [], none⟩, m)
    else (.error .EAGAIN, m)

/-- Take the out-of-band byte. -/
def takeOob (m : MsgCtx) (idx : ℕ) (sock : SocketInfo) (bufLen : ℕ) :
    Except Errno Received × MsgCtx :=
  match sock.oobByte with
  | none => (.error .EINVAL, m)
  | some byte =>
    (.ok ⟨1, [byte].take bufLen, none⟩,
      m.upd fun c => c.updSocket idx fun s => { s with oobByte := none })

/-- Receive from the host's network. -/
def hostNetRecv (m : MsgCtx) (handle : Option Int32) (bufLen : ℕ) (flags : UInt32) :
    Except Errno Received × MsgCtx :=
  match handle with
  | none => (.error .ENOTCONN, m)
  | some h =>
    match N.netRecv h bufLen flags with
    | .error e => (.error e, m)
    | .ok bytes => (.ok ⟨bytes.val.length, bytes.val, none⟩, m)

/-- Receive on a connected socket. -/
def sysRecv (m : MsgCtx) (fd : ℤ) (bufLen : ℕ) (flags : UInt32) :
    Except Errno Received × MsgCtx :=
  match socketOf m.ctx.proc fd with
  | .error e => (.error e, m)
  | .ok (sockIdx, sock) =>
    if sock.state ≠ .Connected then (.error .ENOTCONN, m)
    else if sock.shutRd then (.ok ⟨0, [], none⟩, m)
    else if hasFlag flags MSG_OOB then takeOob m sockIdx sock bufLen
    else
      match sock.recvBufIdx, sock.domain with
      | some idx, _ => readBuffer m sock.globalPipes idx bufLen flags
      | none, .Unix => (.error .ENOTCONN, m)
      | none, _ => hostNetRecv N m sock.hostNetHandle bufLen flags

end PosixKernel
