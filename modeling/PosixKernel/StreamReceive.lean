import PosixKernel.Lib.BoundedQueue
import PosixKernel.Messages

/-!
# Receiving from a Stream

Bytes arrive at the pipe of a stream socket while its owner receives with whatever flags. A receive
that has to fill its buffer (`MSG_WAITALL`) takes out what there is before it finds that this is not
enough and reports `EAGAIN`; the bytes it has taken are gone.

## Main results

* `readBuffer_eq` — what one receive returns and leaves;
* `sysRecv_stream_iff` — when nothing is lost, over whole runs.
-/

namespace PosixKernel

open BoundedQueue (Flow)

variable (N : NetIO)

/-! ### The pipe of a socket -/

namespace MsgCtx

variable {m : MsgCtx} {g : Bool} {i : ℕ} {p : PipeBuffer}

theorem pipeAt_putPipe (h : m.pipeAt g i = some p) (p' : PipeBuffer) :
    (m.putPipe g i p').pipeAt g i = some p' := by
  cases g with
  | false =>
    show (m.ctx.proc.pipes.modify i _).get i = some p'
    rw [SlotTable.get_modify, if_pos rfl, show m.ctx.proc.pipes.get i = some p from h]
    rfl
  | true =>
    show (m.ctx.kernel.pipes.pipes.modify i _).get i = some p'
    rw [SlotTable.get_modify, if_pos rfl, show m.ctx.kernel.pipes.pipes.get i = some p from h]
    rfl

theorem socketOf_putPipe (p' : PipeBuffer) (fd : ℤ) :
    socketOf (m.putPipe g i p').ctx.proc fd = socketOf m.ctx.proc fd := by
  cases g <;> rfl

end MsgCtx

/-- A receive that has to fill its buffer. -/
def mustFill (flags : UInt32) : Bool := hasFlag flags MSG_WAITALL && !hasFlag flags MSG_PEEK

/-- **One receive**: what the pipe has at most for the buffer, unless it had to be filled and is
not, or there is nothing yet. Either way the bytes are taken out. -/
theorem readBuffer_eq {m : MsgCtx} {g : Bool} {i : ℕ} {p : PipeBuffer} (h : m.pipeAt g i = some p)
    (hp : p.Sound) (bufLen : ℕ) (flags : UInt32) : readBuffer m g i bufLen flags =
      (if bufLen ≤ p.len ∨ 0 < p.len ∧ mustFill flags = false ∨ p.len = 0 ∧ p.isWriteEndOpen = false
        then .ok ⟨min bufLen p.len, p.contents.take bufLen, none⟩ else .error .EAGAIN,
        if hasFlag flags MSG_PEEK then m else m.putPipe g i (p.read bufLen).2) := by
  have hlen : (p.contents.take bufLen).length = min bufLen p.len := by
    rw [List.length_take, PipeBuffer.length_contents]
  simp only [readBuffer, h, PipeBuffer.peek_eq hp, hlen]
  by_cases hzero : p.len = 0
  · have hnil : p.contents = [] := List.eq_nil_of_length_eq_zero (by simpa using hzero)
    rcases Nat.eq_zero_or_pos bufLen with rfl | hpos
    · simp
    simp only [hzero, hnil, List.take_nil, Nat.min_zero, Nat.le_zero, hpos.ne', lt_irrefl,
      false_and,
      false_or, true_and, if_false]
    split <;> rfl
  have hempty : p.contents.take bufLen = [] ↔ bufLen = 0 := by
    rw [← List.length_eq_zero_iff, hlen]
    omega
  rcases Nat.eq_zero_or_pos bufLen with rfl | hpos
  · simp
  have hmin : bufLen ≤ min bufLen p.len ↔ bufLen ≤ p.len := by omega
  have hsome : 0 < min bufLen p.len := by omega
  simp only [hmin, hsome, hempty, hpos.ne', hzero, Nat.pos_of_ne_zero hzero, mustFill, true_and,
    false_and, or_false, if_false]
  split <;> rfl

/-! ### Runs -/

/-- What happens to a stream: its owner receives, bytes arrive, the peer closes. -/
inductive StreamEvent
  | recv (bufLen : ℕ) (flags : UInt32)
  | arrives (data : Bytes)
  | peerCloses

variable (fd : ℤ) (g : Bool) (i : ℕ)

/-- The bytes that a receive has handed out for good. -/
def handedOut (flags : UInt32) : Except Errno Received → Bytes
  | .ok r => if hasFlag flags MSG_PEEK then [] else r.bytes
  | .error _ => []

/-- An event at the socket `fd`, whose pipe is `i`, with an observer of the stream. -/
def streamNext (s : MsgCtx × Flow UInt8) : StreamEvent → MsgCtx × Flow UInt8
  | .recv bufLen flags =>
    let r := sysRecv N s.1 fd bufLen flags
    (r.2, { s.2 with delivered := s.2.delivered ++ handedOut flags r.1 })
  | .arrives data =>
    match s.1.pipeAt g i with
    | none => s
    | some p =>
      (s.1.putPipe g i (p.write data).2,
        { s.2 with accepted := s.2.accepted ++ data.take (p.write data).1 })
  | .peerCloses =>
    match s.1.pipeAt g i with
    | none => s
    | some p => (s.1.putPipe g i p.closeWriteEnd, s.2)

/-- Out-of-band bytes are not part of the stream. -/
def StreamEvent.InBand : StreamEvent → Prop
  | .recv _ flags => hasFlag flags MSG_OOB = false
  | _ => True

/-- **The stream is whole**: the bytes handed out are the first that the peer wrote, and the others
are still there. -/
def StreamWhole (s : MsgCtx × Flow UInt8) : Prop :=
  ∃ p, s.1.pipeAt g i = some p ∧ s.2.accepted = s.2.delivered ++ p.contents

/-- **The condition**: a buffer that has to be filled meets enough bytes, or none at all. -/
def StreamEvent.Fills (s : MsgCtx × Flow UInt8) : StreamEvent → Prop
  | .recv bufLen flags => ∀ k sock p, socketOf s.1.ctx.proc fd = .ok (k, sock) →
    s.1.pipeAt g i = some p → sock.state = .Connected → sock.shutRd = false →
      mustFill flags = true → p.len = 0 ∨ bufLen ≤ p.len
  | _ => True

/-- The socket at `fd` is a stream over the pipe `i`. -/
structure StreamOver (m : MsgCtx) : Prop where
  socket : ∃ k sock, socketOf m.ctx.proc fd = .ok (k, sock) ∧ sock.recvBufIdx = some i ∧
    sock.globalPipes = g
  pipe : ∃ p, m.pipeAt g i = some p ∧ p.Sound

variable {N fd g i}

theorem StreamOver.putPipe {m : MsgCtx} (h : StreamOver fd g i m) {p : PipeBuffer} (hp : p.Sound) :
    StreamOver fd g i (m.putPipe g i p) := by
  obtain ⟨q, hq, -⟩ := h.pipe
  refine ⟨?_, p, MsgCtx.pipeAt_putPipe hq p, hp⟩
  rw [MsgCtx.socketOf_putPipe]
  exact h.socket

/-- **One receive.** It is refused or finds the stream shut, and nothing happens; or it reads the
pipe. -/
theorem StreamOver.sysRecv {m : MsgCtx} (h : StreamOver fd g i m) {k : ℕ} {sock : SocketInfo}
    (hsock : socketOf m.ctx.proc fd = .ok (k, sock)) {bufLen : ℕ} {flags : UInt32}
    (hoob : hasFlag flags MSG_OOB = false) : PosixKernel.sysRecv N m fd bufLen flags =
      if sock.state ≠ .Connected then (.error .ENOTCONN, m)
      else if sock.shutRd then (.ok ⟨0, [], none⟩, m) else readBuffer m g i bufLen flags := by
  obtain ⟨k', sock', hsock', hi, hg⟩ := h.socket
  cases hsock.symm.trans hsock'
  simp [PosixKernel.sysRecv, hsock, hoob, hi, hg]

variable {s : MsgCtx × Flow UInt8}

/-- What is handed out and what is left are together what there was, exactly if the condition
holds. -/
theorem StreamOver.recv_iff (h : StreamOver fd g i s.1) (hwhole : StreamWhole g i s) (bufLen : ℕ)
    {flags : UInt32} (hoob : hasFlag flags MSG_OOB = false) :
    StreamOver fd g i (streamNext N fd g i s (.recv bufLen flags)).1 ∧
      (StreamWhole g i (streamNext N fd g i s (.recv bufLen flags)) ↔
        (StreamEvent.recv bufLen flags).Fills fd g i s) := by
  obtain ⟨k, sock, hsock, -, -⟩ := h.socket
  obtain ⟨p, hp, hsound⟩ := h.pipe
  obtain ⟨p', hp', haccepted⟩ := hwhole
  cases hp.symm.trans hp'
  -- the condition at this socket and pipe
  have hfills : (StreamEvent.recv bufLen flags).Fills fd g i s ↔ (sock.state = .Connected →
      sock.shutRd = false → mustFill flags = true → p.len = 0 ∨ bufLen ≤ p.len) := by
    refine ⟨fun hf => hf k sock p hsock hp, fun hf k' sock' p' hsock' hp' => ?_⟩
    cases hsock.symm.trans hsock'
    cases hp.symm.trans hp'
    exact hf
  simp only [streamNext, h.sysRecv hsock hoob, hfills]
  by_cases hstate : sock.state = .Connected
  · rw [if_neg (not_not.mpr hstate)]
    cases hshut : sock.shutRd with
    | true => exact ⟨h, iff_of_true ⟨p, hp, by simpa [handedOut] using haccepted⟩ (by simp)⟩
    | false =>
      rw [if_neg Bool.false_ne_true, readBuffer_eq hp hsound]
      cases hpeek : hasFlag flags MSG_PEEK with
      | true =>
        have hfree : mustFill flags = false := by simp [mustFill, hpeek]
        refine ⟨h, iff_of_true ⟨p, hp, ?_⟩ (by simp [hfree])⟩
        split <;> simpa [handedOut, hpeek] using haccepted
      | false =>
        rw [if_neg Bool.false_ne_true]
        refine ⟨h.putPipe (hsound.read bufLen), ?_⟩
        have hpipe := MsgCtx.pipeAt_putPipe hp (p.read bufLen).2
        simp only [StreamWhole, hpipe, Option.some.injEq, exists_eq_left',
          PipeBuffer.contents_read, haccepted, List.append_assoc, List.append_cancel_left_eq]
        split
        next hok =>
          simp only [handedOut, hpeek, Bool.false_eq_true, if_false, List.take_append_drop,
            true_iff]
          intro _ _ hfill
          rcases hok with hok | hok | hok
          · exact .inr hok
          · cases hok.2.symm.trans hfill
          · exact .inl hok.1
        next hnot =>
          -- what has been taken out is lost, unless there was nothing
          have hlost : p.contents = p.contents.drop bufLen ↔ p.len = 0 := by
            rw [← PipeBuffer.length_contents, List.length_eq_zero_iff]
            constructor
            · intro heq
              have hlen := congrArg List.length heq
              rw [List.length_drop, PipeBuffer.length_contents] at hlen
              rw [← List.length_eq_zero_iff, PipeBuffer.length_contents]
              omega
            · intro hnil
              rw [hnil, List.drop_nil]
          simp only [handedOut, List.nil_append, hlost]
          push Not at hnot
          constructor
          · exact fun hzero _ _ _ => .inl hzero
          intro hf
          by_contra hne
          have hmust : mustFill flags = true := by
            simpa using hnot.2.1 (Nat.pos_of_ne_zero hne)
          rcases hf hstate trivial hmust with hzero | hle
          · exact hne hzero
          · omega
  · rw [if_pos hstate]
    exact ⟨h, iff_of_true ⟨p, hp, by simpa [handedOut] using haccepted⟩ fun hc => absurd hc hstate⟩

theorem StreamOver.arrives (h : StreamOver fd g i s.1) (hwhole : StreamWhole g i s) (data : Bytes) :
    StreamOver fd g i (streamNext N fd g i s (.arrives data)).1 ∧
      StreamWhole g i (streamNext N fd g i s (.arrives data)) := by
  obtain ⟨p, hp, hsound⟩ := h.pipe
  obtain ⟨p', hp', haccepted⟩ := hwhole
  cases hp.symm.trans hp'
  simp only [streamNext, hp]
  refine ⟨h.putPipe (hsound.write data), _, MsgCtx.pipeAt_putPipe hp _, ?_⟩
  rw [haccepted, PipeBuffer.contents_write hsound, List.append_assoc]

theorem StreamOver.peerCloses (h : StreamOver fd g i s.1) (hwhole : StreamWhole g i s) :
    StreamOver fd g i (streamNext N fd g i s .peerCloses).1 ∧
      StreamWhole g i (streamNext N fd g i s .peerCloses) := by
  obtain ⟨p, hp, hsound⟩ := h.pipe
  obtain ⟨p', hp', haccepted⟩ := hwhole
  cases hp.symm.trans hp'
  simp only [streamNext, hp]
  exact ⟨h.putPipe (hsound.closeEnd .write), _, MsgCtx.pipeAt_putPipe hp _, haccepted⟩

/-- **Nothing is lost exactly if every buffer that has to be filled meets enough bytes or none.** -/
theorem sysRecv_stream_iff (N : NetIO) {m : MsgCtx} (hm : StreamOver fd g i m) {flow : Flow UInt8}
    (hwhole : StreamWhole g i (m, flow)) (events : List StreamEvent)
    (hin : ∀ e ∈ events, e.InBand) :
    (∀ n, StreamWhole g i ((events.take n).foldl (streamNext N fd g i) (m, flow))) ↔
      Runs (streamNext N fd g i) (fun s e => e.Fills fd g i s) (m, flow) events := by
  refine Runs.forall_take_iff (I := fun s => StreamOver fd g i s.1 ∧ StreamWhole g i s)
    (Runs.of_forall_mem hin) ⟨hm, hwhole⟩ (fun _ h => h.2) ?_ ?_
  · rintro s e ⟨hover, hwhole⟩ hin hfills
    cases e with
    | recv bufLen =>
      obtain ⟨hover', hiff⟩ := hover.recv_iff (N := N) hwhole bufLen hin
      exact ⟨hover', hiff.mpr hfills⟩
    | arrives data => exact hover.arrives hwhole data
    | peerCloses => exact hover.peerCloses hwhole
  rintro s e ⟨hover, hwhole⟩ hin hwhole'
  cases e with
  | recv bufLen => exact (hover.recv_iff hwhole bufLen hin).2.mp hwhole'
  | arrives => trivial
  | peerCloses => trivial

/-- A process with a stream socket at descriptor 0 over a pipe of four bytes. -/
def streamProcess : Process :=
  { Process.new 1 with
    fdTable := { FdTable.new with entries := ⟨[some ⟨0, 0⟩]⟩ }
    ofdTable := ⟨[some (.fresh .Socket O_RDWR (-1) [])]⟩
    sockets := ⟨[some { SocketInfo.new .Unix .Stream 0 with
      state := .Connected, recvBufIdx := some 0 }]⟩
    pipes := ⟨[some (.new 4)]⟩ }

/-- The state before anything arrives. -/
def streamStart : MsgCtx × Flow UInt8 := (⟨⟨.boot, streamProcess⟩, []⟩, ⟨[], []⟩)

theorem sysRecv_stream_filled :
    StreamWhole false 0 (([.arrives [1, 2], .recv 2 MSG_WAITALL].take 2).foldl
      (streamNext .down 0 false 0) streamStart) := by
  have hover : StreamOver 0 false 0 streamStart.1 :=
    ⟨⟨0, _, rfl, rfl, rfl⟩, .new 4, rfl, PipeBuffer.sound_new (by decide)⟩
  have hwhole : StreamWhole false 0 streamStart := ⟨.new 4, rfl, rfl⟩
  refine (sysRecv_stream_iff .down hover hwhole
    [.arrives [1, 2], .recv 2 MSG_WAITALL] fun e he => ?_).mpr ⟨trivial, ?_, trivial⟩ 2
  · rcases List.mem_pair.mp he with rfl | rfl
    · trivial
    · rfl
  intro k sock p _ hp _ _ _
  cases hp
  exact .inr (by decide)

/-- Two bytes arrive; a receive that has to fill a buffer of four reports `EAGAIN`, and the bytes
are gone. -/
theorem sysRecv_stream_lost :
    let s := [StreamEvent.arrives [1, 2]].foldl (streamNext .down 0 false 0) streamStart
    (sysRecv .down s.1 0 4 MSG_WAITALL).1 = .error .EAGAIN ∧
      (sysRecv .down (sysRecv .down s.1 0 4 MSG_WAITALL).2 0 2 0).1 = .error .EAGAIN ∧
      (sysRecv .down s.1 0 2 0).1 = .ok ⟨2, [1, 2], none⟩ := by
  decide

end PosixKernel
