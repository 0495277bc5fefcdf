import PosixKernel.StreamReceive
import PosixKernel.SystemSteps

/-!
# Connections That Nobody Accepts

A connection that waits to be accepted has its server's side in the queue of the listener: two pipe
ends that no descriptor refers to. A close of the listener lets its queues go and leaves these ends
open, so the client goes on waiting for bytes and writing bytes, and its pipes outlive it. When a
process is removed with the listener open, the ends that wait in the own queue of the listener are
closed with it; those in a shared queue are not.

## Main results

* `pipesGiven_sysClose`, `pipesGiven_removeProcess` — what a close of a listener and the removal
  of a process do to pipes;
* `listener_gone_iff` — the clients see the end of their connections exactly if no holder of the
  server's ends is left.
-/

namespace PosixKernel

open PipeBuffer

variable {H : HostIO} {N : NetIO}

/-! ### Queued connections -/

/-- The server's side of a connection: the pipe that the client writes to, and the one it reads. -/
structure ServerSide where
  globalPipes : Bool
  recv : ℕ
  send : ℕ

def PendingConnection.side (pc : PendingConnection) : ServerSide :=
  ⟨true, pc.recvPipeIdx, pc.sendPipeIdx⟩

def SocketInfo.side (s : SocketInfo) : Option ServerSide :=
  s.recvBufIdx.bind fun a => s.sendBufIdx.map fun b => ⟨s.globalPipes, a, b⟩

/-- What waits in the queues of a listener: the shared one, and its own. -/
def queuedOn (c : Ctx) (listener : SocketInfo) : List ServerSide :=
  (((listener.sharedBacklogIdx.bind c.kernel.backlogs.get).map SharedBacklog.queue).getD []).map
      PendingConnection.side ++
    listener.listenBacklog.filterMap fun i => (c.proc.sockets.get i).bind SocketInfo.side

/-- A pipe of a connection. -/
def Ctx.pipeAt (c : Ctx) (globalPipes : Bool) (idx : ℕ) : Option PipeBuffer :=
  if globalPipes then c.kernel.pipes.get idx else c.proc.pipes.get idx

/-- Nothing is given back. -/
def nothing : Resource → ℕ := fun _ => 0

/-- The server's ends have no holder beyond those that are given back, and nothing is left for the
client to read. -/
def Deserted (c : Ctx) (given : Resource → ℕ) (q : ServerSide) : Prop :=
  (∀ p, c.pipeAt q.globalPipes q.recv = some p → p.readCount ≤ given (.pipe q.recv .read)) ∧
    ∀ p, c.pipeAt q.globalPipes q.send = some p →
      p.writeCount ≤ given (.pipe q.send .write) ∧ p.len = 0

/-- A client: a socket at a descriptor of some process. -/
structure Client where
  m : MsgCtx
  fd : ℤ
  sock : SocketInfo

/-- The client of a connection: connected over its two pipes, in both directions, and counted as a
writer of the one and a reader of the other, beyond those that are given back. -/
structure Client.Of (cl : Client) (c : Ctx) (given : Resource → ℕ) (q : ServerSide) : Prop where
  socket : ∃ k, socketOf cl.m.ctx.proc cl.fd = .ok (k, cl.sock)
  writable : ∃ i o, ofdOf cl.m.ctx.proc cl.fd = .ok (i, o) ∧ o.statusFlags &&& O_ACCMODE ≠ O_RDONLY
  state : cl.sock.state = .Connected
  shut : cl.sock.shutRd = false ∧ cl.sock.shutWr = false
  pipes : cl.sock.globalPipes = q.globalPipes ∧ cl.sock.sendBufIdx = some q.recv ∧
    cl.sock.recvBufIdx = some q.send
  sees : cl.m.ctx.pipeAt q.globalPipes = c.pipeAt q.globalPipes
  writes : ∃ p, c.pipeAt q.globalPipes q.recv = some p ∧ given (.pipe q.recv .write) < p.writeCount
  reads : ∃ p, c.pipeAt q.globalPipes q.send = some p ∧ p.Sound ∧
    given (.pipe q.send .read) < p.readCount

/-- The client reads the end of the stream, and a write fails. -/
def Client.SeesEnd (N : NetIO) (cl : Client) : Prop :=
  (∀ n, 0 < n → (sysRecv N cl.m cl.fd n 0).1 = .ok ⟨0, [], none⟩) ∧
    ∀ buf, buf ≠ [] → (sysWriteSocket N cl.m cl.fd cl.sock buf).1 = .error .EPIPE

/-- All holders of an end of a pipe close their sockets. -/
def Ctx.releaseAll (c : Ctx) (globalPipes : Bool) (idx : ℕ) (e : PipeEnd) : Ctx :=
  (fun c => releaseSocketBuffer globalPipes c (some idx) e)^[
    SlotTable.weight (count e) (c.pipeAt globalPipes idx)] c

/-- The pipes of a connection are freed when its clients close. -/
def FreedByClients (c : Ctx) (q : ServerSide) : Prop :=
  (c.releaseAll q.globalPipes q.recv .write).pipeAt q.globalPipes q.recv = none ∧
    (c.releaseAll q.globalPipes q.send .read).pipeAt q.globalPipes q.send = none

/-! ### Giving ends up -/

theorem Ctx.pipeAt_release (c : Ctx) (g : Bool) (i : ℕ) (e : PipeEnd) :
    (releaseSocketBuffer g c (some i) e).pipeAt g i = (c.pipeAt g i).bind fun p =>
      if (p.closeEnd e).isFullyClosed then none else some (p.closeEnd e) := by
  cases g with
  | false => exact (SlotTable.get_release _ i i _ _).trans (if_pos rfl)
  | true =>
    refine (PipeTable.get_dropEnd _ i e i).trans ?_
    exact (SlotTable.get_release _ i i _ _).trans (if_pos rfl)

/-- The other end. -/
def PipeEnd.other : PipeEnd → PipeEnd
  | .read => .write
  | .write => .read

/-- When the last holder of an end goes, the pipe goes if nobody holds the other one. -/
theorem Ctx.pipeAt_releaseAll {c : Ctx} {g : Bool} {i : ℕ} {e : PipeEnd} {p : PipeBuffer}
    (hp : c.pipeAt g i = some p) (hpos : 0 < p.count e) :
    (c.releaseAll g i e).pipeAt g i = none ↔ p.count e.other = 0 := by
  rw [releaseAll, hp, SlotTable.weight_some]
  obtain ⟨n, hn⟩ : ∃ n, p.count e = n + 1 := ⟨_, (Nat.succ_pred_eq_of_pos hpos).symm⟩
  rw [hn]
  induction n generalizing c p with
  | zero =>
    rw [Function.iterate_one, pipeAt_release, hp]
    have hclosed : (p.closeEnd e).isFullyClosed = true ↔ p.count e.other = 0 := by
      cases e <;> simp only [count, PipeEnd.other] at hn ⊢ <;>
        simp [isFullyClosed, closeEnd, hn]
    simp [hclosed]
  | succ n ih =>
    have hcount : (p.closeEnd e).count e = n + 1 := by
      rw [count_closeEnd, if_pos rfl, hn]
      rfl
    have hother : (p.closeEnd e).count e.other = p.count e.other := by
      rw [count_closeEnd, if_neg (by cases e <;> simp [PipeEnd.other])]
    have hopen : ¬ (p.closeEnd e).isFullyClosed = true := fun h => by
      have := count_eq_zero_of_isFullyClosed e h
      omega
    rw [Function.iterate_succ_apply, ← hother]
    refine ih ?_ (by omega) hcount
    rw [pipeAt_release, hp, Option.bind_some, if_neg hopen]

/-! ### Closing a listener -/

/-- **A close of a listener does nothing to pipes.** -/
theorem pipeAt_sysClose_listener {c : Ctx} {fd : ℤ} {k : ℕ} {sock : SocketInfo}
    (hsock : socketOf c.proc fd = .ok (k, sock)) (hrecv : sock.recvBufIdx = none)
    (hsend : sock.sendBufIdx = none) (g : Bool) : (sysClose H c fd).2.pipeAt g = c.pipeAt g := by
  have hnet : ∀ (c : Ctx) (h : Option Int32), (dropNetHandle c h).pipeAt g = c.pipeAt g := by
    rintro c (_ | h)
    · rfl
    · rw [dropNetHandle]
      split <;> rfl
  have hbacklog : ∀ (c : Ctx) (b : Option ℕ), (dropBacklog c b).pipeAt g = c.pipeAt g := by
    rintro c (_ | b) <;> rfl
  rcases sysClose_cases H c fd with ⟨-, h⟩ | ⟨i, e, rfl, -, -, h⟩ |
    ⟨i, e, o, owner, rfl, he, ho, -, h⟩
  · rw [h]
  · rw [h]
    rfl
  simp only [socketOf, FdTable.get, FdTable.lookup_natCast, he, ho] at hsock
  by_cases hft : o.fileType = .Socket
  · rcases hget : c.proc.sockets.get (handleSlot o.hostHandle) with _ | s
    · simp [hft, hget] at hsock
    simp only [hft, hget, ne_eq, not_true, if_false, Except.ok.injEq, Prod.mk.injEq] at hsock
    obtain ⟨-, rfl⟩ := hsock
    have hlocks : dropLocks (freedFd c i) o = freedFd c i := by
      rw [dropLocks, if_neg (by simp [hft])]
    rw [h, hlocks]
    simp only [dropOfd]
    split
    · have hget' : ((freedFd c i).updProc fun p => { p with
          ofdTable := ((freedFd c i).proc.ofdTable.decRef e.ofdRef).2 }).proc.sockets.get
            (handleSlot o.hostHandle) = some s := hget
      simp only [releaseOfd, hft, releaseSocket, hget', hrecv, hsend, releaseSocketBuffer]
      exact (hbacklog _ _).trans (hnet _ _)
    · rfl
  · simp [hft] at hsock

/-- A client sees the end, and its pipes are freed, exactly if the server's ends are closed. -/
theorem Client.Of.seesEnd_iff {cl : Client} {c : Ctx} {q : ServerSide} (h : cl.Of c nothing q) :
    cl.SeesEnd N ∧ FreedByClients c q ↔ Deserted c nothing q := by
  obtain ⟨k, hsock⟩ := h.socket
  obtain ⟨i, o, hofd, hflags⟩ := h.writable
  obtain ⟨hglobal, hsend, hrecv⟩ := h.pipes
  obtain ⟨pa, hpa, hwriters⟩ := h.writes
  obtain ⟨pb, hpb, hsound, hreaders⟩ := h.reads
  have hpa' : cl.m.pipeAt q.globalPipes q.recv = some pa := (congrFun h.sees _).trans hpa
  have hpb' : cl.m.pipeAt q.globalPipes q.send = some pb := (congrFun h.sees _).trans hpb
  have hread : ∀ n, sysRecv N cl.m cl.fd n 0 = readBuffer cl.m q.globalPipes q.send n 0 := by
    intro n
    simp [sysRecv, hsock, h.state, h.shut.1, hrecv, hglobal, hasFlag]
  have hwrite : ∀ buf, buf ≠ [] → sysWriteSocket N cl.m cl.fd cl.sock buf =
      writeBuffer cl.m q.globalPipes q.recv buf := by
    intro buf hbuf
    simp [sysWriteSocket, hofd, hflags, hbuf, h.shut.2, hsend, hglobal]
  have hfreed : FreedByClients c q ↔ pa.readCount = 0 ∧ pb.writeCount = 0 :=
    and_congr (Ctx.pipeAt_releaseAll hpa hwriters) (Ctx.pipeAt_releaseAll hpb hreaders)
  have hdeserted : Deserted c nothing q ↔ pa.readCount = 0 ∧ pb.writeCount = 0 ∧ pb.len = 0 := by
    simp [Deserted, nothing, hpa, hpb]
  rw [hfreed, hdeserted]
  constructor
  · rintro ⟨⟨heof, -⟩, hread₀, hwrite₀⟩
    refine ⟨hread₀, hwrite₀, ?_⟩
    have hone := heof 1 Nat.one_pos
    rw [hread, readBuffer_eq hpb' hsound] at hone
    by_contra hlen
    simp only [Nat.one_le_iff_ne_zero.mpr hlen, true_or, if_true, Except.ok.injEq,
      Received.mk.injEq] at hone
    omega
  rintro ⟨hread₀, hwrite₀, hlen⟩
  refine ⟨⟨fun n hn => ?_, fun buf hbuf => ?_⟩, hread₀, hwrite₀⟩
  · rw [hread, readBuffer_eq hpb' hsound]
    have hnil : pb.contents = [] := List.eq_nil_of_length_eq_zero (by simpa using hlen)
    simp [hlen, isWriteEndOpen, hwrite₀, hnil]
  · rw [hwrite buf hbuf, writeBuffer, hpa']
    simp [isReadEndOpen, hread₀]

/-! ### Ends that are given back -/

/-- The pipe with fewer holders. -/
def PipeBuffer.lose (p : PipeBuffer) (readers writers : ℕ) : PipeBuffer :=
  { p with readCount := p.readCount - readers, writeCount := p.writeCount - writers }

theorem PipeBuffer.lose_lose (p : PipeBuffer) (a b a' b' : ℕ) :
    (p.lose a b).lose a' b' = p.lose (a + a') (b + b') := by
  simp only [lose, Nat.sub_sub]

/-- The pipes lose the holders that are given back, and those with a holder left stay. -/
structure PipesGiven (c c' : Ctx) (g : Bool) (given : Resource → ℕ) : Prop where
  after : ∀ i p', c'.pipeAt g i = some p' → ∃ p, c.pipeAt g i = some p ∧
    p' = p.lose (given (.pipe i .read)) (given (.pipe i .write))
  stays : ∀ i p e, c.pipeAt g i = some p → given (.pipe i e) < p.count e →
    (c'.pipeAt g i).isSome = true

/-- The client, with the pipes as they are in a state. -/
def Client.seeing (cl : Client) (c : Ctx) : Client :=
  { cl with m := { cl.m with ctx :=
    { kernel := { cl.m.ctx.kernel with pipes := c.kernel.pipes }
      proc := { cl.m.ctx.proc with pipes := c.proc.pipes } } } }

section

variable {c c' : Ctx} {given : Resource → ℕ} {q : ServerSide} {cl : Client}
  (hgiven : PipesGiven c c' q.globalPipes given)

include hgiven

theorem PipesGiven.lost {i : ℕ} {p : PipeBuffer} {e : PipeEnd}
    (hp : c.pipeAt q.globalPipes i = some p) (hlt : given (.pipe i e) < p.count e) :
    c'.pipeAt q.globalPipes i =
      some (p.lose (given (.pipe i .read)) (given (.pipe i .write))) := by
  obtain ⟨p', hp'⟩ := Option.isSome_iff_exists.mp (hgiven.stays i p e hp hlt)
  obtain ⟨p₀, hp₀, rfl⟩ := hgiven.after i p' hp'
  cases hp.symm.trans hp₀
  exact hp'

/-- A client keeps its connection when others give their ends back. -/
theorem Client.Of.after (h : cl.Of c given q) : (cl.seeing c').Of c' nothing q := by
  obtain ⟨pa, hpa, hwriters⟩ := h.writes
  obtain ⟨pb, hpb, hsound, hreaders⟩ := h.reads
  refine ⟨h.socket, h.writable, h.state, h.shut, h.pipes, ?_, ?_, ?_⟩
  · funext i
    cases q.globalPipes <;> rfl
  · exact ⟨_, hgiven.lost (e := .write) hpa hwriters, Nat.sub_pos_of_lt hwriters⟩
  · exact ⟨_, hgiven.lost (e := .read) hpb hreaders, ⟨hsound.1, hsound.2, hsound.3⟩,
      Nat.sub_pos_of_lt hreaders⟩

theorem Client.Of.before (h : cl.Of c' nothing q) : (cl.seeing c).Of c given q := by
  obtain ⟨pa', hpa', hwriters⟩ := h.writes
  obtain ⟨pb', hpb', hsound, hreaders⟩ := h.reads
  obtain ⟨pa, hpa, rfl⟩ := hgiven.after _ _ hpa'
  obtain ⟨pb, hpb, rfl⟩ := hgiven.after _ _ hpb'
  refine ⟨h.socket, h.writable, h.state, h.shut, h.pipes, ?_, ?_, ?_⟩
  · funext i
    cases q.globalPipes <;> rfl
  · exact ⟨pa, hpa, Nat.lt_of_sub_pos hwriters⟩
  · exact ⟨pb, hpb, ⟨hsound.1, hsound.2, hsound.3⟩, Nat.lt_of_sub_pos hreaders⟩

theorem Client.Of.deserted_iff (h : cl.Of c' nothing q) :
    Deserted c' nothing q ↔ Deserted c given q := by
  obtain ⟨pa', hpa', -⟩ := h.writes
  obtain ⟨pb', hpb', -⟩ := h.reads
  obtain ⟨pa, hpa, rfl⟩ := hgiven.after _ _ hpa'
  obtain ⟨pb, hpb, rfl⟩ := hgiven.after _ _ hpb'
  simp [Deserted, nothing, hpa, hpa', hpb, hpb', PipeBuffer.lose, Nat.sub_eq_zero_iff_le]

/-- **Who sees the end**: the clients of a connection whose server's ends are all given back. -/
theorem PipesGiven.seesEnd_iff :
    (∀ cl : Client, cl.Of c' nothing q → cl.SeesEnd N ∧ FreedByClients c' q) ↔
      ∀ cl : Client, cl.Of c given q → Deserted c given q := by
  constructor
  · intro h cl hcl
    have hafter := hcl.after hgiven
    exact (hafter.deserted_iff hgiven).mp (hafter.seesEnd_iff.mp (h _ hafter))
  · intro h cl hcl
    exact hcl.seesEnd_iff.mpr ((hcl.deserted_iff hgiven).mpr (h _ (hcl.before hgiven)))

end

/-- A close of a listener gives nothing back. -/
theorem pipesGiven_sysClose {c : Ctx} {fd : ℤ} {k : ℕ} {sock : SocketInfo}
    (hsock : socketOf c.proc fd = .ok (k, sock)) (hrecv : sock.recvBufIdx = none)
    (hsend : sock.sendBufIdx = none) (g : Bool) : PipesGiven c (sysClose H c fd).2 g nothing := by
  have hpipes := pipeAt_sysClose_listener (H := H) hsock hrecv hsend g
  refine ⟨fun i p hp => ⟨p, by rwa [hpipes] at hp, rfl⟩, fun i p e hp _ => ?_⟩
  rw [hpipes, hp]
  rfl

/-- One resource is given back. -/
theorem Kernel.pipes_drop (k : Kernel) (r : Resource) {i : ℕ} {p' : PipeBuffer}
    (h : (k.drop r).pipes.get i = some p') : ∃ p, k.pipes.get i = some p ∧
      p' = p.lose ([r].count (.pipe i .read)) ([r].count (.pipe i .write)) := by
  cases r with
  | pipe j e =>
    have hget : (k.drop (.pipe j e)).pipes.get i =
        (k.pipes.pipes.release j (PipeBuffer.closeEnd e) PipeBuffer.isFullyClosed).get i :=
      PipeTable.get_dropEnd k.pipes j e i
    rw [hget, SlotTable.get_release] at h
    by_cases hij : i = j
    · subst hij
      rw [if_pos rfl] at h
      obtain ⟨p, hp, hclosed⟩ := Option.bind_eq_some_iff.mp h
      refine ⟨p, hp, ?_⟩
      split at hclosed
      · cases hclosed
      obtain rfl := Option.some.inj hclosed
      cases e <;> simp [lose, closeEnd]
    · rw [if_neg hij] at h
      refine ⟨p', h, ?_⟩
      simp [lose, Ne.symm hij]
  | pty => exact ⟨p', h, rfl⟩
  | backlog => exact ⟨p', h, rfl⟩
  | hostFile | net =>
    refine ⟨p', ?_, rfl⟩
    rw [Kernel.drop] at h
    split at h <;> exact h

theorem Kernel.pipes_foldl_drop (rs : List Resource) (k : Kernel) {i : ℕ} {p' : PipeBuffer}
    (h : (rs.foldl Kernel.drop k).pipes.get i = some p') : ∃ p, k.pipes.get i = some p ∧
      p' = p.lose (rs.count (.pipe i .read)) (rs.count (.pipe i .write)) := by
  induction rs generalizing k with
  | nil => exact ⟨p', h, rfl⟩
  | cons r rs ih =>
    obtain ⟨p₁, hp₁, rfl⟩ := ih _ h
    obtain ⟨p, hp, rfl⟩ := k.pipes_drop r hp₁
    have hcount : ∀ r', (r :: rs).count r' = [r].count r' + rs.count r' := fun r' => by
      rw [← List.singleton_append, List.count_append]
    exact ⟨p, hp, by rw [lose_lose, hcount, hcount]⟩

/-- **The removal of a process** gives back what its descriptions hold, and what waits in the own
queues of their sockets. -/
theorem pipesGiven_removeProcess {s s' : System} {pid : ℕ} {p : Process}
    (hp : s.procs.get pid = some p) (h : s.removeProcess pid = some s') :
    PipesGiven ⟨s.kernel, p⟩ ⟨s'.kernel, p⟩ true (p.returned.count ·) := by
  rw [System.removeProcess_eq hp] at h
  obtain rfl := Option.some.inj h
  refine ⟨fun i p' hp' => Kernel.pipes_foldl_drop p.returned s.kernel hp', ?_⟩
  intro i b e hb hlt
  have hbefore : s.kernel.count (.pipe i e) = b.count e := by
    have hget : s.kernel.pipes.get i = some b := hb
    rw [Kernel.count, PipeTable.ends, hget]
    rfl
  have hcount := (Kernel.meter_count (.pipe i e)).foldl_drop p.returned s.kernel
  rw [hbefore, Kernel.count, PipeTable.ends] at hcount
  refine Option.isSome_iff_ne_none.mpr fun hnone => ?_
  have hnone : (p.returned.foldl Kernel.drop s.kernel).pipes.get i = none := hnone
  rw [hnone] at hcount
  exact (Nat.sub_pos_of_lt hlt).ne hcount

/-- **Whom the end of a listener tells.** When a descriptor on a listener is closed, the last one
included, the clients of the queued connections see the end of them, and their pipes are freed when
they close, exactly if the server's ends were closed before: the close does nothing about them. When
the process is removed with the listener open, the clients of connections over shared pipes do
exactly if all holders of the server's ends are the process's, those in the own queues of its
sockets among them. -/
theorem listener_gone_iff (H : HostIO) (N : NetIO) {s s' : System} {pid : ℕ} {p : Process}
    (hp : s.procs.get pid = some p) (fd : ℤ) {k : ℕ} {sock : SocketInfo}
    (hsock : socketOf p fd = .ok (k, sock))
    (hbare : sock.recvBufIdx = none ∧ sock.sendBufIdx = none)
    (hremoved : s.removeProcess pid = some s') :
    ((∀ q ∈ queuedOn ⟨s.kernel, p⟩ sock, ∀ cl : Client,
          cl.Of (sysClose H ⟨s.kernel, p⟩ fd).2 nothing q →
            cl.SeesEnd N ∧ FreedByClients (sysClose H ⟨s.kernel, p⟩ fd).2 q) ↔
        ∀ q ∈ queuedOn ⟨s.kernel, p⟩ sock, ∀ cl : Client, cl.Of ⟨s.kernel, p⟩ nothing q →
          Deserted ⟨s.kernel, p⟩ nothing q) ∧
      ((∀ q ∈ queuedOn ⟨s.kernel, p⟩ sock, q.globalPipes = true → ∀ cl : Client,
          cl.Of ⟨s'.kernel, p⟩ nothing q → cl.SeesEnd N ∧ FreedByClients ⟨s'.kernel, p⟩ q) ↔
        ∀ q ∈ queuedOn ⟨s.kernel, p⟩ sock, q.globalPipes = true → ∀ cl : Client,
          cl.Of ⟨s.kernel, p⟩ (p.returned.count ·) q →
            Deserted ⟨s.kernel, p⟩ (p.returned.count ·) q) := by
  refine ⟨forall₂_congr fun q _ => ?_, forall₂_congr fun q _ => imp_congr_right fun hglobal => ?_⟩
  · exact (pipesGiven_sysClose hsock hbare.1 hbare.2 q.globalPipes).seesEnd_iff
  · have hgiven := pipesGiven_removeProcess hp hremoved
    rw [← hglobal] at hgiven
    exact hgiven.seesEnd_iff

/-! ### A connection from another process -/

/-- Connect a local socket to the listener of a process at a path. The pipes are placed before the
listener is looked at. -/
def crossProcessUnixConnect (s : System) (pid : ℕ) (p : Process) (fd : ℤ) (addr : Bytes) :
    Except Errno Unit × System :=
  if addr.length < 3 then (.error .EINVAL, s)
  else
    match (unixPath addr).bind fun path =>
      s.kernel.unixRegistry.lookup (resolvePath path p.cwd) with
    | none => (.error .ECONNREFUSED, s)
    | some entry =>
      match ofdOf p fd with
      | .error e => (.error e, s)
      | .ok (_, o) =>
        let a := s.kernel.pipes.alloc (.new 65536)
        let b := a.2.alloc (.new 65536)
        let s := { s with kernel := { s.kernel with pipes := b.2 } }
        match (s.procs.get entry.pid).bind fun l => (l.sockets.get entry.sockIdx).map (l, ·) with
        | none => (.error .ECONNREFUSED, s)
        | some (l, listener) =>
          if listener.state ≠ .Listening then (.error .ECONNREFUSED, s)
          else
            let made := l.sockets.alloc
              { SocketInfo.new .Unix .Stream 0 with
                state := .Connected
                recvBufIdx := some a.1
                sendBufIdx := some b.1
                globalPipes := true }
            let s := { s with procs := s.procs.put entry.pid (some { l with
              sockets := made.2.modify entry.sockIdx fun x =>
                { x with listenBacklog := x.listenBacklog ++ [made.1] } }) }
            match s.procs.get pid with
            | none => (.error .ESRCH, s)
            | some client =>
              if (client.sockets.get (handleSlot o.hostHandle)).isNone then (.error .EBADF, s)
              else
                (.ok (), { s with procs := s.procs.put pid (some { client with
                  sockets := client.sockets.modify (handleSlot o.hostHandle) fun x =>
                    { x with
                      sendBufIdx := some a.1
                      recvBufIdx := some b.1
                      state := .Connected
                      globalPipes := true } }) })

/-- Process 2 listens at a path, and process 3 has a socket. -/
def unixListening : System :=
  let s := ((System.boot.createProcess 2).2.createProcess 3).2
  let made := (sysSocket ⟨s.kernel, .new 2⟩ AF_UNIX SOCK_STREAM 0).2
  let s := s.commit 2 (sysListen (sysBind .oneFile made 3 ([1, 0] ++ ascii "/s")).2 3).2
  s.commit 3 (sysSocket ⟨s.kernel, .new 3⟩ AF_UNIX SOCK_STREAM 0).2

def unixProcess (pid : ℕ) (s : System) : Process := (s.procs.get pid).getD (.new pid)

/-- Process 3 connects. -/
def unixQueued : System :=
  (crossProcessUnixConnect unixListening 3 (unixProcess 3 unixListening) 3
    ([1, 0] ++ ascii "/s")).2

/-- The client, in process 3. -/
def unixClient (k : Kernel) : Client :=
  let p := unixProcess 3 unixQueued
  ⟨⟨⟨k, p⟩, []⟩, 3, (p.sockets.get 0).getD (.new .Unix .Stream 0)⟩

/-- The system after process 2 was killed and removed. -/
def unixRemoved : System := (unixQueued.removeProcess 2).getD unixQueued

/-- **The process that listens is killed and removed**, and the client sees the end. -/
theorem listener_gone_removed : (unixClient unixRemoved.kernel).SeesEnd .down := by
  have hserver : unixQueued.procs.get 2 = some (unixProcess 2 unixQueued) := rfl
  have hremoved : unixQueued.removeProcess 2 = some unixRemoved := rfl
  have hqueued : ∀ sock, socketOf (unixProcess 2 unixQueued) 3 = .ok (0, sock) →
      queuedOn ⟨unixQueued.kernel, unixProcess 2 unixQueued⟩ sock = [⟨true, 0, 1⟩] := by
    rintro _ ⟨⟩
    rfl
  have hiff := (listener_gone_iff .oneFile .down hserver 3 rfl ⟨rfl, rfl⟩ hremoved).2.mpr
  refine (hiff (fun q hq _ _ _ => ?_) ⟨true, 0, 1⟩ ?_ rfl _
    ⟨⟨0, rfl⟩, ⟨3, _, rfl, by decide⟩, rfl, ⟨rfl, rfl⟩, ⟨rfl, rfl, rfl⟩, rfl, ?_, ?_⟩).1
  · rw [hqueued _ rfl] at hq
    obtain rfl := List.mem_singleton.mp hq
    refine ⟨fun p hp => ?_, fun p hp => ?_⟩
    · cases hp
      decide +kernel
    · cases hp
      decide +kernel
  · rw [hqueued _ rfl]
    exact List.mem_singleton_self _
  · exact ⟨_, rfl, by decide +kernel⟩
  · have hsound : ∀ p : PipeBuffer, p.Sound → { p with writeCount := 0, pipeIdx := 1 }.Sound :=
      fun p h => ⟨h.1, h.2, h.3⟩
    exact ⟨{ PipeBuffer.new 65536 with writeCount := 0, pipeIdx := 1 }, rfl,
      hsound _ (sound_new (by decide)), Nat.one_pos⟩

/-- The last descriptor on the listener is closed, and the client goes on waiting for bytes and
writing bytes; the pipes stay when it closes. -/
theorem listener_gone_unheard :
    let c := (sysClose .oneFile ⟨unixQueued.kernel, unixProcess 2 unixQueued⟩ 3).2
    let cl := unixClient c.kernel
    c.proc.sockets.get 0 = none ∧ (sysRecv .down cl.m 3 4 0).1 = .error .EAGAIN ∧
      (sysWriteSocket .down cl.m 3 cl.sock [7]).1 = .ok 1 ∧
      ((releaseSocket cl.m.ctx 0).kernel.pipes.get 0).isSome = true ∧
      ((releaseSocket cl.m.ctx 0).kernel.pipes.get 1).isSome = true := by
  intro c cl
  have hpipe : cl.m.pipeAt true 0 = some (PipeBuffer.new 65536) := rfl
  have hofd : ofdOf cl.m.ctx.proc 3 = .ok (3, socketOfd 0 O_RDWR) := rfl
  have hsock : cl.sock.sendBufIdx = some 0 ∧ cl.sock.globalPipes = true ∧ cl.sock.shutWr = false :=
    ⟨rfl, rfl, rfl⟩
  refine ⟨rfl, by decide +kernel, ?_, by decide +kernel, by decide +kernel⟩
  have hflags : (socketOfd 0 O_RDWR).statusFlags &&& O_ACCMODE ≠ O_RDONLY := by decide
  have hopen : ∀ n, (PipeBuffer.new n).isReadEndOpen = true := fun _ => rfl
  have hone : ∀ n, 0 < n → ((PipeBuffer.new n).write [7]).1 = 1 := by
    intro n hn
    have hroom : min 1 n = 1 := Nat.min_eq_left hn
    simp [PipeBuffer.write, PipeBuffer.new, freeSpace, capacity, hroom]
  simp [sysWriteSocket, hofd, hflags, hsock, writeBuffer, hpipe, hopen, hone]

end PosixKernel
