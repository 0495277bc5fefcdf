import PosixKernel.Inherited

/-!
# Host Connections of a Process

A socket that is connected through the host carries the number of its connection. Descriptor
calls only take connections away; `socket`, `shutdown` and `connect` leave them alone, except
that a connect through the host adds one, under the number of the socket's slot, and that a
shutdown of both directions closes one on the host.

## Main results

* `Process.holds_net`, `Process.count_returned_net` — what a process holds and gives back;
* `Moves.netAt`, `Moves.opened_net` — descriptor calls;
* `netSame_sysSocket`, `netSame_sysShutdown`, `netSame_sysConnect` — calls that change nothing;
* `netOpened_sysConnect` — connecting through the host.
-/

namespace PosixKernel

open SlotTable

variable {H : HostIO} {h : Int32}

/-- The connection of the socket in a slot. -/
def Process.netAt (p : Process) (j : ℕ) : Option Int32 := (p.sockets.get j).bind (·.hostNetHandle)

/-- A socket shares the connection its handle names. -/
theorem SocketInfo.count_shared_net (s : SocketInfo) (h : Int32) :
    s.shared.count (.net h) = if s.hostNetHandle = some h then 1 else 0 := by
  have hbacklog : (s.sharedBacklogIdx.toList.map Resource.backlog).count (.net h) = 0 :=
    List.count_eq_zero.mpr (by simp)
  rw [shared, List.count_append, hbacklog, Nat.zero_add]
  rcases s.hostNetHandle with _ | n
  · rfl
  by_cases hn : n = h
  · simp [hn]
  · simp [hn]

namespace Process

variable {p q : Process}

/-- A process holds a connection once for each socket that has its handle. -/
theorem holds_net (p : Process) (h : Int32) :
    p.holds (.net h) = p.sockets.total fun s => if s.hostNetHandle = some h then 1 else 0 := by
  have hofds : p.ofdTable.total (·.resources.count (.net h)) = 0 := by
    refine total_eq_zero_iff.mpr fun _ o _ => List.count_eq_zero.mpr ?_
    rw [OpenFileDesc.resources_eq]
    split <;> (try split) <;> simp
  rw [holds, hofds, Nat.zero_add]
  refine congrArg p.sockets.total (funext fun s => ?_)
  rw [SocketInfo.resources, List.count_append, count_pipeEnds_of_ne (by simp), Nat.zero_add,
    SocketInfo.count_shared_net]

/-- Whether a slot holds a connection is whether its handle names it. -/
theorem weight_netAt (p : Process) (j : ℕ) (h : Int32) :
    weight (fun s : SocketInfo => if s.hostNetHandle = some h then 1 else 0)
      (p.sockets.get j) = if p.netAt j = some h then 1 else 0 := by
  rw [netAt]
  rcases p.sockets.get j with _ | s
  · simp
  · rfl

/-- The same handles hold the same connections. -/
theorem holds_net_congr (hnets : q.netAt = p.netAt) (h : Int32) :
    q.holds (.net h) = p.holds (.net h) := by
  rw [holds_net, holds_net]
  refine total_congr fun j => ?_
  rw [weight_netAt, weight_netAt, hnets]

/-- A socket gets a connection. -/
theorem holds_net_update {j : ℕ} {n : Int32} (hnets : q.netAt = Function.update p.netAt j (some n))
    (hfree : p.netAt j = none) (h : Int32) :
    q.holds (.net h) = p.holds (.net h) + if n = h then 1 else 0 := by
  have hupdate := total_update (t := p.sockets) (u := q.sockets)
    (f := fun s => if s.hostNetHandle = some h then 1 else 0)
    (g := fun s => if s.hostNetHandle = some h then 1 else 0) j fun i hi => by
      rw [weight_netAt, weight_netAt, hnets, Function.update_of_ne hi]
  rw [weight_netAt, weight_netAt, hnets, Function.update_self, hfree] at hupdate
  rw [holds_net, holds_net]
  simpa using hupdate

/-- A process holds the connection of each of its sockets. -/
theorem holds_net_pos {j : ℕ} (hj : p.netAt j = some h) : 0 < p.holds (.net h) := by
  obtain ⟨s, hs, hnet⟩ := Option.bind_eq_some_iff.mp hj
  rw [holds_net, total_pos_iff]
  exact ⟨j, s, hs, by rw [if_pos hnet]; exact Nat.one_pos⟩

/-- What a process gives back of a connection is what it holds. -/
theorem count_returned_net (p : Process) (h : Int32) :
    p.returned.count (.net h) = p.holds (.net h) := by
  rw [count_returned_of_ne (by simp) (by simp), holds_net]
  exact congrArg p.sockets.total (funext fun s => s.count_shared_net h)

/-- The handle of a slot is one of those a process is seen by. -/
theorem netAt_eq_socks (p : Process) (j : ℕ) : p.netAt j = (p.socks j).bind (·.hostNetHandle) := by
  rw [netAt, socks]
  rcases p.sockets.get j with _ | s <;> rfl

/-- Processes of the same sockets have the same handles. -/
theorem netAt_of_socks (hsocks : q.socks = p.socks) : q.netAt = p.netAt := by
  funext j
  rw [netAt_eq_socks, netAt_eq_socks, hsocks]

end Process

/-! ### Descriptor calls -/

/-- A connection of a process is one it had before. -/
theorem Move.netAt {c c' : Ctx} (hmove : Move H c c') {j : ℕ} (hj : c'.proc.netAt j = some h) :
    c.proc.netAt j = some h := by
  cases hmove with
  | alike _ hp => rwa [Process.netAt_of_socks hp.socks] at hj
  | removed _ _ _ _ _ _ hsocks | stale _ _ _ _ _ hsocks | added _ _ _ _ hsocks =>
    rwa [Process.netAt_of_socks hsocks] at hj
  | @closed p i o s rs _ _ _ _ _ _ hsocks =>
    rw [Process.netAt_eq_socks, hsocks, Function.update_apply] at hj
    split at hj
    · cases hj
    · rwa [Process.netAt_eq_socks]

/-- Moves bring no handle of a connection. -/
theorem Moves.netAt {c c' : Ctx} (hmoves : Moves H c c') {j : ℕ}
    (hj : c'.proc.netAt j = some h) : c.proc.netAt j = some h := by
  induction hmoves with
  | refl => exact hj
  | tail _ hmove ih => exact ih (hmove.netAt hj)

/-- A move opens no connection. -/
theorem Move.opened_net {c c' : Ctx} (hmove : Move H c c') :
    c'.kernel.opened (.net h) = c.kernel.opened (.net h) := by
  cases hmove with
  | alike hk => exact (hk.opened _).1
  | removed hk => exact (Kernel.opened_foldl_drop _ _ _).trans (hk.opened _).1
  | closed => exact Kernel.opened_foldl_drop _ _ _
  | stale => rfl
  | added _ hgain =>
    cases hgain with
    | nothing | ptmx | pts => rfl
    | hostFile => exact Kernel.opened_logCall_of_ne (by simp [HostCall.opens])

/-- Nor do moves. -/
theorem Moves.opened_net {c c' : Ctx} (hmoves : Moves H c c') :
    c'.kernel.opened (.net h) = c.kernel.opened (.net h) := by
  induction hmoves with
  | refl => rfl
  | tail _ hmove ih => exact hmove.opened_net.trans ih

/-! ### Calls on sockets -/

/-- The kernel's record of connections and the host's are as they were. -/
structure Kernel.NetSame (k k' : Kernel) : Prop where
  count : ∀ h, k'.count (.net h) = k.count (.net h)
  opened : ∀ h, k'.opened (.net h) = k.opened (.net h)
  closed : ∀ h, k'.closed (.net h) = k.closed (.net h)

/-- Nothing happened to connections. -/
structure Ctx.NetSame (c c' : Ctx) : Prop where
  kernel : c.kernel.NetSame c'.kernel
  nets : c'.proc.netAt = c.proc.netAt

/-- The socket in a slot was connected. -/
structure Ctx.NetOpened (c c' : Ctx) (idx : ℕ) : Prop where
  count : ∀ h, c'.kernel.count (.net h) = c.kernel.count (.net h)
  opened : ∀ h, c'.kernel.opened (.net h) =
    c.kernel.opened (.net h) + if netHandle idx = h then 1 else 0
  closed : ∀ h, c'.kernel.closed (.net h) = c.kernel.closed (.net h)
  nets : c'.proc.netAt = Function.update c.proc.netAt idx (some (netHandle idx))

/-- A shared state is the same for connections as itself. -/
theorem Kernel.NetSame.refl (k : Kernel) : k.NetSame k := ⟨fun _ => rfl, fun _ => rfl, fun _ => rfl⟩

namespace Ctx.NetSame

variable {c c' c'' : Ctx}

/-- Doing nothing is the same for connections. -/
theorem refl (c : Ctx) : c.NetSame c := ⟨.refl _, rfl⟩

/-- So are calls after one another that are. -/
theorem trans (h : c.NetSame c') (h' : c'.NetSame c'') : c.NetSame c'' :=
  ⟨⟨fun n => (h'.kernel.count n).trans (h.kernel.count n),
    fun n => (h'.kernel.opened n).trans (h.kernel.opened n),
    fun n => (h'.kernel.closed n).trans (h.kernel.closed n)⟩, h'.nets.trans h.nets⟩

/-- So is a change of the process beside its sockets. -/
theorem proc {p : Process} (hsockets : p.sockets = c.proc.sockets) :
    c.NetSame { c with proc := p } :=
  ⟨.refl _, funext fun j => by rw [Process.netAt, Process.netAt, hsockets]⟩

/-- So is a change of a socket beside its handle. -/
theorem updSocket (c : Ctx) (idx : ℕ) {f : SocketInfo → SocketInfo}
    (hf : ∀ s, (f s).hostNetHandle = s.hostNetHandle) : c.NetSame (c.updSocket idx f) := by
  refine ⟨.refl _, funext fun j => ?_⟩
  show ((c.proc.sockets.modify idx f).get j).bind _ = _
  rw [get_modify, Process.netAt]
  by_cases hj : j = idx
  · subst hj
    rw [if_pos rfl]
    rcases c.proc.sockets.get j with _ | s
    · rfl
    · exact hf s
  · rw [if_neg hj]

/-- So is a new socket without a handle. -/
theorem allocSocket (c : Ctx) {s : SocketInfo} (hs : s.hostNetHandle = none) :
    c.NetSame (c.updProc fun p => { p with sockets := (c.proc.sockets.alloc s).2 }) := by
  refine ⟨.refl _, funext fun j => ?_⟩
  show ((c.proc.sockets.alloc s).2.get j).bind _ = _
  rw [get_alloc, Process.netAt]
  by_cases hj : j = c.proc.sockets.nextIdx
  · rwa [if_pos hj, hj, get_nextIdx]
  · rw [if_neg hj]

/-- So is a host call about no connection. -/
theorem logCall (c : Ctx) {call : HostCall} (hopens : ∀ h, call.opens ≠ some (.net h))
    (hcloses : ∀ h, call.closes ≠ some (.net h)) : c.NetSame (c.logCall call) :=
  ⟨⟨fun _ => rfl, fun n => Kernel.opened_logCall_of_ne (hopens n),
    fun n => Kernel.closed_logCall_of_ne (hcloses n)⟩, rfl⟩

/-- So is any change of the pipes. -/
theorem pipes (c : Ctx) (pipes : PipeTable) :
    c.NetSame (c.updKernel fun k => { k with pipes := pipes }) :=
  ⟨⟨fun _ => rfl, fun _ => rfl, fun _ => rfl⟩, rfl⟩

end Ctx.NetSame

/-- A new descriptor is the same for connections. -/
theorem netSame_newDescriptor (c : Ctx) (o : OpenFileDesc) (fdFlags : UInt32) :
    c.NetSame (newDescriptor c o fdFlags).2 := by
  rw [newDescriptor, allocFd]
  split <;> exact .proc rfl

/-- So is a new socket. -/
theorem netSame_sysSocket (c : Ctx) (domain sockType protocol : UInt32) :
    c.NetSame (sysSocket c domain sockType protocol).2 := by
  fun_cases sysSocket with
  | case1 | case2 => exact .refl c
  | case3 => exact (Ctx.NetSame.allocSocket c rfl).trans (netSame_newDescriptor _ _ _)

/-- So is a buffer that is shut. -/
theorem netSame_shutBuffer (g : Bool) (c : Ctx) (buf : Option ℕ) (e : PipeEnd) :
    c.NetSame (shutBuffer g c buf e) := by
  rcases buf with _ | idx
  · exact .refl c
  cases g
  · exact .proc rfl
  · exact .pipes c _

/-- A shutdown that does not close a connection. -/
theorem netSame_sysShutdown (c : Ctx) {fd : ℤ} {how : UInt32}
    (hnone : how = SHUT_RDWR → ∀ idx sock, socketOf c.proc fd = .ok (idx, sock) →
      sock.hostNetHandle = none) : c.NetSame (sysShutdown c fd how).2 := by
  fun_cases sysShutdown with
  | case1 | case5 => exact .refl c
  | case2 => exact .updSocket c _ fun _ => rfl
  | case3 =>
    refine Ctx.NetSame.trans ?_ (netSame_shutBuffer _ _ _ _)
    exact .updSocket c _ fun _ => rfl
  | case4 idx sock hsock _ _ hhow =>
    refine (Ctx.NetSame.trans ?_ (netSame_shutBuffer _ _ _ _)).trans (netSame_shutBuffer _ _ _ _)
    show c.NetSame (shutNetHandle _ sock.hostNetHandle)
    rw [hnone hhow idx sock hsock]
    exact .updSocket c idx fun _ => rfl

/-! ### Connecting -/

/-- So is the choice of a port. -/
theorem netSame_choosePort (c : Ctx) (port : UInt16) : c.NetSame (choosePort c port).2 := by
  fun_cases choosePort with
  | case1 => exact .proc rfl
  | case2 => exact .refl c

/-- The local address is not the handle. -/
theorem hostNetHandle_fillLocal (port : UInt16) (s : SocketInfo) :
    (fillLocal port s).hostNetHandle = s.hostNetHandle := by
  rw [fillLocal]
  split <;> rfl

/-- Joining two sockets without handles is the same for connections. -/
theorem netSame_joinSockets (c : Ctx) (client listener : ℕ) {accepted : SocketInfo}
    {f : ℕ → SocketInfo → SocketInfo} (haccepted : accepted.hostNetHandle = none)
    (hf : ∀ peer s, (f peer s).hostNetHandle = s.hostNetHandle) :
    c.NetSame (joinSockets c client listener accepted f) := by
  refine Ctx.NetSame.trans ?_ (.updSocket _ _ fun _ => rfl)
  refine Ctx.NetSame.trans ?_ (.updSocket _ _ (hf _))
  refine Ctx.NetSame.trans ?_ (.updSocket _ _ fun _ => rfl)
  exact .allocSocket c haccepted

/-- So is connecting to a listener of the process. -/
theorem netSame_connectLoopback (c : Ctx) (idx : ℕ) (sock : SocketInfo) (ip : Ipv4)
    (port : UInt16) : c.NetSame (connectLoopback c idx sock ip port).2 := by
  rw [connectLoopback]
  rcases findListener c.proc.sockets port with _ | listenerIdx
  · exact .refl c
  have hpipes : c.NetSame (allocPipePair c (.new 65536) (.new 65536)).2 := .proc rfl
  generalize allocPipePair c (.new 65536) (.new 65536) = pipes at hpipes ⊢
  have hport := hpipes.trans (netSame_choosePort pipes.2 sock.bindPort)
  simp only
  generalize choosePort pipes.2 sock.bindPort = chosen at hport ⊢
  exact hport.trans (netSame_joinSockets chosen.2 idx listenerIdx rfl fun _ _ =>
    hostNetHandle_fillLocal _ _)

/-- So is connecting to a path. -/
theorem netSame_connectUnix (c : Ctx) (idx : ℕ) (sock : SocketInfo) (addr : Bytes) :
    c.NetSame (connectUnix c idx sock addr).2 := by
  fun_cases connectUnix with
  | case1 => exact .updSocket c idx fun _ => rfl
  | case5 =>
    simp only [joinUnix]
    exact (Ctx.NetSame.pipes c _).trans (netSame_joinSockets _ idx _ rfl fun _ _ => rfl)
  | _ => exact .refl c

/-- The slot of the socket that a connect would connect through the host: an internet socket
that is not connected, an address beyond the own machine, and a host that can be asked. -/
def connectsOut (H : HostIO) (c : Ctx) (fd : ℤ) (addr : Bytes) : Option ℕ :=
  match socketOf c.proc fd with
  | .error _ => none
  | .ok (idx, sock) =>
    if sock.domain ≠ .Unix ∧ sock.state ≠ .Connected ∧ 8 ≤ addr.length ∧
        ¬ (addrIp addr = loopback ∧ sock.domain = .Inet) ∧
        (H.hostNetConnect c.kernel.log (netHandle idx) (addrIp addr) (addrPort addr)).isOk then
      some idx
    else none

/-- Connecting through the host, if the host refuses. -/
theorem netSame_connectExternal {c : Ctx} {idx : ℕ} {ip : Ipv4} {port : UInt16}
    (hrefused : ¬ (H.hostNetConnect c.kernel.log (netHandle idx) ip port).isOk) :
    c.NetSame (connectExternal H c idx ip port).2 := by
  simp only [connectExternal]
  generalize H.hostNetConnect c.kernel.log (netHandle idx) ip port = reply at hrefused ⊢
  rcases reply with e | u
  · exact .logCall c (by simp [HostCall.opens]) (by simp [HostCall.closes])
  · contradiction

/-- **Connecting through the host.** -/
theorem netOpened_connectExternal {c : Ctx} {idx : ℕ} {sock : SocketInfo} {ip : Ipv4}
    {port : UInt16} (hsock : c.proc.sockets.get idx = some sock)
    (hasked : (H.hostNetConnect c.kernel.log (netHandle idx) ip port).isOk) :
    c.NetOpened (connectExternal H c idx ip port).2 idx := by
  simp only [connectExternal]
  generalize H.hostNetConnect c.kernel.log (netHandle idx) ip port = reply at hasked ⊢
  rcases reply with e | u
  · cases hasked
  refine ⟨fun _ => rfl, fun h => ?_, fun h => ?_, funext fun j => ?_⟩
  · refine (Kernel.opened_logCall _ _ _).trans ?_
    simp [HostCall.opens]
  · exact Kernel.closed_logCall_of_ne (by simp [HostCall.closes])
  show ((c.proc.sockets.modify idx _).get j).bind _ = _
  rw [get_modify, Function.update_apply, Process.netAt, hsock]
  split_ifs with hj
  · rfl
  · rfl

/-- **What a connect does**: nothing to connections, or one new connection. -/
theorem netSame_sysConnect {c : Ctx} {fd : ℤ} {addr : Bytes}
    (hout : connectsOut H c fd addr = none) : c.NetSame (sysConnect H c fd addr).2 := by
  have hinet : ∀ idx sock, socketOf c.proc fd = .ok (idx, sock) → sock.domain ≠ .Unix →
      c.NetSame (connectInet H c idx sock addr).2 := by
    intro idx sock hsock hdomain
    fun_cases connectInet with
    | case1 | case2 => exact .refl c
    | case3 =>
      exact (netSame_choosePort c _).trans (.updSocket _ _ fun _ => hostNetHandle_fillLocal _ _)
    | case4 => exact netSame_connectLoopback c idx sock _ _
    | case5 hstate hlen hlocal =>
      refine netSame_connectExternal fun hasked => ?_
      rw [connectsOut, hsock] at hout
      simp only at hout
      rw [if_pos ⟨hdomain, hstate, Nat.le_of_not_lt hlen, hlocal, hasked⟩] at hout
      cases hout
  fun_cases sysConnect with
  | case1 => exact .refl c
  | case2 idx sock hsock hdomain | case3 idx sock hsock hdomain =>
    exact hinet idx sock hsock (by rw [hdomain]; decide)
  | case4 => exact netSame_connectUnix c _ _ addr

/-- A connect that goes out opens one connection for its socket. -/
theorem netOpened_sysConnect {c : Ctx} {fd : ℤ} {addr : Bytes} {idx : ℕ}
    (hout : connectsOut H c fd addr = some idx) : c.NetOpened (sysConnect H c fd addr).2 idx := by
  rw [connectsOut] at hout
  rw [sysConnect]
  rcases hsock : socketOf c.proc fd with e | ⟨idx', sock⟩
  · rw [hsock] at hout
    cases hout
  simp only [hsock] at hout
  split at hout
  next hcond =>
    obtain rfl := Option.some.inj hout
    obtain ⟨hdomain, hstate, hlen, hlocal, hasked⟩ := hcond
    have hinet : connectInet H c idx' sock addr =
        connectExternal H c idx' (addrIp addr) (addrPort addr) := by
      rw [connectInet, if_neg hstate, if_neg (Nat.not_lt.mpr hlen), if_neg hlocal]
    have hopened : c.NetOpened (connectInet H c idx' sock addr).2 idx' := by
      rw [hinet]
      exact netOpened_connectExternal (socketOf_eq_ok hsock) hasked
    simp only
    split
    · exact hopened
    · exact hopened
    next hunix => exact absurd hunix hdomain
  · cases hout

/-- A host that can reach every machine. -/
def HostIO.reachable : HostIO :=
  { HostIO.barren with hostNetConnect := fun _ _ _ _ => .ok () }

end PosixKernel
