import PosixKernel.ProcessTable
import Mathlib.Logic.Relation

/-!
# Descriptor Calls as Moves

Closing, duplicating and opening descriptors do few things to what a process holds: a
description goes and what it held is dropped, or a description comes with what an open
obtained. `Move` lists them, on the shape of a process: which descriptions and sockets it
has, and what they refer to. Every statement about shared resources is then a case analysis
over moves.

## Main results

* `Process.holds_alike`, `Process.holds_removed`, `Process.holds_closed`,
  `Process.holds_added` — what a process holds after each kind of move;
* `proceeds_sysClose`, `proceeds_sysDup2`, `proceeds_sysOpen` — the descriptor calls are
  sequences of moves.
-/

namespace PosixKernel

open SlotTable Process OpenFileDesc OfdTable Kernel

/-! ### Shapes -/

/-- What a description refers to. -/
def OpenFileDesc.shape (o : OpenFileDesc) : OpenFileDesc :=
  .fresh o.fileType o.statusFlags o.hostHandle []

/-- What a socket refers to, and which directions it has shut down. -/
def SocketInfo.shape (s : SocketInfo) : SocketInfo :=
  { SocketInfo.new .Unix .Stream 0 with
    recvBufIdx := s.recvBufIdx
    sendBufIdx := s.sendBufIdx
    shutRd := s.shutRd
    shutWr := s.shutWr
    hostNetHandle := s.hostNetHandle
    listenBacklog := s.listenBacklog
    sharedBacklogIdx := s.sharedBacklogIdx
    globalPipes := s.globalPipes }

/-- The descriptions of a process, by slot. -/
def Process.ofds (p : Process) (i : ℕ) : Option OpenFileDesc :=
  (p.ofdTable.get i).map shape

/-- The sockets of a process, by slot. -/
def Process.socks (p : Process) (i : ℕ) : Option SocketInfo :=
  (p.sockets.get i).map SocketInfo.shape

/-- Two records of a process with the same descriptions and sockets. -/
structure Process.Alike (p q : Process) : Prop where
  pid : q.pid = p.pid
  ofds : q.ofds = p.ofds
  socks : q.socks = p.socks

/-- A process is like itself. -/
theorem Process.Alike.refl (p : Process) : p.Alike p := ⟨rfl, rfl, rfl⟩

/-- A description in the table is seen by its shape. -/
theorem Process.ofds_eq_some {p : Process} {i : ℕ} {o : OpenFileDesc}
    (h : p.ofdTable.get i = some o) : p.ofds i = some o.shape := by
  rw [ofds, h, Option.map_some]

/-- Tables of the same shapes are seen alike. -/
theorem Process.ofds_congr {p q : Process} (h : ∀ i, (q.ofdTable.get i).map shape =
      (p.ofdTable.get i).map shape) : q.ofds = p.ofds :=
  funext h

/-- Host calls that neither open nor close a file or a connection. -/
def HostCall.isSilent : HostCall → Bool
  | .open _ _ _ (.ok _) | .close _ | .netConnect _ _ _ (.ok _) | .netClose _ => false
  | _ => true

/-- Quiet host calls are silent. -/
theorem HostCall.isSilent_of_isQuiet {call : HostCall} (h : call.isQuiet = true) :
    call.isSilent = true := by
  rcases call with ⟨_, _, _, _ | _⟩ | _ | _ | _ | _ | _ | _ | _ | _ | ⟨_, _, _, _ | _⟩ | _ | _ <;>
    first | rfl | exact absurd h (by simp [isQuiet])

/-- The shared state after silent host calls, up to who owns a device or is bound to a
path. -/
def Kernel.Alike (k k' : Kernel) : Prop :=
  ∃ owner registry calls, (∀ call ∈ calls, HostCall.isSilent call = true) ∧
    k' = { k with deviceOwner := owner, unixRegistry := registry, log := calls ++ k.log }

namespace Kernel.Alike

variable {k k' k'' : Kernel}

/-- A shared state is like itself. -/
theorem refl (k : Kernel) : k.Alike k :=
  ⟨k.deviceOwner, k.unixRegistry, [], by simp, rfl⟩

/-- A silent host call leaves a like state. -/
theorem logCall (k : Kernel) {call : HostCall} (h : call.isSilent = true) :
    k.Alike (k.logCall call) :=
  ⟨k.deviceOwner, k.unixRegistry, [call], by simpa using h, rfl⟩

/-- So do any number of quiet ones. -/
theorem quiet (k : Kernel) {calls : List HostCall} (h : ∀ call ∈ calls, call.isQuiet = true) :
    k.Alike (k.quiet calls) :=
  ⟨k.deviceOwner, k.unixRegistry, calls, fun call hcall =>
    HostCall.isSilent_of_isQuiet (h call hcall), rfl⟩

/-- Who owns a device does not matter. -/
theorem owner (k : Kernel) (owner : VirtualDevice → ℤ) :
    k.Alike { k with deviceOwner := owner } :=
  ⟨owner, k.unixRegistry, [], by simp, rfl⟩

/-- Like states are of one mode. -/
theorem centralized (h : k.Alike k') : k'.centralized = k.centralized := by
  obtain ⟨_, _, _, -, rfl⟩ := h
  rfl

/-- Like states count the same users of a resource. -/
theorem count (h : k.Alike k') (r : Resource) : k'.count r = k.count r := by
  obtain ⟨_, _, _, -, rfl⟩ := h
  cases r <;> rfl

end Kernel.Alike

/-! ### Moves -/

/-- What closing a description drops. A description of a host file with an impossible
handle may also let that handle go. -/
def Releases (rs : List Resource) (o : OpenFileDesc) : Prop :=
  ∀ r, (∀ h, r = .hostFile h → 0 ≤ h) → rs.count r = o.resources.count r

/-- What an open obtains together with a new description. -/
inductive Gains (H : HostIO) (k : Kernel) : OpenFileDesc → Kernel → Prop
  | nothing {o : OpenFileDesc} (hnone : o.resources = []) (hft : o.fileType ≠ .Socket) :
      Gains H k o k
  | ptmx {o : OpenFileDesc} {idx : ℕ} {ptys : PtyTable}
      (halloc : k.ptys.allocPty = some (idx, ptys)) (hft : o.fileType = .PtyMaster)
      (hhandle : o.hostHandle = idx) : Gains H k o { k with ptys := ptys.addSide idx .master }
  | pts {o : OpenFileDesc} {idx : ℕ} (hlive : k.Live (.pty idx .slave))
      (hft : o.fileType = .PtySlave) (hhandle : o.hostHandle = idx) :
      Gains H k o (k.take (.pty idx .slave))
  | hostFile {o : OpenFileDesc} {h : ℤ} {path : Bytes} {oflags mode : UInt32}
      (hopen : H.hostOpen k.log path oflags mode = .ok h)
      (hft : o.fileType = .Regular ∨ o.fileType = .Directory) (hhandle : o.hostHandle = h) :
      Gains H k o (k.logCall (.open path oflags mode (.ok h)))

/-- **What a descriptor call can do in one go**: nothing that shows; take a description
away and drop what it held; close a socket through its description; take away a
description of a socket that is gone; or add a description with what an open obtained. -/
inductive Move (H : HostIO) (c : Ctx) : Ctx → Prop
  | alike {c' : Ctx} (hk : c.kernel.Alike c'.kernel) (hp : c.proc.Alike c'.proc) : Move H c c'
  | removed {k : Kernel} {p : Process} {i : ℕ} {o : OpenFileDesc} {rs : List Resource}
      (hk : c.kernel.Alike k) (ho : c.proc.ofds i = some o) (hft : o.fileType ≠ .Socket)
      (hrs : Releases rs o) (hpid : p.pid = c.proc.pid)
      (hofds : p.ofds = Function.update c.proc.ofds i none) (hsocks : p.socks = c.proc.socks) :
      Move H c ⟨rs.foldl drop k, p⟩
  | closed {p : Process} {i : ℕ} {o : OpenFileDesc} {s : SocketInfo} {rs : List Resource}
      (ho : c.proc.ofds i = some o) (hft : o.fileType = .Socket)
      (hs : c.proc.socks (handleSlot o.hostHandle) = some s) (hrs : rs.Perm s.resources)
      (hpid : p.pid = c.proc.pid) (hofds : p.ofds = Function.update c.proc.ofds i none)
      (hsocks : p.socks = Function.update c.proc.socks (handleSlot o.hostHandle) none) :
      Move H c ⟨rs.foldl drop c.kernel, p⟩
  | stale {p : Process} {i : ℕ} {o : OpenFileDesc} (ho : c.proc.ofds i = some o)
      (hft : o.fileType = .Socket) (hs : c.proc.socks (handleSlot o.hostHandle) = none)
      (hpid : p.pid = c.proc.pid) (hofds : p.ofds = Function.update c.proc.ofds i none)
      (hsocks : p.socks = c.proc.socks) : Move H c ⟨c.kernel, p⟩
  | added {k : Kernel} {p : Process} {i : ℕ} {o : OpenFileDesc} (hfree : c.proc.ofds i = none)
      (hgain : Gains H c.kernel o k) (hpid : p.pid = c.proc.pid)
      (hofds : p.ofds = Function.update c.proc.ofds i (some o))
      (hsocks : p.socks = c.proc.socks) : Move H c ⟨k, p⟩

/-- Sequences of moves. -/
abbrev Moves (H : HostIO) : Ctx → Ctx → Prop := Relation.ReflTransGen (Move H)

/-! ### What a process holds -/

namespace Process

variable {p q : Process} {i : ℕ} {o : OpenFileDesc} {s : SocketInfo}

variable {f : OpenFileDesc → ℕ}

/-- A weight that only reads the shape of a description can be taken of the shape. -/
theorem weight_ofds (p : Process) (i : ℕ) (hf : ∀ o, f o.shape = f o) :
    weight f (p.ofdTable.get i) = weight f (p.ofds i) := by
  rw [ofds]
  rcases p.ofdTable.get i with _ | o
  · rfl
  · exact (hf o).symm

/-- The same of a socket. -/
theorem weight_socks (p : Process) (i : ℕ) {f : SocketInfo → ℕ} (hf : ∀ s, f s.shape = f s) :
    weight f (p.sockets.get i) = weight f (p.socks i) := by
  rw [socks]
  rcases p.sockets.get i with _ | s
  · rfl
  · exact (hf s).symm

/-- Processes with the same descriptions have the same total over them. -/
theorem total_ofds_congr (hf : ∀ o, f o.shape = f o) (h : q.ofds = p.ofds) :
    q.ofdTable.total f = p.ofdTable.total f :=
  total_congr fun i => by rw [weight_ofds q i hf, weight_ofds p i hf, h]

/-- Processes with the same sockets have the same total over them. -/
theorem total_socks_congr {f : SocketInfo → ℕ} (hf : ∀ s, f s.shape = f s)
    (h : q.socks = p.socks) : q.sockets.total f = p.sockets.total f :=
  total_congr fun i => by rw [weight_socks q i hf, weight_socks p i hf, h]

/-- The total over the descriptions when one of them changes. -/
theorem total_ofds_update (hf : ∀ o, f o.shape = f o) {x : Option OpenFileDesc}
    (h : q.ofds = Function.update p.ofds i x) : q.ofdTable.total f + weight f (p.ofds i) =
      p.ofdTable.total f + weight f x := by
  have hupd := total_update (t := p.ofdTable) (u := q.ofdTable) (f := f) (g := f) i
    fun j hj => by rw [weight_ofds q j hf, weight_ofds p j hf, h, Function.update_of_ne hj]
  rwa [weight_ofds q i hf, weight_ofds p i hf, h, Function.update_self] at hupd

/-- The total over the sockets when one of them changes. -/
theorem total_socks_update {f : SocketInfo → ℕ} (hf : ∀ s, f s.shape = f s)
    {x : Option SocketInfo} (h : q.socks = Function.update p.socks i x) :
    q.sockets.total f + weight f (p.socks i) =
      p.sockets.total f + weight f x := by
  have hupd := total_update (t := p.sockets) (u := q.sockets) (f := f) (g := f) i
    fun j hj => by rw [weight_socks q j hf, weight_socks p j hf, h, Function.update_of_ne hj]
  rwa [weight_socks q i hf, weight_socks p i hf, h, Function.update_self] at hupd

/-- A sum over the descriptions and the sockets of a process. -/
def sum (p : Process) (f : OpenFileDesc → ℕ) (g : SocketInfo → ℕ) : ℕ :=
  p.ofdTable.total f + p.sockets.total g

section Sums

variable {f : OpenFileDesc → ℕ} {g : SocketInfo → ℕ} (hf : ∀ o, f o.shape = f o)
  (hg : ∀ s, g s.shape = g s)

include hf hg

/-- The sum over both tables is the same for like processes. -/
theorem sum_alike (hofds : q.ofds = p.ofds) (hsocks : q.socks = p.socks) :
    q.sum f g = p.sum f g := by
  rw [sum, sum, total_ofds_congr hf hofds, total_socks_congr hg hsocks]

/-- A description taken out takes its weight with it. -/
theorem sum_removed (ho : p.ofds i = some o) (hofds : q.ofds = Function.update p.ofds i none)
    (hsocks : q.socks = p.socks) : p.sum f g = q.sum f g + f o := by
  have hsum := total_ofds_update hf hofds
  rw [ho, weight_some, weight_none] at hsum
  rw [sum, sum, total_socks_congr hg hsocks]
  omega

/-- So do a description and the socket behind it. -/
theorem sum_closed {j : ℕ} (ho : p.ofds i = some o) (hs : p.socks j = some s)
    (hofds : q.ofds = Function.update p.ofds i none)
    (hsocks : q.socks = Function.update p.socks j none) : p.sum f g = q.sum f g + f o + g s := by
  have hofd := total_ofds_update hf hofds
  have hsock := total_socks_update hg hsocks
  rw [ho, weight_some, weight_none] at hofd
  rw [hs, weight_some, weight_none] at hsock
  rw [sum, sum]
  omega

/-- A description put in adds its weight. -/
theorem sum_added (hfree : p.ofds i = none)
    (hofds : q.ofds = Function.update p.ofds i (some o)) (hsocks : q.socks = p.socks) :
    q.sum f g = p.sum f g + f o := by
  have hsum := total_ofds_update hf hofds
  rw [hfree, weight_some, weight_none] at hsum
  rw [sum, sum, total_socks_congr hg hsocks]
  omega

end Sums

/-- Like processes hold the same resources. -/
theorem holds_alike (hofds : q.ofds = p.ofds) (hsocks : q.socks = p.socks) (r : Resource) :
    q.holds r = p.holds r :=
  sum_alike (fun _ => rfl) (fun _ => rfl) hofds hsocks

/-- A description taken out gives up what it held. -/
theorem holds_removed (ho : p.ofds i = some o) (hofds : q.ofds = Function.update p.ofds i none)
    (hsocks : q.socks = p.socks) (r : Resource) : p.holds r = q.holds r + o.resources.count r :=
  sum_removed (fun _ => rfl) (fun _ => rfl) ho hofds hsocks

/-- The description of a socket holds nothing itself. -/
theorem resources_of_socket (h : o.fileType = .Socket) : o.resources = [] := by
  rw [resources_eq, h]

/-- A closed socket gives up what the socket held. -/
theorem holds_closed {j : ℕ} (ho : p.ofds i = some o) (hft : o.fileType = .Socket)
    (hs : p.socks j = some s) (hofds : q.ofds = Function.update p.ofds i none)
    (hsocks : q.socks = Function.update p.socks j none) (r : Resource) :
    p.holds r = q.holds r + s.resources.count r := by
  have h := sum_closed (f := (·.resources.count r)) (g := (·.resources.count r))
    (fun _ => rfl) (fun _ => rfl) ho hs hofds hsocks
  rwa [resources_of_socket hft, List.count_nil, add_zero] at h

/-- A description put in holds its resources. -/
theorem holds_added (hfree : p.ofds i = none)
    (hofds : q.ofds = Function.update p.ofds i (some o)) (hsocks : q.socks = p.socks)
    (r : Resource) : q.holds r = p.holds r + o.resources.count r :=
  sum_added (fun _ => rfl) (fun _ => rfl) hfree hofds hsocks

end Process

/-! ### Positive counts -/

/-- Every description counts at least one reference. -/
def OfdTable.Positive (t : OfdTable) : Prop := ∀ i o, t.get i = some o → 0 < o.refCount

namespace OfdTable.Positive

variable {t : OfdTable}

/-- A new description with one reference is referred to. -/
theorem alloc (h : t.Positive) {o : OpenFileDesc} (ho : o.refCount = 1) :
    OfdTable.Positive (t.alloc o).2 := by
  refine forall_put ?_ h
  rw [ho]
  exact Nat.one_pos

/-- Counting a reference keeps every description referred to. -/
theorem incRef (h : t.Positive) (j : ℕ) : (t.incRef j).Positive := by
  intro i o ho
  rw [get_incRef] at ho
  split at ho
  · obtain ⟨o', -, rfl⟩ := Option.map_eq_some_iff.mp ho
    exact Nat.succ_pos _
  · exact h i o ho

/-- A description that is no longer referred to leaves the table. -/
theorem decRef (h : t.Positive) (j : ℕ) : OfdTable.Positive (t.decRef j).2 := by
  rcases hj : t.get j with _ | o
  · rwa [decRef_of_free hj]
  intro i o' ho'
  rw [get_decRef hj] at ho'
  split at ho'
  · split at ho'
    · cases ho'
    next hne =>
      cases ho'
      exact Nat.pos_of_ne_zero hne
  · exact h i o' ho'

end OfdTable.Positive

/-- Counting a reference changes no shape. -/
theorem OfdTable.shape_incRef (t : OfdTable) (j i : ℕ) :
    ((t.incRef j).get i).map shape = (t.get i).map shape := by
  rw [get_incRef]
  split
  next h =>
    rw [h]
    rcases t.get j with _ | o <;> rfl
  · rfl

/-- Nor does dropping one that is not the last. -/
theorem OfdTable.shape_decRef_of_kept {t : OfdTable} {j : ℕ} (hkept : (t.decRef j).1 = false)
    (i : ℕ) : ((t.decRef j).2.get i).map shape = (t.get i).map shape := by
  rcases hj : t.get j with _ | o
  · rw [decRef_of_free hj]
  rw [decRef_of_get hj] at hkept ⊢
  split at hkept
  · cases hkept
  next hne =>
    rw [if_neg hne, get_put]
    split
    next h => rw [h, hj]; rfl
    · rfl

/-- Counting a reference and dropping it again does not show, if there was one before. -/
theorem OfdTable.shape_decRef_incRef {t : OfdTable} (h : t.Positive) (j i : ℕ) :
    (((t.incRef j).decRef j).2.get i).map shape =
      (t.get i).map shape := by
  have hkept : ((t.incRef j).decRef j).1 = false := by
    rcases hj : t.get j with _ | o
    · have hfree : (t.incRef j).get j = none := by
        rw [get_incRef, if_pos rfl, hj, Option.map_none]
      rw [decRef_of_free hfree]
    have hget : (t.incRef j).get j = some { o with refCount := o.refCount + 1 } := by
      rw [get_incRef, if_pos rfl, hj, Option.map_some]
    have hpos := h j o hj
    rw [decRef_of_get hget, if_neg (by simp only; omega)]
  exact (shape_decRef_of_kept hkept i).trans (shape_incRef t j i)

/-! ### Calls as sequences of moves -/

/-- One kernel serves all processes, and the descriptions of the process count their
references. -/
structure Ctx.Ok (c : Ctx) : Prop where
  centralized : c.kernel.centralized = true
  positive : c.proc.ofdTable.Positive

/-- A call leads from one context to another by moves. -/
def Proceeds (H : HostIO) (c c' : Ctx) : Prop := c.Ok → Moves H c c' ∧ c'.Ok

namespace Proceeds

variable {H : HostIO} {c c' c'' : Ctx}

/-- No call, no moves. -/
theorem refl (c : Ctx) : Proceeds H c c := fun h => ⟨.refl, h⟩

/-- Calls after one another proceed by the moves of both. -/
theorem trans (h : Proceeds H c c') (h' : Proceeds H c' c'') : Proceeds H c c'' := by
  intro hok
  obtain ⟨hmoves, hok'⟩ := h hok
  obtain ⟨hmoves', hok''⟩ := h' hok'
  exact ⟨hmoves.trans hmoves', hok''⟩

/-- What only touches what moves do not see makes no move. -/
theorem alike (hk : c.kernel.Alike c'.kernel) (hp : c.proc.Alike c'.proc)
    (hpos : c.proc.ofdTable.Positive → c'.proc.ofdTable.Positive) : Proceeds H c c' :=
  fun hok => ⟨.single (.alike hk hp), hk.centralized.trans hok.centralized, hpos hok.positive⟩

/-- A change of the process that touches neither descriptions nor sockets. -/
theorem proc (hkernel : c'.kernel = c.kernel) (hpid : c'.proc.pid = c.proc.pid)
    (hofds : c'.proc.ofdTable = c.proc.ofdTable) (hsocks : c'.proc.sockets = c.proc.sockets) :
    Proceeds H c c' := by
  refine .alike ?_ ⟨hpid, ?_, ?_⟩ fun hpos => ?_
  · rw [hkernel]
    exact .refl _
  · exact funext fun i => by rw [ofds, ofds, hofds]
  · exact funext fun i => by rw [socks, socks, hsocks]
  · rwa [hofds]

/-- A silent host call makes no move. -/
theorem logCall (c : Ctx) {call : HostCall} (h : call.isSilent = true) :
    Proceeds H c (c.logCall call) :=
  .alike (.logCall _ h) (.refl _) id

end Proceeds

section Calls

variable {H : HostIO}

variable (c : Ctx)

/-- Dropping a host handle drops the host's file. -/
theorem dropHostHandle_kernel (h : ℤ) :
    (dropHostHandle H c h).2.kernel = c.kernel.drop (.hostFile h) := by
  simp only [dropHostHandle, drop, Ctx.updKernel_kernel]
  split <;> rfl

/-- What a socket drops when it is closed, in this order. -/
def SocketInfo.releaseOrder (s : SocketInfo) : List Resource :=
  s.hostNetHandle.toList.map .net ++ (s.sharedBacklogIdx.toList.map .backlog ++ s.pipeEnds)

/-- A socket releases all it holds, in an order of its own. -/
theorem SocketInfo.releaseOrder_perm (s : SocketInfo) : s.releaseOrder.Perm s.resources := by
  rw [releaseOrder, resources, shared, ← List.append_assoc]
  refine List.perm_append_comm.trans (List.Perm.append_left _ ?_)
  exact List.perm_append_comm

/-- Dropping a network handle drops the connection, if there is one. -/
theorem dropNetHandle_kernel (h : Option Int32) :
    (dropNetHandle c h).kernel = (h.toList.map Resource.net).foldl drop c.kernel := by
  rcases h with _ | h
  · rfl
  simp only [dropNetHandle, Option.toList_some, List.map_cons, List.map_nil, List.foldl_cons,
    List.foldl_nil, drop]
  split <;> rfl

/-- Dropping a backlog drops the queue, if there is one. -/
theorem dropBacklog_kernel (b : Option ℕ) :
    (dropBacklog c b).kernel = (b.toList.map Resource.backlog).foldl drop c.kernel := by
  cases b <;> rfl

/-- Releasing a buffer drops its end of the pipe, if it is a global one. -/
theorem releaseSocketBuffer_kernel (g : Bool) (c : Ctx) (buf : Option ℕ) (e : PipeEnd) :
    (releaseSocketBuffer g c buf e).kernel =
      (if g then buf.toList.map (Resource.pipe · e) else []).foldl drop c.kernel := by
  rcases buf with _ | idx
  · cases g <;> rfl
  · cases g <;> rfl

/-- Releasing a socket drops what it holds, one resource after the other. -/
theorem releaseSocket_kernel {j : ℕ} {s : SocketInfo} (hs : c.proc.sockets.get j = some s) :
    (releaseSocket c j).kernel = s.releaseOrder.foldl drop c.kernel := by
  have hpipes : s.pipeEnds =
      (if s.globalPipes then s.sendBufIdx.toList.map (Resource.pipe · .write) else []) ++
        (if s.globalPipes then s.recvBufIdx.toList.map (Resource.pipe · .read) else []) := by
    rw [SocketInfo.pipeEnds]
    split <;> rfl
  rw [releaseSocket, hs]
  simp [Ctx.updProc_kernel, releaseSocketBuffer_kernel, dropBacklog_kernel, dropNetHandle_kernel,
    SocketInfo.releaseOrder, hpipes]

/-- Releasing a buffer changes no socket. -/
theorem releaseSocketBuffer_sockets (g : Bool) (c : Ctx) (buf : Option ℕ) (e : PipeEnd) :
    (releaseSocketBuffer g c buf e).proc.sockets = c.proc.sockets := by
  rcases buf with _ | idx
  · rfl
  · cases g <;> rfl

/-- A released socket leaves the table of sockets. -/
theorem releaseSocket_sockets {j : ℕ} {s : SocketInfo} (hs : c.proc.sockets.get j = some s) :
    (releaseSocket c j).proc.sockets = c.proc.sockets.clear j := by
  rw [releaseSocket, hs]
  simp [Ctx.updProc_proc, releaseSocketBuffer_sockets, dropBacklog_proc, dropNetHandle_proc]

/-- Releasing anything but a socket leaves the sockets alone and drops what the description
held. -/
theorem releaseOfd_kernel (o : OpenFileDesc) (hmode : c.kernel.centralized = true)
    (hft : o.fileType ≠ .Socket) :
    (releaseOfd H c o).2.proc.sockets = c.proc.sockets ∧
      ∃ k rs, c.kernel.Alike k ∧ Releases rs o ∧
        (releaseOfd H c o).2.kernel = rs.foldl drop k := by
  have hnone : ∀ {o : OpenFileDesc}, o.resources = [] → Releases [] o :=
    fun h r _ => by rw [h]
  have hexact : Releases o.resources o := fun _ _ => rfl
  rw [releaseOfd]
  rcases hkind : o.fileType with _ | _ | _ | _ | _ | _ | _ | _ | _ | _ | _ | _
  case Pipe =>
    by_cases hhost : 0 ≤ o.hostHandle
    · refine ⟨by simp [releasePipe, hhost], c.kernel, [.hostFile o.hostHandle], .refl _, ?_, ?_⟩
      · have hres : o.resources = [.hostFile o.hostHandle] := by
          rw [resources_eq, hkind]
          exact if_neg (not_lt.mpr hhost)
        rwa [← hres]
      · simp only [releasePipe, if_pos hhost, dropHostHandle_kernel]
        rfl
    refine ⟨by simp [releasePipe, hhost, hmode], c.kernel,
      [.pipe (handleSlot o.hostHandle) (pipeEndOf o.statusFlags)], .refl _, ?_, ?_⟩
    · have hres : o.resources = [.pipe (handleSlot o.hostHandle) (pipeEndOf o.statusFlags)] := by
        rw [resources_eq, hkind]
        exact if_pos (not_le.mp hhost)
      rwa [← hres]
    · simp only [releasePipe, if_neg hhost, hmode, if_true]
      rfl
  case Socket => exact absurd hkind hft
  case PtyMaster | PtySlave =>
    refine ⟨rfl, c.kernel, o.resources, .refl _, hexact, ?_⟩
    rw [resources_eq, hkind]
    rfl
  case EventFd | Epoll | TimerFd | SignalFd | MemFd =>
    refine ⟨rfl, c.kernel, [], .refl _, hnone ?_, rfl⟩
    rw [resources_eq, hkind]
  all_goals
    -- a file, a directory or a device: a directory iteration is closed first
    obtain ⟨c₁, hc₁, hk₁, hs₁⟩ : ∃ c₁, c₁ = (if 0 ≤ o.dirHostHandle then
        c.logCall (.closedir o.dirHostHandle) else c) ∧ c.kernel.Alike c₁.kernel ∧
          c₁.proc.sockets = c.proc.sockets := by
      split
      · exact ⟨_, rfl, .logCall _ rfl, rfl⟩
      · exact ⟨_, rfl, .refl _, rfl⟩
    have hfile : o.resources = if 0 ≤ o.hostHandle then [.hostFile o.hostHandle] else [] := by
      rw [resources_eq, hkind]
    simp only [releaseFile, ← hc₁]
    split
    next hbuf =>
      refine ⟨hs₁, c₁.kernel, [], hk₁, hnone ?_, rfl⟩
      rw [hfile, if_neg (not_le.mpr (isProcfsBufHandle_neg hbuf))]
    split
    next hdir =>
      refine ⟨hs₁, c₁.kernel, [], hk₁, hnone ?_, rfl⟩
      rw [hfile, if_neg]
      simp only [PROCFS_DIR_HANDLE, DEVFS_DIR_HANDLE] at hdir
      omega
    split
    next hdev =>
      refine ⟨hs₁, c₁.kernel, [], hk₁, hnone ?_, rfl⟩
      rw [hfile, if_neg (not_le.mpr hdev.2)]
    refine ⟨by rw [dropHostHandle_proc, hs₁], c₁.kernel, [.hostFile o.hostHandle], hk₁,
      fun r hr => ?_, dropHostHandle_kernel _ _⟩
    rw [hfile]
    split
    · rfl
    next hneg =>
      rw [List.count_nil, List.count_eq_zero]
      intro hmem
      exact hneg (hr _ (List.mem_singleton.mp hmem))

/-- Dropping a resource keeps the mode. -/
theorem Kernel.centralized_drop (k : Kernel) (r : Resource) :
    (k.drop r).centralized = k.centralized := by
  cases r with
  | pipe | pty | backlog => rfl
  | hostFile | net =>
    simp only [drop]
    split <;> rfl

/-- So does dropping several. -/
theorem Kernel.centralized_foldl_drop (rs : List Resource) (k : Kernel) :
    (rs.foldl drop k).centralized = k.centralized := by
  induction rs generalizing k with
  | nil => rfl
  | cons r rs ih => rw [List.foldl_cons, ih, centralized_drop]

/-- So does taking several. -/
theorem Kernel.centralized_foldl_take (rs : List Resource) (k : Kernel) :
    (rs.foldl take k).centralized = k.centralized := by
  induction rs generalizing k with
  | nil => rfl
  | cons r rs ih => rw [List.foldl_cons, ih]; cases r <;> rfl

/-- The context in which a description has just gone. -/
def freedOfd (c : Ctx) (idx : ℕ) : Ctx :=
  c.updProc fun p => { p with ofdTable := p.ofdTable.clear idx }

/-- A description freed and released is the only one that goes. -/
theorem ofds_releaseOfd_freedOfd (idx : ℕ) (o : OpenFileDesc) :
    (releaseOfd H (freedOfd c idx) o).2.proc.ofds = Function.update c.proc.ofds idx none := by
  funext i
  rw [ofds, (sameCore_releaseOfd (freedOfd c idx) o).ofdTable, Function.update_apply]
  show Option.map _ ((c.proc.ofdTable.clear idx).get i) = _
  rw [get_clear]
  split <;> rfl

variable {idx : ℕ} {o : OpenFileDesc}

/-- **Releasing a description that has gone** is one move. -/
theorem move_releaseOfd (hmode : c.kernel.centralized = true)
    (ho : c.proc.ofdTable.get idx = some o) :
    Move H c (releaseOfd H (freedOfd c idx) o).2 ∧
      (releaseOfd H (freedOfd c idx) o).2.kernel.centralized = true := by
  have ho' : c.proc.ofds idx = some o.shape := ofds_eq_some ho
  have hofds := ofds_releaseOfd_freedOfd (H := H) c idx o
  have hpid : (releaseOfd H (freedOfd c idx) o).2.proc.pid = c.proc.pid :=
    (sameCore_releaseOfd (freedOfd c idx) o).pid
  by_cases hft : o.fileType = .Socket
  · have hrel : (releaseOfd H (freedOfd c idx) o).2 =
        releaseSocket (freedOfd c idx) (handleSlot o.hostHandle) := by
      rw [releaseOfd, hft]
    rw [hrel] at hofds hpid ⊢
    rcases hs : c.proc.sockets.get (handleSlot o.hostHandle) with _ | s
    · have hsame : releaseSocket (freedOfd c idx) (handleSlot o.hostHandle) = freedOfd c idx := by
        rw [releaseSocket, show (freedOfd c idx).proc.sockets.get _ = none from hs]
      rw [hsame] at hofds ⊢
      refine ⟨.stale ho' hft ?_ rfl hofds rfl, hmode⟩
      exact congrArg (Option.map SocketInfo.shape) hs
    have hs₁ : (freedOfd c idx).proc.sockets.get (handleSlot o.hostHandle) = some s := hs
    have hkernel : (releaseSocket (freedOfd c idx) (handleSlot o.hostHandle)).kernel =
        s.releaseOrder.foldl drop c.kernel := releaseSocket_kernel _ hs₁
    have hctx : releaseSocket (freedOfd c idx) (handleSlot o.hostHandle) =
        ⟨s.releaseOrder.foldl drop c.kernel,
          (releaseSocket (freedOfd c idx) (handleSlot o.hostHandle)).proc⟩ := by
      rw [← hkernel]
    refine ⟨?_, ?_⟩
    · rw [hctx]
      refine .closed ho' hft (congrArg (Option.map SocketInfo.shape) hs) s.releaseOrder_perm hpid
        hofds ?_
      funext i
      rw [socks, releaseSocket_sockets _ hs₁, get_clear, Function.update_apply,
        show o.shape.hostHandle = o.hostHandle from rfl]
      split <;> rfl
    · rwa [hkernel, centralized_foldl_drop]
  · obtain ⟨hsockets, k, rs, hk, hrs, hkernel⟩ :=
      releaseOfd_kernel (H := H) (freedOfd c idx) o hmode hft
    have hctx : (releaseOfd H (freedOfd c idx) o).2 =
        ⟨rs.foldl drop k, (releaseOfd H (freedOfd c idx) o).2.proc⟩ := by
      rw [← hkernel]
    refine ⟨?_, ?_⟩
    · rw [hctx]
      refine .removed hk ho' hft hrs hpid hofds (funext fun i => ?_)
      rw [socks, hsockets]
      rfl
    · rwa [hkernel, centralized_foldl_drop, hk.centralized]

/-- Dropping a reference that is not the last only counts it. -/
theorem dropOfd_kept {c : Ctx} (o : OpenFileDesc) (hkept : (c.proc.ofdTable.decRef idx).1 = false) :
    (dropOfd H c idx o).2 = c.updProc fun p =>
      { p with ofdTable := (p.ofdTable.decRef idx).2 } := by
  simp [dropOfd, hkept, Ctx.updProc]

/-- Dropping the last reference releases the description. -/
theorem dropOfd_freed {c : Ctx} (ho : c.proc.ofdTable.get idx = some o)
    (hfreed : (c.proc.ofdTable.decRef idx).1 = true) :
    (dropOfd H c idx o).2 = (releaseOfd H (freedOfd c idx) o).2 := by
  have hcleared : (c.proc.ofdTable.decRef idx).2 = c.proc.ofdTable.clear idx := by
    rw [decRef_of_get ho] at hfreed ⊢
    split at hfreed
    next hone => rw [if_pos hone]
    · cases hfreed
  simp [dropOfd, hfreed, hcleared, Ctx.updProc, freedOfd]

/-- Dropping a reference proceeds by moves. -/
theorem proceeds_dropOfd (ho : c.proc.ofdTable.get idx = some o) :
    Proceeds H c (dropOfd H c idx o).2 := by
  intro hok
  have hcore := sameCore_dropOfd (H := H) c idx o
  have hpos : (dropOfd H c idx o).2.proc.ofdTable.Positive := by
    rw [hcore.ofdTable]
    exact hok.positive.decRef idx
  rcases hfreed : (c.proc.ofdTable.decRef idx).1 with _ | _
  · rw [dropOfd_kept o hfreed] at hpos ⊢
    refine ⟨.single (.alike (.refl _) ⟨rfl, ?_, rfl⟩), hok.centralized, hpos⟩
    exact ofds_congr fun i => shape_decRef_of_kept hfreed i
  rw [dropOfd_freed ho hfreed] at hpos ⊢
  obtain ⟨hmove, hmode⟩ := move_releaseOfd (H := H) c hok.centralized ho
  exact ⟨.single hmove, hmode, hpos⟩

/-- Dropping the locks of a file changes no socket. -/
theorem dropLocks_sockets (o : OpenFileDesc) : (dropLocks c o).proc.sockets = c.proc.sockets := by
  simp only [dropLocks]
  split
  · split <;> rfl
  · rfl

/-- Dropping the locks of a file keeps the mode. -/
theorem dropLocks_centralized (o : OpenFileDesc) :
    (dropLocks c o).kernel.centralized = c.kernel.centralized := by
  simp only [dropLocks]
  split
  · split <;> rfl
  · rfl

/-- Dropping the locks of a file makes no move. -/
theorem proceeds_dropLocks (o : OpenFileDesc) : Proceeds H c (dropLocks c o) := by
  have hcore := sameCore_dropLocks c o
  have hsockets := dropLocks_sockets c o
  refine .alike ?_ ⟨hcore.pid, ?_, ?_⟩ ?_
  · rcases dropLocks_kernel c o with h | ⟨path, pid, h⟩
    · rw [h]
      exact .refl _
    · rw [h]
      exact .logCall _ rfl
  · exact funext fun i => by rw [ofds, ofds, hcore.ofdTable]
  · exact funext fun i => by rw [socks, socks, hsockets]
  · rw [hcore.ofdTable]
    exact id

/-- **A close** is a sequence of moves. -/
theorem proceeds_sysClose (fd : ℤ) : Proceeds H c (sysClose H c fd).2 := by
  rcases sysClose_cases H c fd with ⟨-, heq⟩ | ⟨i, e, rfl, -, -, heq⟩ |
    ⟨i, e, o, owner, rfl, -, ho, -, heq⟩
  · rw [heq]
    exact .refl c
  · rw [heq]
    exact .proc rfl rfl rfl rfl
  rw [heq]
  have hfreed : Proceeds H c (freedFd c i) := .proc rfl rfl rfl rfl
  have hlocks := proceeds_dropLocks (H := H) (freedFd c i) o
  have hget : (dropLocks (freedFd c i) o).proc.ofdTable.get e.ofdRef = some o := by
    rwa [(sameCore_dropLocks (freedFd c i) o).ofdTable]
  exact ((hfreed.trans hlocks).trans (proceeds_dropOfd _ hget)).trans
    (.alike (.owner _ owner) (.refl _) id)

/-! ### The shapes that a close leaves -/

/-- Releasing a description takes away at most the socket it is on. -/
theorem socks_releaseOfd (o : OpenFileDesc) (hmode : c.kernel.centralized = true) :
    (releaseOfd H c o).2.proc.socks = c.proc.socks ∨
      (o.fileType = .Socket ∧ (releaseOfd H c o).2.proc.socks =
        Function.update c.proc.socks (handleSlot o.hostHandle) none) := by
  by_cases hft : o.fileType = .Socket
  · have hrel : (releaseOfd H c o).2 = releaseSocket c (handleSlot o.hostHandle) := by
      rw [releaseOfd, hft]
    rw [hrel]
    rcases hs : c.proc.sockets.get (handleSlot o.hostHandle) with _ | s
    · left
      rw [releaseSocket, hs]
    refine .inr ⟨hft, funext fun i => ?_⟩
    rw [socks, releaseSocket_sockets _ hs, get_clear, Function.update_apply]
    split <;> rfl
  · obtain ⟨hsockets, -⟩ := releaseOfd_kernel (H := H) c o hmode hft
    exact .inl (funext fun i => by rw [socks, socks, hsockets])

/-- **The shapes that a close leaves**: all of them, or those without the description and,
if it was on a socket, without the socket. -/
theorem shape_sysClose (fd : ℤ) (hmode : c.kernel.centralized = true) :
    ((sysClose H c fd).2.proc.ofds = c.proc.ofds ∧ (sysClose H c fd).2.proc.socks = c.proc.socks) ∨
    ∃ idx o, ofdOf c.proc fd = .ok (idx, o) ∧
      (sysClose H c fd).2.proc.ofds = Function.update c.proc.ofds idx none ∧
      ((sysClose H c fd).2.proc.socks = c.proc.socks ∨
        (o.fileType = .Socket ∧ (sysClose H c fd).2.proc.socks =
          Function.update c.proc.socks (handleSlot o.hostHandle) none)) := by
  rcases sysClose_cases H c fd with ⟨-, heq⟩ | ⟨i, e, rfl, -, -, heq⟩ |
    ⟨i, e, o, owner, rfl, he, ho, -, heq⟩
  · rw [heq]
    exact .inl ⟨rfl, rfl⟩
  · rw [heq]
    exact .inl ⟨rfl, rfl⟩
  have hof : ofdOf c.proc i = .ok (e.ofdRef, o) := by
    rw [ofdOf, FdTable.get, FdTable.lookup_natCast, he]
    simp [ho]
  generalize hc₀ : dropLocks (freedFd c i) o = c₀ at heq
  have hcore := sameCore_dropLocks (freedFd c i) o
  rw [hc₀] at hcore
  have hofds : c₀.proc.ofds = c.proc.ofds :=
    funext fun j => by rw [ofds, hcore.ofdTable]; rfl
  have hsocks : c₀.proc.socks = c.proc.socks :=
    funext fun j => by rw [← hc₀, socks, dropLocks_sockets]; rfl
  have hmode₀ : c₀.kernel.centralized = true := by
    rwa [← hc₀, dropLocks_centralized]
  have ho₀ : c₀.proc.ofdTable.get e.ofdRef = some o := by
    rwa [hcore.ofdTable]
  rw [heq]
  rw [← hofds, ← hsocks]
  rcases hfreed : (c₀.proc.ofdTable.decRef e.ofdRef).1 with _ | _
  · rw [dropOfd_kept o hfreed]
    exact .inl ⟨ofds_congr fun j => shape_decRef_of_kept hfreed j, rfl⟩
  rw [dropOfd_freed ho₀ hfreed]
  exact .inr ⟨e.ofdRef, o, hof, ofds_releaseOfd_freedOfd c₀ e.ofdRef o,
    socks_releaseOfd (freedOfd c₀ e.ofdRef) o hmode₀⟩

/-- Closing several descriptors proceeds by moves. -/
theorem proceeds_closeFds (fds : List ℕ) : Proceeds H c (closeFds H c fds) := by
  induction fds generalizing c with
  | nil => exact .refl c
  | cons fd fds ih => exact (proceeds_sysClose c fd).trans (ih _)

/-- So does closing those marked close-on-exec. -/
theorem proceeds_closeCloexec : Proceeds H c (closeCloexec H c) :=
  proceeds_closeFds c _

/-! ### Duplicating and opening -/

/-- A new descriptor of an open description makes no move. -/
theorem proceeds_allocFd (ofdRef : ℕ) (fdFlags : UInt32) :
    Proceeds H c (allocFd c ofdRef fdFlags).2 := by
  rw [allocFd]
  rcases c.proc.fdTable.alloc ofdRef fdFlags with e | ⟨fd, t⟩
  · exact .refl c
  · exact .proc rfl rfl rfl rfl

/-- Counting a reference makes no move. -/
theorem proceeds_incRef (j : ℕ) :
    Proceeds H c (c.updProc fun p => { p with ofdTable := p.ofdTable.incRef j }) :=
  .alike (.refl _) ⟨rfl, ofds_congr (shape_incRef _ j), rfl⟩ fun h => h.incRef j

/-- Nor does counting one and dropping it again. -/
theorem proceeds_decRef_incRef (j : ℕ) :
    Proceeds H c
      (c.updProc fun p => { p with ofdTable := ((p.ofdTable.incRef j).decRef j).2 }) := by
  intro hok
  refine Proceeds.alike (.refl _) ⟨rfl, ?_, rfl⟩ (fun h => (h.incRef j).decRef j) hok
  exact ofds_congr (shape_decRef_incRef hok.positive j)

/-- A duplicate leaves the shared state and a like process. -/
theorem alike_sysDup {c : Ctx} (hok : c.Ok) (fd : ℤ) :
    (sysDup c fd).2.kernel = c.kernel ∧ c.proc.Alike (sysDup c fd).2.proc ∧
      (sysDup c fd).2.proc.ofdTable.Positive := by
  rw [sysDup]
  rcases c.proc.fdTable.get fd with e | entry
  · exact ⟨rfl, .refl _, hok.positive⟩
  simp only
  rcases halloc : allocFd (c.updProc fun p =>
      { p with ofdTable := p.ofdTable.incRef entry.ofdRef }) entry.ofdRef 0 with ⟨e | fd', c'⟩
  · rw [allocFd_eq_error halloc]
    exact ⟨rfl, ⟨rfl, ofds_congr (shape_decRef_incRef hok.positive _), rfl⟩,
      (hok.positive.incRef _).decRef _⟩
  obtain ⟨i, -, -, rfl⟩ := allocFd_eq_ok halloc
  exact ⟨rfl, ⟨rfl, ofds_congr (shape_incRef _ _), rfl⟩,
    hok.positive.incRef _⟩

/-- Duplicating a descriptor makes no move. -/
theorem proceeds_sysDup (fd : ℤ) : Proceeds H c (sysDup c fd).2 := by
  intro hok
  obtain ⟨hk, hp, hpos⟩ := alike_sysDup hok fd
  refine ⟨.single (.alike ?_ hp), by rw [hk]; exact hok.centralized, hpos⟩
  rw [hk]
  exact .refl _

/-- Duplicating onto a descriptor proceeds by the moves of its closing. -/
theorem proceeds_sysDup2 (oldfd newfd : ℤ) : Proceeds H c (sysDup2 H c oldfd newfd).2 := by
  rw [sysDup2]
  rcases c.proc.fdTable.get oldfd with e | entry
  · exact .refl c
  by_cases heq : oldfd = newfd
  · simp only [if_pos heq]
    exact .refl c
  simp only [if_neg heq]
  refine (proceeds_sysClose c newfd).trans ?_
  rcases (sysClose H c newfd).2.proc.fdTable.get oldfd with e | entry
  · exact .refl _
  simp only [Ctx.updProc_proc]
  split
  · exact proceeds_decRef_incRef _ entry.ofdRef
  · exact (proceeds_incRef _ entry.ofdRef).trans (.proc rfl rfl rfl rfl)

/-- A description that was gained with what it holds is one move. -/
theorem proceeds_added {c : Ctx} {k : Kernel} {p : Process} {o : OpenFileDesc}
    (hgain : Gains H c.kernel o.shape k) (hmode : k.centralized = c.kernel.centralized)
    (hcount : o.refCount = 1) (hpid : p.pid = c.proc.pid)
    (hofds : p.ofdTable = (c.proc.ofdTable.alloc o).2) (hsocks : p.sockets = c.proc.sockets) :
    Proceeds H c ⟨k, p⟩ := by
  intro hok
  refine ⟨.single (.added (i := c.proc.ofdTable.nextIdx) ?_ hgain hpid (funext fun i => ?_)
    (funext fun i => ?_)), hmode.trans hok.centralized, ?_⟩
  · rw [ofds, get_nextIdx]
    rfl
  · rw [ofds, hofds, get_alloc, Function.update_apply]
    split <;> rfl
  · rw [socks, socks, hsocks]
  · rw [hofds]
    exact hok.positive.alloc hcount

/-- The object that comes with a new description. -/
theorem proceeds_acquired {c c' : Ctx} (h : Acquired H c o c') :
    Proceeds H c (c'.updProc fun p => { p with ofdTable := (p.ofdTable.alloc o).2 }) := by
  have hplain : ∀ {o : OpenFileDesc}, o.hostHandle < 0 →
      (o.fileType = .CharDevice ∨ o.fileType = .Directory ∨ o.fileType = .Regular) →
      ∀ k, Gains H k o.shape k := by
    intro o hneg hft k
    have hfile : o.resources = [] ∧ o.fileType ≠ .Socket := by
      rw [resources_eq]
      rcases hft with h | h | h <;> simp [h, not_le.mpr hneg]
    exact .nothing hfile.1 hfile.2
  cases h with
  | device dev flags path owner =>
    have howner : Proceeds H c (c.updKernel fun k => { k with deviceOwner := owner }) :=
      .alike (.owner _ owner) (.refl _) id
    refine howner.trans ?_
    exact proceeds_added (hplain dev.hostHandle_neg (.inl rfl) _) rfl rfl rfl rfl rfl
  | ptmx idx ptys flags path halloc =>
    exact proceeds_added (.ptmx halloc rfl rfl) rfl rfl rfl rfl rfl
  | pts idx pty flags path hpty =>
    refine proceeds_added (.pts ?_ rfl rfl) rfl rfl rfl rfl rfl
    exact Option.isSome_iff_exists.mpr ⟨pty, hpty⟩
  | synthDir handle flags path hhandle =>
    refine proceeds_added (hplain ?_ (.inr (.inl rfl)) _) rfl rfl rfl rfl rfl
    show handle < 0
    rcases hhandle with rfl | rfl <;> decide
  | procFile =>
    refine proceeds_added (hplain ?_ (.inr (.inr rfl)) _) rfl rfl rfl rfl rfl
    show procfsBufHandle _ < 0
    simp only [procfsBufHandle, PROCFS_BUF_BASE]
    omega
  | hostFile handle fileType flags oflags mode path pre post hft hpre hpost hopen =>
    have hasked : Proceeds H c (c.updKernel fun k => k.quiet pre) :=
      .alike (.quiet _ hpre) (.refl _) id
    have hopened : Proceeds H (c.updKernel fun k => k.quiet pre)
        ⟨(c.kernel.quiet pre).logCall (.open path oflags mode (.ok handle)),
          { c.proc with
            ofdTable := (c.proc.ofdTable.alloc (.fresh fileType flags handle path)).2 }⟩ :=
      proceeds_added (o := .fresh fileType flags handle path) (.hostFile hopen hft rfl) rfl rfl
        rfl rfl rfl
    exact (hasked.trans hopened).trans (.alike (.quiet _ hpost) (.refl _) id)

/-- Whatever an open does proceeds by moves. -/
theorem proceeds_openEffect {c c' : Ctx} {r : Except Errno (ℕ × UInt32)}
    (h : OpenEffect H c r c') : Proceeds H c c' := by
  cases h with
  | refused e calls hquiet => exact .alike (.quiet _ hquiet) (.refl _) id
  | shared fd entry => exact proceeds_incRef c entry.ofdRef
  | created o fdFlags c₁ hacq => exact proceeds_acquired hacq

/-- **An open** is a sequence of moves. -/
theorem proceeds_sysOpen (E : ProcfsEnv) (c : Ctx) (path : Bytes) (oflags mode : UInt32) :
    Proceeds H c (sysOpen H E c path oflags mode).2 := by
  have heff := openTarget_effect (H := H) E c path oflags mode
  rw [sysOpen]
  generalize openTarget H E c path oflags mode = r at heff ⊢
  rcases r with ⟨e | ⟨ofdRef, fdFlags⟩, c'⟩
  · exact proceeds_openEffect heff
  · exact (proceeds_openEffect heff).trans (proceeds_allocFd c' ofdRef fdFlags)

/-! ### Descriptor actions -/

/-- Changing the directory makes no move. -/
theorem proceeds_sysChdir (path : Bytes) : Proceeds H c (sysChdir H c path).2 := by
  have hcwd : ∀ (c : Ctx) (dir : Bytes), Proceeds H c (c.updProc fun p => { p with cwd := dir }) :=
    fun c dir => .proc rfl rfl rfl rfl
  have hstat : ∀ (c : Ctx) (path : Bytes), Proceeds H c (hostStat H c path).2 :=
    fun c path => .logCall c rfl
  simp only [sysChdir]
  split
  · split
    · exact hcwd c _
    · exact .refl c
  split
  · exact hcwd c _
  have hasked := hstat c (resolvePath path c.proc.cwd)
  generalize hostStat H c (resolvePath path c.proc.cwd) = r at hasked ⊢
  rcases r with ⟨e | mode, c'⟩
  · exact hasked
  simp only
  split
  · exact hasked
  · exact hasked.trans (hcwd c' _)

/-- Nor does changing it to an open one. -/
theorem proceeds_sysFchdir (fd : ℤ) : Proceeds H c (sysFchdir c fd).2 := by
  rw [sysFchdir]
  rcases ofdOf c.proc fd with e | ⟨idx, o⟩
  · exact .refl c
  simp only
  split
  · exact .refl c
  · exact .proc rfl rfl rfl rfl

/-- **What the calls of a file action all do**, and so every file action does. -/
structure Followed (H : HostIO) (E : ProcfsEnv) (R : Ctx → Ctx → Prop) : Prop where
  refl : ∀ c, R c c
  trans : ∀ {c c' c''}, R c c' → R c' c'' → R c c''
  sysOpen : ∀ c path oflags mode, R c (sysOpen H E c path oflags mode).2
  sysClose : ∀ c fd, R c (sysClose H c fd).2
  sysDup2 : ∀ c oldfd newfd, R c (sysDup2 H c oldfd newfd).2
  setFlags : ∀ c fd f, R c (c.updProc fun p => { p with fdTable := p.fdTable.setFlags fd f })
  sysChdir : ∀ c path, R c (sysChdir H c path).2
  sysFchdir : ∀ c fd, R c (sysFchdir c fd).2

namespace Followed

variable {E : ProcfsEnv} {R : Ctx → Ctx → Prop} (h : Followed H E R)
include h

/-- A file action relates its contexts as its calls do. -/
theorem applyFileAction (c : Ctx) (a : FileAction) : R c (applyFileAction H E c a).2 := by
  cases a with
  | Close fd => exact h.sysClose c fd.toInt
  | Dup2 srcfd fd =>
    simp only [PosixKernel.applyFileAction]
    split
    · rw [rescueFd]
      rcases c.proc.fdTable.get fd.toInt with e | entry
      · exact h.refl c
      · exact h.setFlags c _ _
    have hdup := h.sysDup2 c srcfd.toInt fd.toInt
    generalize PosixKernel.sysDup2 H c srcfd.toInt fd.toInt = r at hdup ⊢
    rcases r with ⟨e | fd', c'⟩ <;> exact hdup
  | Open fd path oflag mode =>
    have hopen := h.sysOpen c path oflag.toUInt32 mode
    simp only [PosixKernel.applyFileAction]
    generalize PosixKernel.sysOpen H E c path oflag.toUInt32 mode = r at hopen ⊢
    rcases r with ⟨e | opened, c'⟩
    · exact hopen
    simp only
    split
    · exact hopen
    · exact h.trans (h.trans hopen (h.sysDup2 c' opened fd.toInt)) (h.sysClose _ opened)
  | Chdir path => exact h.sysChdir c path
  | Fchdir fd => exact h.sysFchdir c fd.toInt

/-- So does a list of them. -/
theorem applyFileActions (c : Ctx) (actions : List FileAction) :
    R c (applyFileActions H E c actions).2 := by
  induction actions generalizing c with
  | nil => exact h.refl c
  | cons a actions ih =>
    have hstep := h.applyFileAction c a
    rw [PosixKernel.applyFileActions]
    generalize PosixKernel.applyFileAction H E c a = r at hstep ⊢
    rcases r with ⟨e | u, c'⟩
    · exact hstep
    · exact h.trans hstep (ih c')

/-- The file actions of a spawn, with the sweep after them. -/
theorem applySpawnFileActions (c : Ctx) (actions : List FileAction)
    (hsweep : ∀ c, R c (closeCloexec H c)) : R c (applySpawnFileActions H E c actions).2 := by
  have hactions := h.applyFileActions c actions
  rw [PosixKernel.applySpawnFileActions]
  generalize PosixKernel.applyFileActions H E c actions = r at hactions ⊢
  rcases r with ⟨e | u, c'⟩
  · exact hactions
  · exact h.trans hactions (hsweep c')

end Followed

/-- The calls of the file actions proceed by moves. -/
theorem proceeds_followed (E : ProcfsEnv) : Followed H E (Proceeds H) :=
  ⟨.refl, .trans, proceeds_sysOpen E, proceeds_sysClose, proceeds_sysDup2,
    fun _ _ _ => .proc rfl rfl rfl rfl, proceeds_sysChdir, proceeds_sysFchdir⟩

/-- **The file actions of a spawn** are a sequence of moves. -/
theorem proceeds_applySpawnFileActions (E : ProcfsEnv) (c : Ctx) (actions : List FileAction) :
    Proceeds H c (applySpawnFileActions H E c actions).2 :=
  (proceeds_followed E).applySpawnFileActions c actions proceeds_closeCloexec

end Calls

end PosixKernel
