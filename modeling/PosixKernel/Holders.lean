import PosixKernel.Images
import PosixKernel.Moves

/-!
# Holders of Shared Resources

The recorded counts against the holders in all processes. A descriptor call moves the count
of a resource and the holdings of its process together; a new process is counted for what
it inherits.

## Main results

* `Move.flow`, `Moves.flow` — count and holdings move together.
-/

namespace PosixKernel

open SlotTable OpenFileDesc Process

/-! ### One process -/

section HolderFlow

variable {H : HostIO} {c c' : Ctx} {r : Resource}

/-- A host file handle is opened by the host, not taken: its count is another matter. -/
def Resource.isHostFile : Resource → Bool
  | .hostFile _ => true
  | _ => false

/-- What is not a file of the host's differs from each of them. -/
theorem Resource.ne_hostFile (hr : r.isHostFile = false) (h : ℤ) : r ≠ .hostFile h := by
  rintro rfl
  cases hr

/-- A description gained counts what it holds, host files apart. -/
theorem Gains.count {k k' : Kernel} {o : OpenFileDesc} (h : Gains H k o k')
    (hr : r.isHostFile = false) : k'.count r = k.count r + o.resources.count r := by
  cases h with
  | nothing hnone => rw [hnone, List.count_nil, add_zero]
  | @ptmx idx ptys halloc hft hhandle =>
    have hres : o.resources = [.pty idx .master] := by
      rw [resources_eq, hft, hhandle]
      rfl
    rw [hres]
    cases r with
    | pty j s =>
      refine (PtyTable.refs_allocPty halloc j s).trans (congrArg _ ?_)
      rw [List.count_singleton]
      by_cases hj : j = idx ∧ s = .master
      · rw [if_pos hj, hj.1, hj.2]
        simp
      rw [if_neg hj, if_neg]
      intro heq
      have := beq_iff_eq.mp heq
      cases this
      exact hj ⟨rfl, rfl⟩
    | pipe | backlog | hostFile | net => rfl
  | @pts idx hlive hft hhandle =>
    have hres : o.resources = [.pty idx .slave] := by
      rw [resources_eq, hft, hhandle]
      rfl
    rw [hres]
    refine (Kernel.meter_count r).take_apply fun heq => ?_
    rwa [← heq]
  | hostFile hopen hft =>
    have hfile : o.resources = if 0 ≤ o.hostHandle then [.hostFile o.hostHandle] else [] := by
      rw [resources_eq]
      rcases hft with hft | hft <;> rw [hft]
    have hzero : o.resources.count r = 0 := by
      rw [hfile, List.count_eq_zero]
      intro hmem
      split at hmem
      · exact r.ne_hostFile hr _ (List.mem_singleton.mp hmem)
      · cases hmem
    rw [Kernel.count_logCall, hzero, add_zero]

/-- **Count and holdings move together.** -/
theorem Move.flow (h : Move H c c') (hr : r.isHostFile = false) :
    HolderFlow (c.kernel.count r) (c.proc.holds r) (c'.kernel.count r) (c'.proc.holds r) := by
  have hpos : ∀ h, r = .hostFile h → 0 ≤ h := fun h heq => absurd heq (r.ne_hostFile hr h)
  cases h with
  | alike hk hp => exact .of_eq (hk.count r) (holds_alike hp.ofds hp.socks r)
  | @removed k p i o rs hk ho hft hrs hpid hofds hsocks =>
    have hheld := holds_removed ho hofds hsocks r
    refine .sub (d := rs.count r) ?_ (by rw [hrs r hpos]; exact hheld)
    rw [(Kernel.meter_count r).foldl_drop, hk.count]
  | @closed p i o s rs ho hft hs hrs hpid hofds hsocks =>
    have hheld := holds_closed ho hft hs hofds hsocks r
    refine .sub (d := rs.count r) ?_ (by rw [hrs.count_eq]; exact hheld)
    rw [(Kernel.meter_count r).foldl_drop]
  | stale ho hft hs hpid hofds hsocks =>
    have hheld := holds_removed ho hofds hsocks r
    rw [resources_of_socket hft, List.count_nil, add_zero] at hheld
    exact .of_eq rfl hheld.symm
  | added hfree hgain hpid hofds hsocks =>
    exact .add (hgain.count hr) (holds_added hfree hofds hsocks r)

/-- Moves let the count of a resource flow with its holders. -/
theorem Moves.flow (h : Moves H c c') (hr : r.isHostFile = false) :
    HolderFlow (c.kernel.count r) (c.proc.holds r) (c'.kernel.count r) (c'.proc.holds r) := by
  induction h with
  | refl => exact .refl _ _
  | tail _ hmove ih => exact ih.trans (hmove.flow hr)

end HolderFlow

/-! ### What is inherited and returned -/

/-- What the entries of a table name together, as a total. -/
theorem count_flatMap_values {α : Type} (t : SlotTable α) (f : α → List Resource) (r : Resource) :
    (t.values.flatMap f).count r = t.total fun x => (f x).count r := by
  obtain ⟨slots⟩ := t
  simp only [values, total]
  induction slots with
  | nil => rfl
  | cons o slots ih =>
    rcases o with _ | x
    · simpa using ih
    simp only [List.filterMap_cons, id_eq, List.flatMap_cons, List.count_append,
      List.map_cons, List.sum_cons, weight_some]
    exact congrArg _ ih

/-- The host files of a description are no other resource. -/
theorem OpenFileDesc.count_hostFiles {r : Resource} (hr : r.isHostFile = false)
    (o : OpenFileDesc) : o.hostFiles.count r = 0 := by
  rw [List.count_eq_zero]
  intro hmem
  rw [hostFiles] at hmem
  split at hmem
  · split at hmem
    all_goals first
      | exact r.ne_hostFile hr _ (List.mem_singleton.mp hmem)
      | exact absurd hmem List.not_mem_nil
  · cases hmem

/-- The slot of the socket that a description is open on. -/
def OpenFileDesc.socketSlot (o : OpenFileDesc) : Option ℕ :=
  if o.fileType = .Socket ∧ o.hostHandle < 0 then some (handleSlot o.hostHandle) else none

/-- The description of a socket names the socket's slot. -/
theorem OpenFileDesc.socketSlot_of_socket {o : OpenFileDesc} (hft : o.fileType = .Socket)
    (hneg : o.hostHandle < 0) : o.socketSlot = some (handleSlot o.hostHandle) :=
  if_pos ⟨hft, hneg⟩

/-- No other description names one. -/
theorem OpenFileDesc.socketSlot_of_ne {o : OpenFileDesc} (hft : o.fileType ≠ .Socket) :
    o.socketSlot = none :=
  if_neg fun h => hft h.1

/-- What a description counts for through its socket. -/
theorem OpenFileDesc.count_socketEnds (o : OpenFileDesc) (sockets : SocketTable) (r : Resource) :
    (o.socketEnds sockets).count r =
      weight (·.pipeEnds.count r) (o.socketSlot.bind sockets.get) := by
  rw [socketEnds, socketSlot]
  split
  · rw [Option.bind_some]
    rcases sockets.get (handleSlot o.hostHandle) with _ | s <;> rfl
  · rfl

/-- What a new process is counted for: pipes, host files and terminals by descriptions, the
pipes of sockets by descriptions as well, and the rest by sockets. -/
theorem Process.count_inherited (p : Process) (r : Resource) :
    p.inherited.count r = p.ofdTable.total (·.resources.count r) + p.ofdTable.total (fun o =>
        weight (·.pipeEnds.count r) (o.socketSlot.bind p.sockets.get)) +
      p.sockets.total (·.shared.count r) := by
  simp only [inherited, List.count_append, count_flatMap_values, count_socketEnds,
    resources, total_add]

variable {p : Process}

/-- What a removed process gives back, when no connection waits in a queue of its own. -/
theorem Process.count_returned (h : ∀ j s, p.sockets.get j = some s → s.listenBacklog = [])
    (r : Resource) : p.returned.count r = p.ofdTable.total (·.pipeEnds.count r) +
      p.ofdTable.total (·.ptySides.count r) + p.ofdTable.total (fun o =>
        weight (·.pipeEnds.count r) (o.socketSlot.bind p.sockets.get)) +
      p.sockets.total (·.shared.count r) := by
  have hends : ∀ o : OpenFileDesc, o.removedSocketEnds p.sockets = o.socketEnds p.sockets := by
    intro o
    rw [removedSocketEnds, socketEnds]
    split
    · rcases hs : p.sockets.get (handleSlot o.hostHandle) with _ | s
      · rfl
      · simp [SocketInfo.backlogEnds, h _ s hs]
    · rfl
  simp only [returned, List.count_append, count_flatMap_values, hends,
    count_socketEnds]

/-! ### Descriptions and sockets in pairs -/

/-- The number of descriptions open on a socket. -/
def Process.onSocket (p : Process) (j : ℕ) : ℕ :=
  p.ofdTable.total fun o => if o.socketSlot = some j then 1 else 0

/-- Every live socket has one description, which refers to it by a slot handle, and no
connection waits in a queue of its own. -/
structure Process.Paired (p : Process) : Prop where
  negative : ∀ i o, p.ofds i = some o → o.fileType = .Socket → o.hostHandle < 0
  one : ∀ j, p.onSocket j = weight (fun _ => 1) (p.socks j)
  noBacklog : ∀ j s, p.socks j = some s → s.listenBacklog = []

namespace Process

variable {p q : Process} {i : ℕ} {o : OpenFileDesc}

/-- The same descriptions name a socket equally often. -/
theorem onSocket_congr (h : q.ofds = p.ofds) (j : ℕ) : q.onSocket j = p.onSocket j :=
  total_ofds_congr (fun _ => rfl) h

/-- How often a socket is named when one description changes. -/
theorem onSocket_update {x : Option OpenFileDesc} (h : q.ofds = Function.update p.ofds i x)
    (j : ℕ) :
    q.onSocket j + weight (fun o => if o.socketSlot = some j then 1 else 0) (p.ofds i) =
      p.onSocket j + weight (fun o => if o.socketSlot = some j then 1 else 0) x :=
  total_ofds_update (fun _ => rfl) h

namespace Paired

/-- The pairing only depends on what is seen of the tables. -/
theorem congr (h : p.Paired) (hofds : q.ofds = p.ofds) (hsocks : q.socks = p.socks) :
    q.Paired where
  negative i o ho := h.negative i o (by rwa [← hofds])
  one j := by rw [onSocket_congr hofds, hsocks, h.one]
  noBacklog j s hs := h.noBacklog j s (by rwa [← hsocks])

/-- A change of a description that is not of a socket. -/
theorem update {x : Option OpenFileDesc} (h : p.Paired)
    (hold : ∀ o, p.ofds i = some o → o.fileType ≠ .Socket)
    (hnew : ∀ o, x = some o → o.fileType ≠ .Socket)
    (hofds : q.ofds = Function.update p.ofds i x) (hsocks : q.socks = p.socks) : q.Paired where
  negative i' o ho hft := by
    rw [hofds, Function.update_apply] at ho
    split at ho
    · exact absurd hft (hnew o ho)
    · exact h.negative i' o ho hft
  one j := by
    have hzero : ∀ y : Option OpenFileDesc, (∀ o, y = some o → o.fileType ≠ .Socket) →
        weight (fun o => if o.socketSlot = some j then 1 else 0) y = 0 := by
      rintro (_ | o) hy
      · rfl
      · rw [weight_some, socketSlot_of_ne (hy o rfl)]
        rfl
    have hupd := onSocket_update hofds j
    rw [hzero _ hold, hzero _ hnew] at hupd
    rw [hsocks, ← h.one j]
    omega
  noBacklog j s hs := h.noBacklog j s (by rwa [← hsocks])

variable {s : SocketInfo}

/-- A socket that goes together with its description. -/
theorem closed (h : p.Paired) (ho : p.ofds i = some o) (hft : o.fileType = .Socket)
    (hs : p.socks (handleSlot o.hostHandle) = some s)
    (hofds : q.ofds = Function.update p.ofds i none)
    (hsocks : q.socks = Function.update p.socks (handleSlot o.hostHandle) none) : q.Paired where
  negative i' o' ho' hft' := by
    rw [hofds, Function.update_apply] at ho'
    split at ho'
    · cases ho'
    · exact h.negative i' o' ho' hft'
  one j := by
    have hupd := onSocket_update hofds j
    rw [ho, weight_some, weight_none,
      socketSlot_of_socket hft (h.negative i o ho hft), h.one j] at hupd
    rw [hsocks, Function.update_apply]
    split_ifs with hj
    · rw [weight_none]
      rw [if_pos (by rw [hj]), hj, hs, weight_some] at hupd
      rw [hj]
      omega
    rw [if_neg fun heq => hj (Option.some.inj heq).symm] at hupd
    omega
  noBacklog j s' hs' := by
    rw [hsocks, Function.update_apply] at hs'
    split at hs'
    · cases hs'
    · exact h.noBacklog j s' hs'

/-- The socket a description names is there. -/
theorem live (h : p.Paired) (ho : p.ofds i = some o) (hft : o.fileType = .Socket) :
    p.socks (handleSlot o.hostHandle) ≠ none := by
  intro hnone
  have hone := h.one (handleSlot o.hostHandle)
  have hslot := socketSlot_of_socket hft (h.negative i o ho hft)
  rw [hnone, weight_none, onSocket, total_eq_zero_iff] at hone
  obtain ⟨o', ho', rfl⟩ := Option.map_eq_some_iff.mp ho
  exact absurd ((if_pos hslot).symm.trans (hone i o' ho')) Nat.one_ne_zero

variable (h : p.Paired)

include h

/-- A description of no socket keeps the pairing. -/
theorem alloc (hft : o.fileType ≠ .Socket) (hofds : q.ofdTable = (p.ofdTable.alloc o).2)
    (hsockets : q.sockets = p.sockets) : q.Paired := by
  refine h.update (i := p.ofdTable.nextIdx) (x := some o.shape) (fun o' ho' => ?_)
    (fun o' ho' => ?_) (funext fun i => ?_) (funext fun i => ?_)
  · rw [ofds, get_nextIdx] at ho'
    cases ho'
  · rwa [← Option.some.inj ho']
  · rw [ofds, hofds, get_alloc, Function.update_apply]
    split <;> rfl
  · rw [socks, socks, hsockets]

/-- So does a socket that comes with its description. -/
theorem allocSocket (flags : UInt32) (hback : s.listenBacklog = [])
    (hofds : q.ofdTable = (p.ofdTable.alloc (socketOfd p.sockets.nextIdx flags)).2)
    (hsockets : q.sockets = (p.sockets.alloc s).2) : q.Paired where
  negative i o ho hft := by
    rw [ofds, hofds, get_alloc] at ho
    split at ho
    · cases ho
      exact slotHandle_neg _
    · exact h.negative i o ho hft
  one j := by
    have hslot : (socketOfd p.sockets.nextIdx flags).socketSlot = some p.sockets.nextIdx := by
      rw [socketSlot_of_socket rfl (slotHandle_neg _)]
      exact congrArg some (handleSlot_slotHandle _)
    have hone := h.one j
    rw [onSocket, hofds, total_alloc, hslot, ← onSocket, hone, socks, socks, hsockets,
      get_alloc]
    by_cases hj : j = p.sockets.nextIdx
    · rw [if_pos hj, if_pos (by rw [hj]), hj, get_nextIdx]
      rfl
    · rw [if_neg hj, if_neg fun heq => hj (Option.some.inj heq).symm, add_zero]
  noBacklog j s' hs' := by
    rw [socks, hsockets, get_alloc] at hs'
    split at hs'
    · cases hs'
      exact hback
    · exact h.noBacklog j s' hs'

/-- So does a change of a socket beside its backlog. -/
theorem modifySocket {j : ℕ} {f : SocketInfo → SocketInfo}
    (hf : ∀ s, (f s).listenBacklog = s.listenBacklog) (hofds : q.ofdTable = p.ofdTable)
    (hsockets : q.sockets = p.sockets.modify j f) : q.Paired := by
  have hsame : q.ofds = p.ofds := funext fun i => by rw [ofds, ofds, hofds]
  have hget : ∀ i, q.socks i = ((p.sockets.get i).map (if i = j then f else id)).map
      SocketInfo.shape := by
    intro i
    rw [socks, hsockets, get_modify]
    split_ifs with hi
    · rw [hi]
    · rw [Option.map_id, id]
  refine ⟨fun i o ho => h.negative i o (by rwa [← hsame]), fun i => ?_, fun i s hs => ?_⟩
  · rw [onSocket_congr hsame, h.one, hget, socks]
    rcases p.sockets.get i with _ | s <;> rfl
  rw [hget] at hs
  obtain ⟨s', hs', rfl⟩ := Option.map_eq_some_iff.mp hs
  obtain ⟨s₀, hs₀, rfl⟩ := Option.map_eq_some_iff.mp hs'
  have hnone := h.noBacklog i s₀.shape (by rw [socks, hs₀, Option.map_some])
  split
  · exact (hf s₀).trans hnone
  · exact hnone

/-- No socket of a paired process has unaccepted ones of its own. -/
theorem listenBacklog {j : ℕ} (hs : p.sockets.get j = some s) : s.listenBacklog = [] :=
  h.noBacklog j s.shape (by rw [socks, hs, Option.map_some])

/-- What sockets hold, counted through descriptions or directly. -/
theorem total_socketSlot (w : SocketInfo → ℕ) :
    (p.ofdTable.total fun o => weight w (o.socketSlot.bind p.sockets.get)) =
      p.sockets.total w := by
  refine total_join_of_one _ w fun j s hs => ?_
  have hone := h.one j
  rwa [socks, hs] at hone

/-- **A new process is counted for what it holds.** -/
theorem count_inherited (r : Resource) : p.inherited.count r = p.holds r := by
  rw [Process.count_inherited, h.total_socketSlot, holds]
  simp only [SocketInfo.resources, List.count_append, total_add]
  omega

/-- **A removed process gives back what it holds**, host files apart. -/
theorem count_returned {r : Resource} (hr : r.isHostFile = false) :
    p.returned.count r = p.holds r := by
  have hofds : p.ofdTable.total (·.resources.count r) =
      p.ofdTable.total (·.pipeEnds.count r) + p.ofdTable.total (·.ptySides.count r) := by
    rw [← total_add]
    simp [resources, count_hostFiles hr]
  rw [Process.count_returned fun j s hs => h.listenBacklog hs, h.total_socketSlot, holds, hofds]
  simp only [SocketInfo.resources, List.count_append, total_add]
  omega

omit h

end Paired

end Process

/-- What an open gains is no socket. -/
theorem Gains.fileType_ne {H : HostIO} {k k' : Kernel} {o : OpenFileDesc} (h : Gains H k o k') :
    o.fileType ≠ .Socket := by
  cases h with
  | nothing _ hft => exact hft
  | ptmx _ hft _ | pts _ hft _ => simp [hft]
  | hostFile _ hft => rcases hft with hft | hft <;> simp [hft]

/-- A move keeps the pairing. -/
theorem Move.paired {H : HostIO} {c c' : Ctx} (h : Move H c c') (hp : c.proc.Paired) :
    c'.proc.Paired := by
  cases h with
  | alike _ halike => exact hp.congr halike.ofds halike.socks
  | removed _ ho hft _ _ hofds hsocks =>
    refine hp.update (fun o' ho' => ?_) (fun o' ho' => by simp at ho') hofds hsocks
    rw [ho] at ho'
    rwa [← Option.some.inj ho']
  | closed ho hft hs _ _ hofds hsocks => exact hp.closed ho hft hs hofds hsocks
  | stale ho hft hs => exact absurd hs (hp.live ho hft)
  | added hfree hgain _ hofds hsocks =>
    refine hp.update (fun o' ho' => ?_) (fun o' ho' => ?_) hofds hsocks
    · rw [hfree] at ho'
      cases ho'
    · rw [← Option.some.inj ho']
      exact hgain.fileType_ne

/-- So do moves. -/
theorem Moves.paired {H : HostIO} {c c' : Ctx} (h : Moves H c c') (hp : c.proc.Paired) :
    c'.proc.Paired := by
  induction h with
  | refl => exact hp
  | tail _ hmove ih => exact hmove.paired ih

/-! ### New processes -/

/-- A forked child has its parent's descriptions. -/
theorem ofds_forkedChild (h : p.Fits) (childPid : ℕ) : (forkedChild p childPid).ofds = p.ofds := by
  refine ofds_congr fun i => ?_
  show ((ofdTableImage childPid p.ofdTable).get i).map _ = _
  rw [h.get_ofdTableImage, Option.map_map]
  rfl

/-- An index within memory survives the image. -/
theorem idxImage_of_fits {o : Option ℕ} (h : ∀ i ∈ o, i < MEMORY) : idxImage o = o := by
  rcases o with _ | i
  · rfl
  have hi := h i rfl
  simp only [MEMORY] at hi
  simp only [idxImage, Option.getD_some, low32_of_lt (show i < 2 ^ 32 by omega), NO_INDEX]
  exact if_neg (by omega)

/-- So does a socket that fits. -/
theorem SocketInfo.Fits.shape_socketImage {s : SocketInfo} (h : s.Fits)
    (hback : s.listenBacklog = []) : (socketImage s).shape = s.shape := by
  obtain ⟨hsend, hrecv, hshared, hnet⟩ := h
  simp only [shape, socketImage, idxImage_of_fits hsend, idxImage_of_fits hrecv,
    idxImage_of_fits hshared, hback]
  rcases hh : s.hostNetHandle with _ | n
  · rfl
  · rw [netHandleImage, Option.filter_some_pos (by simpa using hnet n (by rw [hh]; rfl))]
    rfl

/-- A forked child has its parent's sockets. -/
theorem socks_forkedChild (h : p.Fits) (hpaired : p.Paired) (childPid : ℕ) :
    (forkedChild p childPid).socks = p.socks := by
  funext i
  show ((socketsImage p.sockets).get i).map _ = _
  rw [h.get_socketsImage, socks, Option.map_map]
  refine Option.map_congr fun s hs => ?_
  exact (h.socket hs).2.shape_socketImage (hpaired.listenBacklog hs)

/-- The group attribute touches no table. -/
theorem spawnGroup_tables (attrs : SpawnAttrs) (child : Process) :
    (spawnGroup attrs child).pid = child.pid ∧ (spawnGroup attrs child).fdTable = child.fdTable ∧
      (spawnGroup attrs child).ofdTable = child.ofdTable ∧
      (spawnGroup attrs child).sockets = child.sockets := by
  simp only [spawnGroup]
  split <;> split <;> exact ⟨rfl, rfl, rfl, rfl⟩

section Spawned

variable (parent : Process) (parentPid childPid : ℕ) (argv envp : List Bytes)
  (attrs : SpawnAttrs)

/-- A spawned child starts with its parent's tables. -/
theorem spawnedChild_tables :
    (spawnedChild parent parentPid childPid argv envp attrs).pid = childPid ∧
      (spawnedChild parent parentPid childPid argv envp attrs).fdTable = parent.fdTable ∧
      (spawnedChild parent parentPid childPid argv envp attrs).ofdTable = parent.ofdTable ∧
      (spawnedChild parent parentPid childPid argv envp attrs).sockets = parent.sockets.clone :=
  spawnGroup_tables _ _

/-- So it has its parent's descriptions. -/
theorem ofds_spawnedChild :
    (spawnedChild parent parentPid childPid argv envp attrs).ofds = parent.ofds := by
  funext i
  rw [ofds, (spawnedChild_tables parent parentPid childPid argv envp attrs).2.2.1]
  rfl

/-- And its parent's sockets. -/
theorem socks_spawnedChild (hpaired : parent.Paired) :
    (spawnedChild parent parentPid childPid argv envp attrs).socks = parent.socks := by
  funext i
  rw [socks, (spawnedChild_tables parent parentPid childPid argv envp attrs).2.2.2,
    SocketTable.get_clone, socks, Option.map_map]
  refine Option.map_congr fun s hs => ?_
  simp [SocketInfo.shape, SocketInfo.clone, hpaired.listenBacklog hs]

end Spawned

/-! ### All processes -/

/-- How often a resource is held in the whole system. -/
def System.held (s : System) (r : Resource) : ℕ := s.procs.total (·.holds r)

namespace System

variable {s : System} {pid : ℕ} {p : Process} {r : Resource}

/-- What a process holds the system holds. -/
theorem holds_le_held (hp : s.procs.get pid = some p) (r : Resource) : p.holds r ≤ s.held r :=
  le_total (f := (·.holds r)) hp

/-- What the system holds after a call of one process. -/
theorem held_commit (hp : s.procs.get pid = some p) (c : Ctx) (r : Resource) :
    (s.commit pid c).held r + p.holds r = s.held r + c.proc.holds r := by
  have h := total_put s.procs (·.holds r) pid (some c.proc)
  rwa [hp] at h

/-- The number given to a spawned child is free. -/
theorem get_allocateSpawnPid (s : System) : s.procs.get s.allocateSpawnPid = none := by
  rw [allocateSpawnPid]
  rcases h : (s.procs.slots.drop 2).findIdx? Option.isNone with _ | k
  · refine get_eq_none_of_le ?_
    simp only [Option.getD_none]
    omega
  obtain ⟨hlt, hnone, -⟩ := List.findIdx?_eq_some_iff_getElem.mp h
  have hlen : 2 + k < s.procs.slots.length := by
    rw [List.length_drop] at hlt
    omega
  simp only [Option.getD_some, SlotTable.get, List.getD_eq_getElem?_getD,
    List.getElem?_eq_getElem hlen]
  simpa using hnone

end System

end PosixKernel
