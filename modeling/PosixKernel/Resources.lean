import PosixKernel.Close
import PosixKernel.Lib.Ledger

/-!
# Resources Shared by Processes

Five kinds of things are counted across processes: the ends of global pipes, the sides of
pseudo-terminals, the accept queues of listeners, host file handles and host network
handles. A process holds them through its descriptions and its sockets.

## Main results

* `Kernel.meter_count` — the recorded counts follow takes and drops.
-/

namespace PosixKernel

open SharedBacklogTable

/-- A thing whose holders are counted across processes. -/
inductive Resource
  | pipe (idx : ℕ) (e : PipeEnd)
  | pty (idx : ℕ) (s : PtySide)
  | backlog (idx : ℕ)
  | hostFile (h : ℤ)
  | net (h : Int32)
  deriving DecidableEq

namespace Kernel

/-- Count one more holder. Pipes, terminals and queues that are gone are passed over. -/
def take (k : Kernel) : Resource → Kernel
  | .pipe idx e => { k with pipes := k.pipes.addEnd idx e }
  | .pty idx s => { k with ptys := k.ptys.addSide idx s }
  | .backlog idx => { k with backlogs := k.backlogs.addRef idx }
  | .hostFile h => { k with hostHandleRefs := k.hostHandleRefs.forkRef h }
  | .net h => { k with hostNetRefs := k.hostNetRefs.forkRef h }

/-- Count one holder less; the last one of a host handle closes it on the host. -/
def drop (k : Kernel) : Resource → Kernel
  | .pipe idx e => { k with pipes := k.pipes.dropEnd idx e }
  | .pty idx s => { k with ptys := k.ptys.dropSide idx s }
  | .backlog idx => { k with backlogs := k.backlogs.decRef idx }
  | .hostFile h =>
    let released := k.hostHandleRefs.closeRef h
    let k := { k with hostHandleRefs := released.2 }
    if released.1 then k.logCall (.close h) else k
  | .net h =>
    let released := k.hostNetRefs.closeRef h
    let k := { k with hostNetRefs := released.2 }
    if released.1 then k.logCall (.netClose h) else k

/-- The recorded number of holders; of a host handle, the number of those beyond the
first. -/
def count (k : Kernel) : Resource → ℕ
  | .pipe idx e => k.pipes.ends idx e
  | .pty idx s => k.ptys.refs idx s
  | .backlog idx => k.backlogs.refs idx
  | .hostFile h => k.hostHandleRefs.owners 1 h - 1
  | .net h => k.hostNetRefs.owners 1 h - 1

/-- Whether holders of a resource can be counted. -/
def Live (k : Kernel) : Resource → Prop
  | .pipe idx _ => (k.pipes.get idx).isSome = true
  | .pty idx _ => (k.ptys.getPty idx).isSome = true
  | .backlog idx => (k.backlogs.get idx).isSome = true
  | .hostFile _ | .net _ => True

end Kernel

/-! ### Counts under takes and drops -/

namespace Kernel

variable {r : Resource} (k : Kernel)

theorem count_take_ne {r' : Resource} (h : r' ≠ r) : (k.take r').count r = k.count r := by
  cases r' with
  | pipe =>
    cases r with
    | pipe =>
      exact PipeTable.ends_addEnd_of_ne _ fun heq => h (by rw [heq.1, heq.2])
    | _ => rfl
  | pty =>
    cases r with
    | pty => exact PtyTable.refs_addSide_of_ne _ fun heq => h (by rw [heq.1, heq.2])
    | _ => rfl
  | backlog =>
    cases r with
    | backlog => exact refs_addRef_of_ne _ fun heq => h (by rw [heq])
    | _ => rfl
  | hostFile i =>
    cases r with
    | hostFile j =>
      have hne : j ≠ i := fun heq => h (by rw [heq])
      exact congrArg (· - 1) ((SharedRefs.owners_forkRef _ 1 i j).trans (if_neg hne))
    | _ => rfl
  | net i =>
    cases r with
    | net j =>
      have hne : j ≠ i := fun heq => h (by rw [heq])
      exact congrArg (· - 1) ((SharedRefs.owners_forkRef _ 1 i j).trans (if_neg hne))
    | _ => rfl

theorem count_take_self (h : k.Live r) : (k.take r).count r = k.count r + 1 := by
  cases r with
  | pipe i e =>
    obtain ⟨p, hp⟩ := Option.isSome_iff_exists.mp h
    exact (PipeTable.ends_addEnd hp e i e).trans (if_pos ⟨rfl, rfl⟩)
  | pty i s =>
    obtain ⟨p, hp⟩ := Option.isSome_iff_exists.mp h
    exact (PtyTable.refs_addSide hp s i s).trans (if_pos ⟨rfl, rfl⟩)
  | backlog i =>
    obtain ⟨b, hb⟩ := Option.isSome_iff_exists.mp h
    exact (refs_addRef hb i).trans (if_pos rfl)
  | hostFile i =>
    have hpos := SharedRefs.owners_one_pos k.hostHandleRefs i
    have htake := (SharedRefs.owners_forkRef k.hostHandleRefs 1 i i).trans (if_pos rfl)
    simp only [take, count, htake]
    omega
  | net i =>
    have hpos := SharedRefs.owners_one_pos k.hostNetRefs i
    have htake := (SharedRefs.owners_forkRef k.hostNetRefs 1 i i).trans (if_pos rfl)
    simp only [take, count, htake]
    omega

theorem live_take (r r' : Resource) : (k.take r').Live r ↔ k.Live r := by
  cases r' with
  | pipe i e =>
    cases r with
    | pipe j =>
      show ((k.pipes.addEnd i e).get j).isSome = true ↔ (k.pipes.get j).isSome = true
      rw [PipeTable.get_addEnd]
      split
      next hj => rw [hj, Option.isSome_map]
      · rfl
    | _ => rfl
  | pty i s =>
    cases r with
    | pty j => exact Iff.of_eq (congrArg (· = true) (PtyTable.isSome_getPty_addSide _ i j s))
    | _ => rfl
  | backlog i =>
    cases r with
    | backlog j =>
      show ((k.backlogs.addRef i).get j).isSome = true ↔ (k.backlogs.get j).isSome = true
      rw [addRef, SlotTable.get_modify]
      split
      next hj => rw [hj, Option.isSome_map]
      · rfl
    | _ => rfl
  | hostFile => cases r <;> rfl
  | net => cases r <;> rfl

theorem live_of_count_pos (h : 0 < k.count r) : k.Live r := by
  cases r with
  | pipe =>
    obtain ⟨p, hp⟩ := PipeTable.isSome_get_of_ends_pos h
    exact Option.isSome_iff_exists.mpr ⟨p, hp⟩
  | pty i =>
    show (k.ptys.getPty i).isSome = true
    rcases hp : k.ptys.getPty i with _ | p
    · rw [count, PtyTable.refs, hp] at h
      cases h
    · rfl
  | backlog i =>
    show (k.backlogs.get i).isSome = true
    rcases hb : k.backlogs.get i with _ | b
    · rw [count, refs, hb] at h
      cases h
    · rfl
  | hostFile | net => exact trivial

theorem count_logCall (call : HostCall) (r : Resource) : (k.logCall call).count r = k.count r := by
  cases r <;> rfl

theorem count_drop (r r' : Resource) :
    (k.drop r').count r = if r' = r then k.count r - 1 else k.count r := by
  cases r' with
  | pipe i e =>
    cases r with
    | pipe j e' =>
      exact (PipeTable.ends_dropEnd k.pipes i e j e').trans
        (ite_congr (by simp [eq_comm]) (fun h => by cases h; rfl) fun _ => rfl)
    | _ => rfl
  | pty i s =>
    cases r with
    | pty j s' =>
      exact (PtyTable.refs_dropSide k.ptys i s j s').trans
        (ite_congr (by simp [eq_comm]) (fun h => by cases h; rfl) fun _ => rfl)
    | _ => rfl
  | backlog i =>
    cases r with
    | backlog j =>
      exact (refs_decRef k.backlogs i j).trans
        (ite_congr (by simp [eq_comm]) (fun h => by cases h; rfl) fun _ => rfl)
    | _ => rfl
  | hostFile i =>
    have hkernel : (k.drop (.hostFile i)).count r =
        { k with hostHandleRefs := (k.hostHandleRefs.closeRef i).2 }.count r := by
      simp only [drop]
      split
      · exact count_logCall _ _ _
      · rfl
    rw [hkernel]
    cases r with
    | hostFile j =>
      exact (SharedRefs.shares_closeRef k.hostHandleRefs i j).trans
        (ite_congr (by simp [eq_comm]) (fun h => by cases h; rfl) fun _ => rfl)
    | _ => rfl
  | net i =>
    have hkernel : (k.drop (.net i)).count r =
        { k with hostNetRefs := (k.hostNetRefs.closeRef i).2 }.count r := by
      simp only [drop]
      split
      · exact count_logCall _ _ _
      · rfl
    rw [hkernel]
    cases r with
    | net j =>
      exact (SharedRefs.shares_closeRef k.hostNetRefs i j).trans
        (ite_congr (by simp [eq_comm]) (fun h => by cases h; rfl) fun _ => rfl)
    | _ => rfl

theorem count_eq_zero_of_dead (h : ¬ k.Live r) : k.count r = 0 := by
  by_contra hne
  exact h (k.live_of_count_pos (Nat.pos_of_ne_zero hne))

theorem live_foldl_take (rs : List Resource) (k : Kernel) (r : Resource) :
    (rs.foldl take k).Live r ↔ k.Live r := by
  induction rs generalizing k with
  | nil => exact Iff.rfl
  | cons r' rs ih => exact (ih (k.take r')).trans (k.live_take r r')

/-- **The recorded counts follow takes and drops.** -/
theorem meter_count (r : Resource) : Meter take drop r (·.count r) (·.Live r) where
  take_ne k _ h := k.count_take_ne h
  drop_ne k r' h := (k.count_drop r r').trans (if_neg h)
  take_self k h := k.count_take_self h
  drop_self k := (k.count_drop r r).trans (if_pos rfl)
  live_take k r' h := (k.live_take r r').mpr h

end Kernel

/-! ### What descriptions and sockets hold -/

/-- The end of a global pipe that a description is open on. -/
def OpenFileDesc.pipeEnds (o : OpenFileDesc) : List Resource :=
  if o.fileType = .Pipe ∧ o.hostHandle < 0 then
    [.pipe (handleSlot o.hostHandle) (pipeEndOf o.statusFlags)]
  else []

/-- The host file handle that a description is open on. -/
def OpenFileDesc.hostFiles (o : OpenFileDesc) : List Resource :=
  if 0 ≤ o.hostHandle then
    match o.fileType with
    | .Regular | .Directory | .CharDevice | .Pipe => [.hostFile o.hostHandle]
    | _ => []
  else []

/-- The side of a pseudo-terminal that a description is open on. -/
def OpenFileDesc.ptySides (o : OpenFileDesc) : List Resource :=
  match o.fileType with
  | .PtyMaster => [.pty o.hostHandle.toNat .master]
  | .PtySlave => [.pty o.hostHandle.toNat .slave]
  | _ => []

/-- The pipe ends of a socket over the global table: it writes to one pipe and reads from
the other. -/
def SocketInfo.pipeEnds (s : SocketInfo) : List Resource :=
  if s.globalPipes then
    s.sendBufIdx.toList.map (.pipe · .write) ++ s.recvBufIdx.toList.map (.pipe · .read)
  else []

/-- What every socket record counts for, whether or not a description is open on it. -/
def SocketInfo.shared (s : SocketInfo) : List Resource :=
  s.sharedBacklogIdx.toList.map .backlog ++ s.hostNetHandle.toList.map .net

/-- The pipe ends of the socket that a description is open on. -/
def OpenFileDesc.socketEnds (sockets : SocketTable) (o : OpenFileDesc) : List Resource :=
  if o.fileType = .Socket ∧ o.hostHandle < 0 then
    match sockets.get (handleSlot o.hostHandle) with
    | none => []
    | some s => s.pipeEnds
  else []

/-- What a description holds by itself. -/
def OpenFileDesc.resources (o : OpenFileDesc) : List Resource :=
  o.pipeEnds ++ o.hostFiles ++ o.ptySides

/-- What a description holds, by its kind: at most one thing. -/
theorem OpenFileDesc.resources_eq (o : OpenFileDesc) :
    o.resources =
      match o.fileType with
      | .Pipe =>
        if o.hostHandle < 0 then [.pipe (handleSlot o.hostHandle) (pipeEndOf o.statusFlags)]
        else [.hostFile o.hostHandle]
      | .Regular | .Directory | .CharDevice =>
        if 0 ≤ o.hostHandle then [.hostFile o.hostHandle] else []
      | .PtyMaster => [.pty o.hostHandle.toNat .master]
      | .PtySlave => [.pty o.hostHandle.toNat .slave]
      | .Socket | .EventFd | .Epoll | .TimerFd | .SignalFd | .MemFd => [] := by
  rw [resources, pipeEnds, hostFiles, ptySides]
  rcases o.fileType with _ | _ | _ | _ | _ | _ | _ | _ | _ | _ | _ | _
  case Pipe =>
    by_cases h : o.hostHandle < 0
    · simp [h, not_le.mpr h]
    · simp [h, not_lt.mp h]
  all_goals simp

/-- What a socket holds. -/
def SocketInfo.resources (s : SocketInfo) : List Resource := s.pipeEnds ++ s.shared

/-- How often a process holds a resource, through its descriptions and its sockets. -/
def Process.holds (p : Process) (r : Resource) : ℕ :=
  p.ofdTable.total (·.resources.count r) + p.sockets.total (·.resources.count r)

end PosixKernel
