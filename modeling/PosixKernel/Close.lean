import PosixKernel.Paths

/-!
# Closing Descriptors

`sys_close` and everything it releases: the locks of the file, the description once its
last descriptor goes, and with the description the object it refers to.

## Main results

* `sysClose_cases` — the three things a close can do;
* `sameCore_releaseOfd` — releasing an object leaves both descriptor tables alone;
* `sameSettings_sysClose` — a close touches nothing but descriptors and objects.
-/

namespace PosixKernel

variable (H : HostIO)

/-- The end of a pipe that a description with these status flags holds. -/
def pipeEndOf (statusFlags : UInt32) : PipeEnd :=
  if statusFlags &&& O_ACCMODE = O_RDONLY then .read else .write

/-- Let a host file handle go, closing it on the host if no other process shares it. -/
def dropHostHandle (c : Ctx) (h : ℤ) : Except Errno Unit × Ctx :=
  let released := c.kernel.hostHandleRefs.closeRef h
  let c := c.updKernel fun k => { k with hostHandleRefs := released.2 }
  if released.1 then (H.hostClose c.kernel.log h, c.logCall (.close h)) else (.ok (), c)

/-- Let a socket's host connection go, closing it on the host if no other process shares
it. -/
def dropNetHandle (c : Ctx) : Option Int32 → Ctx
  | none => c
  | some h =>
    let released := c.kernel.hostNetRefs.closeRef h
    let c := c.updKernel fun k => { k with hostNetRefs := released.2 }
    if released.1 then c.logCall (.netClose h) else c

/-- Drop a listener's reference to its shared accept queue. -/
def dropBacklog (c : Ctx) : Option ℕ → Ctx
  | none => c
  | some idx => c.updKernel fun k => { k with backlogs := k.backlogs.decRef idx }

/-- Release a pipe end. Only the global table frees slots. -/
def releasePipe (c : Ctx) (o : OpenFileDesc) : Ctx :=
  if 0 ≤ o.hostHandle then (dropHostHandle H c o.hostHandle).2
  else if c.kernel.centralized then
    c.updKernel fun k =>
      { k with pipes := k.pipes.dropEnd (handleSlot o.hostHandle) (pipeEndOf o.statusFlags) }
  else
    c.updProc fun p =>
      { p with
        pipes := p.pipes.modify (handleSlot o.hostHandle)
          (PipeBuffer.closeEnd (pipeEndOf o.statusFlags)) }

/-- Give up one end of a socket's buffer: in the global table, or in the process's own,
where a slot without holders is freed. -/
def releaseSocketBuffer (globalPipes : Bool) (c : Ctx) (buf : Option ℕ) (e : PipeEnd) : Ctx :=
  match buf with
  | none => c
  | some idx =>
    if globalPipes then c.updKernel fun k => { k with pipes := k.pipes.dropEnd idx e }
    else
      c.updProc fun p =>
        { p with
          pipes := p.pipes.release idx (PipeBuffer.closeEnd e) PipeBuffer.isFullyClosed }

/-- Release a socket: its host connection, its accept queue, both buffers, its slot. -/
def releaseSocket (c : Ctx) (sockIdx : ℕ) : Ctx :=
  match c.proc.sockets.get sockIdx with
  | none => c
  | some sock =>
    let c := dropNetHandle c sock.hostNetHandle
    let c := dropBacklog c sock.sharedBacklogIdx
    let c := releaseSocketBuffer sock.globalPipes c sock.sendBufIdx .write
    let c := releaseSocketBuffer sock.globalPipes c sock.recvBufIdx .read
    c.updProc fun p => { p with sockets := p.sockets.clear sockIdx }

/-- Release a side of a pseudo-terminal. -/
def releasePty (c : Ctx) (o : OpenFileDesc) (s : PtySide) : Ctx :=
  c.updKernel fun k => { k with ptys := k.ptys.dropSide o.hostHandle.toNat s }

/-- Release a file, directory or character device: a pending directory iteration is
closed, then the content buffer, or the host handle unless another process shares it. -/
def releaseFile (c : Ctx) (o : OpenFileDesc) : Except Errno Unit × Ctx :=
  let c := if 0 ≤ o.dirHostHandle then c.logCall (.closedir o.dirHostHandle) else c
  if isProcfsBufHandle o.hostHandle then
    (.ok (), c.updProc fun p =>
      { p with procfsBufs := p.procfsBufs.clear (procfsBufIdx o.hostHandle) })
  else if o.hostHandle = PROCFS_DIR_HANDLE ∨ o.hostHandle = DEVFS_DIR_HANDLE then (.ok (), c)
  else if o.fileType = .CharDevice ∧ o.hostHandle < 0 then (.ok (), c)
  else dropHostHandle H c o.hostHandle

/-- Release the object of a description whose last descriptor is gone. -/
def releaseOfd (c : Ctx) (o : OpenFileDesc) : Except Errno Unit × Ctx :=
  match o.fileType with
  | .Pipe => (.ok (), releasePipe H c o)
  | .Socket => (.ok (), releaseSocket c (handleSlot o.hostHandle))
  | .EventFd => (.ok (), c.updProc fun p =>
      { p with eventfds := p.eventfds.clear (handleSlot o.hostHandle) })
  | .Epoll => (.ok (), c.updProc fun p =>
      { p with epolls := p.epolls.clear (handleSlot o.hostHandle) })
  | .TimerFd => (.ok (), c.updProc fun p =>
      { p with timerfds := p.timerfds.clear (handleSlot o.hostHandle) })
  | .SignalFd => (.ok (), c.updProc fun p =>
      { p with signalfds := p.signalfds.clear (handleSlot o.hostHandle) })
  | .MemFd => (.ok (), c.updProc fun p =>
      { p with memfds := p.memfds.clear (handleSlot o.hostHandle) })
  | .PtyMaster => (.ok (), releasePty c o .master)
  | .PtySlave => (.ok (), releasePty c o .slave)
  | .Regular | .Directory | .CharDevice => releaseFile H c o

/-- Closing any descriptor on a file drops the process's advisory locks on it. -/
def dropLocks (c : Ctx) (o : OpenFileDesc) : Ctx :=
  if 0 ≤ o.hostHandle ∧ o.fileType ≠ .Pipe ∧ o.fileType ≠ .Socket ∧
      o.fileType ≠ .PtyMaster ∧ o.fileType ≠ .PtySlave then
    let c := c.updProc fun p =>
      { p with lockTable := p.lockTable.removeForHandle o.hostHandle p.pid }
    if o.path = [] then c else c.logCall (.fcntlLock o.path c.proc.pid)
  else c

/-- Whether one of the first 1024 descriptors is open on a device. -/
def procHasDeviceFd (p : Process) (dev : VirtualDevice) : Bool :=
  (List.range 1024).any fun i =>
    match p.fdTable.entries.get i with
    | none => false
    | some e =>
      match p.ofdTable.get e.ofdRef with
      | none => false
      | some o => o.fileType = .CharDevice && VirtualDevice.fromHostHandle o.hostHandle = some dev

def procHasFb0Fd (p : Process) : Bool := procHasDeviceFd p .Fb0
def procHasMiceFd (p : Process) : Bool := procHasDeviceFd p .Mice
def procHasDspFd (p : Process) : Bool := procHasDeviceFd p .Dsp

/-- Give a device up, if the process owns it. -/
def maybeReleaseDevice (dev : VirtualDevice) (pid : ℕ) (k : Kernel) : Kernel :=
  if k.deviceOwner dev = pid then
    { k with deviceOwner := Function.update k.deviceOwner dev (-1) }
  else k

def maybeReleaseFb0 : ℕ → Kernel → Kernel := maybeReleaseDevice .Fb0
def maybeReleaseMice : ℕ → Kernel → Kernel := maybeReleaseDevice .Mice
def maybeReleaseDsp : ℕ → Kernel → Kernel := maybeReleaseDevice .Dsp

/-- Whether a description is open on a device. -/
def OpenFileDesc.isDevice (o : OpenFileDesc) (dev : VirtualDevice) : Bool :=
  o.fileType = .CharDevice && VirtualDevice.fromHostHandle o.hostHandle = some dev

/-- Give a device up on a condition. -/
def releaseDeviceIf (cond : Bool) (release : ℕ → Kernel → Kernel) (c : Ctx) : Ctx :=
  if cond then c.updKernel (release c.proc.pid) else c

/-- After a close, give up the devices the process has no descriptor on any more; a live
framebuffer mapping keeps its device. -/
def releaseDevices (c : Ctx) (o : OpenFileDesc) : Ctx :=
  let c := releaseDeviceIf (o.isDevice .Fb0 && c.proc.fbBinding.isNone && !procHasFb0Fd c.proc)
    maybeReleaseFb0 c
  let c := releaseDeviceIf (o.isDevice .Mice && !procHasMiceFd c.proc) maybeReleaseMice c
  releaseDeviceIf (o.isDevice .Dsp && !procHasDspFd c.proc) maybeReleaseDsp c

/-- Drop one reference to a description and release its object with the last one. -/
def dropOfd (c : Ctx) (idx : ℕ) (o : OpenFileDesc) : Except Errno Unit × Ctx :=
  let dropped := c.proc.ofdTable.decRef idx
  let c := c.updProc fun p => { p with ofdTable := dropped.2 }
  if dropped.1 then releaseOfd H c o else (.ok (), c)

/-- Close a descriptor. -/
def sysClose (c : Ctx) (fd : ℤ) : Except Errno Unit × Ctx :=
  match c.proc.fdTable.free fd with
  | .error e => (.error e, c)
  | .ok (idx, fdTable) =>
    let c := c.updProc fun p => { p with fdTable }
    match c.proc.ofdTable.get idx with
    | none => (.error .EBADF, c)
    | some o =>
      match dropOfd H (dropLocks c o) idx o with
      | (.error e, c) => (.error e, c)
      | (.ok (), c) => (.ok (), releaseDevices c o)

/-- Close descriptors in turn, whether or not each close succeeds. -/
def closeFds (c : Ctx) (fds : List ℕ) : Ctx :=
  fds.foldl (fun c fd => (sysClose H c fd).2) c

/-- The descriptors marked close-on-exec. -/
def cloexecFds (p : Process) : List ℕ :=
  (p.fdTable.entries.entries.filter fun e => hasFlag e.2.fdFlags FD_CLOEXEC).map Prod.fst

/-- Close the descriptors marked close-on-exec. -/
def closeCloexec (c : Ctx) : Ctx := closeFds H c (cloexecFds c.proc)

/-! ### What a close leaves alone -/

variable {H}

variable (c : Ctx)

/-- Dropping a host handle leaves the process. -/
@[simp] theorem dropHostHandle_proc (h : ℤ) : (dropHostHandle H c h).2.proc = c.proc := by
  simp only [dropHostHandle]
  split <;> rfl

/-- So does dropping a connection. -/
@[simp] theorem dropNetHandle_proc (h : Option Int32) : (dropNetHandle c h).proc = c.proc := by
  rcases h with _ | h
  · rfl
  · simp only [dropNetHandle]
    split <;> rfl

/-- So does dropping a queue. -/
@[simp] theorem dropBacklog_proc (b : Option ℕ) : (dropBacklog c b).proc = c.proc := by
  cases b <;> rfl

variable (o : OpenFileDesc)

/-- So does releasing devices. -/
@[simp] theorem releaseDevices_proc : (releaseDevices c o).proc = c.proc := by
  simp only [releaseDevices, releaseDeviceIf]
  split_ifs <;> rfl

/-- Releasing a pipe leaves the core. -/
theorem sameCore_releasePipe : c.proc.SameCore (releasePipe H c o).proc := by
  simp only [releasePipe]
  split
  · rw [dropHostHandle_proc]
    exact .refl _
  · split <;> rfl

/-- So does releasing a buffer. -/
theorem sameCore_releaseSocketBuffer (g : Bool) (c : Ctx) (buf : Option ℕ) (e : PipeEnd) :
    c.proc.SameCore (releaseSocketBuffer g c buf e).proc := by
  rcases buf with _ | idx
  · exact .refl _
  · cases g <;> rfl

/-- So does releasing a socket. -/
theorem sameCore_releaseSocket (sockIdx : ℕ) : c.proc.SameCore (releaseSocket c sockIdx).proc := by
  rw [releaseSocket]
  rcases c.proc.sockets.get sockIdx with _ | sock
  · exact .refl _
  have hshared : (dropBacklog (dropNetHandle c sock.hostNetHandle)
      sock.sharedBacklogIdx).proc = c.proc := by simp
  have hsend := sameCore_releaseSocketBuffer sock.globalPipes
    (dropBacklog (dropNetHandle c sock.hostNetHandle) sock.sharedBacklogIdx)
    sock.sendBufIdx .write
  have hrecv := sameCore_releaseSocketBuffer sock.globalPipes
    (releaseSocketBuffer sock.globalPipes
      (dropBacklog (dropNetHandle c sock.hostNetHandle) sock.sharedBacklogIdx)
      sock.sendBufIdx .write) sock.recvBufIdx .read
  rw [hshared] at hsend
  exact (hsend.trans hrecv).trans rfl

/-- So does releasing a file. -/
theorem sameCore_releaseFile : c.proc.SameCore (releaseFile H c o).2.proc := by
  have hdir : (if 0 ≤ o.dirHostHandle then c.logCall (.closedir o.dirHostHandle)
      else c).proc = c.proc := by
    split <;> rfl
  simp only [releaseFile]
  split
  · simp only [Ctx.updProc_proc, hdir]
    rfl
  split
  · rw [hdir]
    exact .refl _
  split
  · rw [hdir]
    exact .refl _
  · rw [dropHostHandle_proc, hdir]
    exact .refl _

/-- Releasing the object of a description touches neither descriptor table. -/
theorem sameCore_releaseOfd : c.proc.SameCore (releaseOfd H c o).2.proc := by
  rw [releaseOfd]
  cases o.fileType with
  | Pipe => exact sameCore_releasePipe c o
  | Socket => exact sameCore_releaseSocket c _
  | Regular | Directory | CharDevice => exact sameCore_releaseFile c o
  | EventFd | Epoll | TimerFd | SignalFd | MemFd | PtyMaster | PtySlave => rfl

/-- So does dropping locks. -/
theorem sameCore_dropLocks : c.proc.SameCore (dropLocks c o).proc := by
  simp only [dropLocks]
  split
  · split <;> rfl
  · exact .refl _

/-- Dropping locks makes at most one call on the host. -/
theorem dropLocks_kernel :
    (dropLocks c o).kernel = c.kernel ∨
      ∃ path pid, (dropLocks c o).kernel = c.kernel.logCall (.fcntlLock path pid) := by
  simp only [dropLocks]
  split
  · split
    · exact .inl rfl
    · exact .inr ⟨_, _, rfl⟩
  · exact .inl rfl

/-- A device released only changes its owner. -/
theorem releaseDeviceIf_kernel (b : Bool) (dev : VirtualDevice) (c : Ctx) :
    ∃ owner, (releaseDeviceIf b (maybeReleaseDevice dev) c).kernel =
      { c.kernel with deviceOwner := owner } := by
  cases b with
  | false => exact ⟨c.kernel.deviceOwner, rfl⟩
  | true =>
    simp only [releaseDeviceIf, if_true, Ctx.updKernel_kernel, maybeReleaseDevice]
    split
    · exact ⟨_, rfl⟩
    · exact ⟨c.kernel.deviceOwner, rfl⟩

/-- So do all of them. -/
theorem releaseDevices_kernel :
    ∃ owner, (releaseDevices c o).kernel = { c.kernel with deviceOwner := owner } := by
  simp only [releaseDevices]
  obtain ⟨o₁, h₁⟩ := releaseDeviceIf_kernel
    (o.isDevice .Fb0 && c.proc.fbBinding.isNone && !procHasFb0Fd c.proc) .Fb0 c
  generalize hc₁ : releaseDeviceIf
    (o.isDevice .Fb0 && c.proc.fbBinding.isNone && !procHasFb0Fd c.proc) maybeReleaseFb0 c = c₁
  obtain ⟨o₂, h₂⟩ := releaseDeviceIf_kernel
    (o.isDevice .Mice && !procHasMiceFd c₁.proc) .Mice c₁
  generalize hc₂ : releaseDeviceIf
    (o.isDevice .Mice && !procHasMiceFd c₁.proc) maybeReleaseMice c₁ = c₂
  obtain ⟨o₃, h₃⟩ := releaseDeviceIf_kernel
    (o.isDevice .Dsp && !procHasDspFd c₂.proc) .Dsp c₂
  have hk₁ : c₁.kernel = { c.kernel with deviceOwner := o₁ } := hc₁ ▸ h₁
  have hk₂ : c₂.kernel = { c₁.kernel with deviceOwner := o₂ } := hc₂ ▸ h₂
  refine ⟨o₃, ?_⟩
  refine h₃.trans ?_
  rw [hk₂, hk₁]

/-- A dropped description only leaves its table. -/
theorem sameCore_dropOfd (idx : ℕ) (o : OpenFileDesc) :
    { c.proc with ofdTable := (c.proc.ofdTable.decRef idx).2 }.SameCore
      (dropOfd H c idx o).2.proc := by
  simp only [dropOfd]
  split
  · exact sameCore_releaseOfd _ o
  · exact .refl _

/-- The context in which a close drops its description: the descriptor is gone already. -/
def freedFd (c : Ctx) (i : ℕ) : Ctx :=
  c.updProc fun p =>
    { p with fdTable := { p.fdTable with entries := p.fdTable.entries.clear i } }

/-- **What a close can do**: fail on a descriptor that is not open; free a descriptor that
points at no description and fail; or free the descriptor and drop its description, after
which only the owners of devices may still change. -/
theorem sysClose_cases (H : HostIO) (c : Ctx) (fd : ℤ) :
    (c.proc.fdTable.lookup fd = none ∧ sysClose H c fd = (.error .EBADF, c)) ∨
    (∃ (i : ℕ) (e : FdEntry), fd = i ∧ c.proc.fdTable.entries.get i = some e ∧
      c.proc.ofdTable.get e.ofdRef = none ∧
      sysClose H c fd = (.error .EBADF, freedFd c i)) ∨
    (∃ (i : ℕ) (e : FdEntry) (o : OpenFileDesc) (owner : VirtualDevice → ℤ), fd = i ∧
      c.proc.fdTable.entries.get i = some e ∧ c.proc.ofdTable.get e.ofdRef = some o ∧
      (sysClose H c fd).1 = (dropOfd H (dropLocks (freedFd c i) o) e.ofdRef o).1 ∧
      (sysClose H c fd).2 = (dropOfd H (dropLocks (freedFd c i) o) e.ofdRef o).2.updKernel
        fun k => { k with deviceOwner := owner }) := by
  rcases hfree : c.proc.fdTable.free fd with err | ⟨idx, t⟩
  · left
    have hlook : c.proc.fdTable.lookup fd = none := by
      rcases hl : c.proc.fdTable.lookup fd with _ | e
      · rfl
      · simp [FdTable.free, hl] at hfree
    have herr : err = .EBADF := by
      simp only [FdTable.free, hlook] at hfree
      exact (Except.error.inj hfree).symm
    refine ⟨hlook, ?_⟩
    rw [sysClose, hfree, herr]
  right
  obtain ⟨i, e, rfl, he, rfl, rfl⟩ := FdTable.free_eq_ok hfree
  rcases ho : c.proc.ofdTable.get e.ofdRef with _ | o
  · refine .inl ⟨i, e, rfl, he, ho, ?_⟩
    rw [sysClose, hfree]
    simp only [Ctx.updProc_proc, ho]
    rfl
  right
  have hclose : sysClose H c (i : ℤ) =
      match dropOfd H (dropLocks (freedFd c i) o) e.ofdRef o with
      | (.error e, c) => (.error e, c)
      | (.ok (), c) => (.ok (), releaseDevices c o) := by
    rw [sysClose, hfree]
    simp only [Ctx.updProc_proc, ho]
    rfl
  rcases hdrop : dropOfd H (dropLocks (freedFd c i) o) e.ofdRef o with ⟨err | u, c'⟩
  · refine ⟨i, e, o, c'.kernel.deviceOwner, rfl, he, ho, ?_⟩
    rw [hclose, hdrop]
    exact ⟨rfl, rfl⟩
  obtain ⟨owner, howner⟩ := releaseDevices_kernel c' o
  refine ⟨i, e, o, owner, rfl, he, ho, ?_⟩
  rw [hclose, hdrop]
  refine ⟨rfl, ?_⟩
  have hproc := releaseDevices_proc c' o
  rw [Ctx.updKernel, ← howner, ← hproc]

/-- The descriptor tables after a close of a descriptor on a live description. -/
theorem sameCore_dropOfd_dropLocks (i idx : ℕ) (o : OpenFileDesc) :
    { (freedFd c i).proc with ofdTable := (c.proc.ofdTable.decRef idx).2 }.SameCore
      (dropOfd H (dropLocks (freedFd c i) o) idx o).2.proc := by
  have hlocks := sameCore_dropLocks (freedFd c i) o
  have hdrop := sameCore_dropOfd (H := H) (dropLocks (freedFd c i) o) idx o
  refine Process.SameCore.trans ?_ hdrop
  have hofd := hlocks.ofdTable
  rw [Process.SameCore] at hlocks ⊢
  rw [hofd]
  conv_lhs => rw [hlocks]
  rfl

/-- A close frees its descriptor, whether or not it succeeds, and no other. -/
theorem lookup_sysClose (c : Ctx) (fd i : ℤ) :
    (sysClose H c fd).2.proc.fdTable.maxFds = c.proc.fdTable.maxFds ∧
      (sysClose H c fd).2.proc.fdTable.lookup i =
        if i = fd then none else c.proc.fdTable.lookup i := by
  rcases sysClose_cases H c fd with ⟨hnone, h⟩ | ⟨k, e, rfl, -, -, h⟩ |
    ⟨k, e, o, owner, rfl, -, -, -, h⟩
  · rw [h]
    refine ⟨rfl, ?_⟩
    split
    next hi => rw [hi, hnone]
    next => rfl
  · rw [h]
    exact ⟨rfl, FdTable.lookup_update (SlotTable.get_clear _ k) i⟩
  · rw [h, Ctx.updKernel_proc, (sameCore_dropOfd_dropLocks c k e.ofdRef o).fdTable]
    exact ⟨rfl, FdTable.lookup_update (SlotTable.get_clear _ k) i⟩

/-- A close touches nothing but descriptors and objects. -/
theorem sameSettings_sysClose (fd : ℤ) : c.proc.SameSettings (sysClose H c fd).2.proc := by
  rcases sysClose_cases H c fd with ⟨-, h⟩ | ⟨i, e, rfl, -, -, h⟩ |
    ⟨i, e, o, owner, rfl, -, -, -, h⟩
  · rw [h]
    exact .refl _
  · rw [h]
    rfl
  rw [h]
  have hfreed : c.proc.SameSettings
      { (freedFd c i).proc with ofdTable := (c.proc.ofdTable.decRef e.ofdRef).2 } := rfl
  exact hfreed.trans (sameCore_dropOfd_dropLocks c i e.ofdRef o).sameSettings

/-- Closing descriptors keeps the settings. -/
theorem sameSettings_closeFds (fds : List ℕ) : c.proc.SameSettings (closeFds H c fds).proc := by
  induction fds generalizing c with
  | nil => exact .refl _
  | cons fd fds ih => exact (sameSettings_sysClose c fd).trans (ih _)

end PosixKernel
