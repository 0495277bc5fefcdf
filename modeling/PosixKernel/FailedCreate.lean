import PosixKernel.System

/-!
# Calls That Fail to Create a Descriptor

A call that creates a descriptor obtains a description, and mostly an object with it,
before it asks the descriptor table for a number. When the table is full, four calls give
back what they have obtained and the others keep it.

## Main results

* `failedCreate_leavesKernel` — a creating call that fails leaves the kernel as it was
  exactly if it is one of the four, or was refused before it obtained anything.
-/

namespace PosixKernel

open SlotTable

/-- The kernel is as it was: no description, pipe, socket, terminal, buffer or other
object came or went, nobody owns another device, no pending connection is gone, and as
many host handles are open. -/
structure LeavesKernel (c c' : Ctx) : Prop where
  fds : ∀ i, c'.proc.fdTable.entries.get i = c.proc.fdTable.entries.get i
  ofds : ∀ i, c'.proc.ofdTable.get i = c.proc.ofdTable.get i
  sockets : ∀ i, c'.proc.sockets.get i = c.proc.sockets.get i
  ownPipes : ∀ i, c'.proc.pipes.get i = c.proc.pipes.get i
  procfsBufs : ∀ i, c'.proc.procfsBufs.get i = c.proc.procfsBufs.get i
  memfds : ∀ i, c'.proc.memfds.get i = c.proc.memfds.get i
  eventfds : ∀ i, c'.proc.eventfds.get i = c.proc.eventfds.get i
  epolls : ∀ i, c'.proc.epolls.get i = c.proc.epolls.get i
  timerfds : ∀ i, c'.proc.timerfds.get i = c.proc.timerfds.get i
  signalfds : ∀ i, c'.proc.signalfds.get i = c.proc.signalfds.get i
  pipes : c'.kernel.pipes = c.kernel.pipes
  ptys : c'.kernel.ptys = c.kernel.ptys
  backlogs : c'.kernel.backlogs = c.kernel.backlogs
  deviceOwner : c'.kernel.deviceOwner = c.kernel.deviceOwner
  hostHandles : ∀ h, opensOf c'.kernel.log h + closesOf c.kernel.log h =
    opensOf c.kernel.log h + closesOf c'.kernel.log h

/-- The calls that create descriptors. -/
def Call.creates : Call → Bool
  | .open .. | .socket .. | .socketpair .. | .pipe | .accept _ | .memfdCreate .. | .eventfd2 ..
  | .epollCreate1 _ | .timerfdCreate .. | .signalfd4 .. => true
  | _ => false

/-- The calls that give back what they have obtained. -/
def Call.rollsBack : Call → Bool
  | .eventfd2 .. | .epollCreate1 _ | .timerfdCreate .. | .signalfd4 .. => true
  | _ => false

/-- An open descriptor number that leads to no description. -/
def FdTable.LeadsNowhere (t : FdTable) (ofds : OfdTable) (fd : ℤ) : Prop :=
  ∀ e ∈ t.lookup fd, ofds.get e.ofdRef = none

/-- A single-owner device that another process has claimed. -/
def VirtualDevice.Busy (k : Kernel) (pid : ℕ) (dev : VirtualDevice) : Prop :=
  (dev = .Fb0 ∨ dev = .Mice ∨ dev = .Dsp) ∧ k.deviceOwner dev ≠ -1 ∧ k.deviceOwner dev ≠ pid

/-- A `/proc` entry that cannot be opened in this way. -/
def ProcfsEntry.Refused (E : ProcfsEnv) (p : Process) (oflags : UInt32) (entry : ProcfsEntry) :
    Prop :=
  hasFlag oflags (O_WRONLY ||| O_RDWR) = true ∨ entry.isSymlink = true ∨
    if entry.isDir = true then entry.entryPid ≠ 0 ∧ validatePid E p entry.entryPid = false
    else generateContent E p entry = none

/-- A path of the host that cannot be opened in this way: a directory that is to be created,
or one that the host refuses. -/
def hostPathRefused (H : HostIO) (log : List HostCall) (resolved : Bytes) (oflags mode : UInt32) :
    Prop :=
  if hasFlag oflags O_CREAT = true then
    isDirReply (H.hostStat log resolved) = true ∨
      (H.hostOpen (.stat resolved :: log) resolved oflags mode).isOk = false
  else (H.hostOpen log resolved oflags mode).isOk = false

/-- What is asked of an open cannot be had, by the kind of its path. -/
def OpenRefused (H : HostIO) (E : ProcfsEnv) (c : Ctx) (path : Bytes) (oflags mode : UInt32) :
    Prop :=
  let resolved := resolvePath path c.proc.cwd
  match matchDevFd resolved with
  | some fd => c.proc.fdTable.LeadsNowhere c.proc.ofdTable fd
  | none =>
    match matchVirtualDevice resolved with
    | some dev => dev.Busy c.kernel c.proc.pid
    | none =>
      if resolved = ascii "/dev/ptmx" then MAX_PTYS ≤ c.kernel.ptys.nextIdx
      else
        match afterPrefix (ascii "/dev/pts/") resolved with
        | some num => ∀ idx ∈ parseAsciiUsize num, ∀ pty ∈ c.kernel.ptys.getPty idx,
            pty.locked = true
        | none =>
          if resolved = ascii "/dev/tty" then
            firstPtySlave c.proc = none ∧ c.proc.fdTable.LeadsNowhere c.proc.ofdTable 0
          else
            match matchProcfs resolved c.proc.pid with
            | some entry => entry.Refused E c.proc oflags
            | none =>
              matchDevfsDir resolved = false ∧
                hostPathRefused H c.kernel.log resolved oflags
                  (if hasFlag oflags O_CREAT then mode &&& ~~~ c.proc.umask else mode)

/-- What is asked for cannot be had, however many descriptors are free: a path that leads
to no description, a family or type of sockets that does not exist, flags that do not
exist, or a listener without a pending connection. -/
def Call.Refused (H : HostIO) (E : ProcfsEnv) (c : Ctx) : Call → Prop
  | .open path oflags mode => OpenRefused H E c path oflags mode
  | .socket domain sockType _ => socketDomain domain = none ∨ socketType sockType = none
  | .socketpair domain sockType => domain ≠ AF_UNIX ∨ socketType sockType ≠ some .Stream
  | .accept fd =>
    match socketOf c.proc fd with
    | .error _ => True
    | .ok (_, sock) =>
      sock.state ≠ .Listening ∨ popShared c sock = none ∧ sock.listenBacklog = []
  | .memfdCreate _ flags => hasFlag flags (~~~ 3) = true
  | _ => False

/-! ### What an open obtains -/

/-- An open that has obtained no description. -/
def ObtainedNothing (r : Except Errno (ℕ × UInt32) × Ctx) : Prop :=
  ∀ x, r.1 = .ok x → r.2.proc.ofdTable.get x.1 = none

/-- An error obtains nothing. -/
theorem obtainedNothing_error (e : Errno) (c : Ctx) : ObtainedNothing (.error e, c) :=
  fun _ h => absurd h (by simp)

/-- A new description is obtained even when its descriptor is not. -/
theorem not_obtainedNothing_newOfd (c : Ctx) (o : OpenFileDesc) (fdFlags : UInt32) :
    ¬ ObtainedNothing (newOfd c o fdFlags) := by
  intro h
  have hnone : (c.proc.ofdTable.alloc o).2.get (c.proc.ofdTable.alloc o).1 = none :=
    h ((c.proc.ofdTable.alloc o).1, fdFlags) rfl
  have hnew : (c.proc.ofdTable.alloc o).2.get (c.proc.ofdTable.alloc o).1 = some o := by
    rw [get_alloc]
    exact if_pos rfl
  cases hnew.symm.trans hnone

/-- A shared description is obtained unless there is none. -/
theorem obtainedNothing_shareOfd (c : Ctx) (ofdRef : ℕ) (fdFlags : UInt32) :
    ObtainedNothing (shareOfd c ofdRef fdFlags) ↔ c.proc.ofdTable.get ofdRef = none := by
  have hget : ∀ x : ℕ × UInt32, (shareOfd c ofdRef fdFlags).1 = .ok x ↔ x = (ofdRef, fdFlags) :=
    fun x => by simp [shareOfd, Except.ok.injEq, eq_comm]
  simp only [ObtainedNothing, hget, forall_eq]
  show (c.proc.ofdTable.incRef ofdRef).get ofdRef = none ↔ _
  rw [OfdTable.get_incRef, if_pos rfl, Option.map_eq_none_iff]

/-- An own descriptor gives a description unless it leads nowhere. -/
theorem obtainedNothing_openDevFd (c : Ctx) (fd : ℤ) (oflags : UInt32) :
    ObtainedNothing (openDevFd c fd oflags) ↔ c.proc.fdTable.LeadsNowhere c.proc.ofdTable fd := by
  rw [openDevFd, FdTable.get, FdTable.LeadsNowhere]
  rcases c.proc.fdTable.lookup fd with _ | e
  · exact iff_of_true (obtainedNothing_error _ c) (by simp)
  · simp [obtainedNothing_shareOfd]

/-- A device does unless it is busy. -/
theorem obtainedNothing_openDevice (c : Ctx) (dev : VirtualDevice) (resolved : Bytes)
    (oflags : UInt32) :
    ObtainedNothing (openDevice c dev resolved oflags) ↔ dev.Busy c.kernel c.proc.pid := by
  have hacquire : (∃ e, acquireDevice dev c.proc.pid c.kernel = .error e) ↔
      dev.Busy c.kernel c.proc.pid := by
    cases dev with
    | Fb0 | Mice | Dsp =>
      simp only [acquireDevice, acquireFb0OrBusy, acquireMiceOrBusy, acquireDspOrBusy,
        acquireOrBusy, VirtualDevice.Busy]
      split
      next h => simpa using h
      next h => simpa using h
    | Null | Zero | Urandom | Full => simp [acquireDevice, VirtualDevice.Busy]
  rw [← hacquire, openDevice]
  rcases acquireDevice dev c.proc.pid c.kernel with e | k
  · exact iff_of_true (obtainedNothing_error e c) ⟨e, rfl⟩
  · exact iff_of_false (not_obtainedNothing_newOfd _ _ _) (by simp)

/-- A terminal pair does unless all are in use. -/
theorem obtainedNothing_openPtmx (c : Ctx) (resolved : Bytes) (oflags : UInt32) :
    ObtainedNothing (openPtmx c resolved oflags) ↔ MAX_PTYS ≤ c.kernel.ptys.nextIdx := by
  rw [openPtmx, PtyTable.allocPty]
  split
  next h =>
    split at h
    · cases h
    next hfull => exact iff_of_true (obtainedNothing_error _ c) (not_lt.mp hfull)
  next h =>
    split at h
    next hroom => exact iff_of_false (not_obtainedNothing_newOfd _ _ _) (not_le.mpr hroom)
    · cases h

/-- A slave does unless it is locked or not there. -/
theorem obtainedNothing_openPts (c : Ctx) (num resolved : Bytes) (oflags : UInt32) :
    ObtainedNothing (openPts c num resolved oflags) ↔
      ∀ idx ∈ parseAsciiUsize num, ∀ pty ∈ c.kernel.ptys.getPty idx, pty.locked = true := by
  rw [openPts]
  rcases parseAsciiUsize num with _ | idx
  · exact iff_of_true (obtainedNothing_error _ c) (by simp)
  simp only [Option.mem_some_iff, forall_eq']
  rcases c.kernel.ptys.getPty idx with _ | pty
  · exact iff_of_true (obtainedNothing_error _ c) (by simp)
  simp only [Option.mem_some_iff, forall_eq']
  split
  next hlocked => exact iff_of_true (obtainedNothing_error _ c) hlocked
  next hopen => exact iff_of_false (not_obtainedNothing_newOfd _ _ _) hopen

/-- The first slave found is open. -/
theorem get_of_firstPtySlave {p : Process} {ofdRef : ℕ} (h : firstPtySlave p = some ofdRef) :
    ∃ o, p.ofdTable.get ofdRef = some o := by
  rw [firstPtySlave] at h
  obtain ⟨i, -, hi⟩ := List.exists_of_findSome?_eq_some h
  split at hi
  · cases hi
  split at hi
  · cases hi
  next o ho =>
    split at hi
    · exact ⟨o, Option.some.inj hi ▸ ho⟩
    · cases hi

/-- The terminal does if a slave or the standard input leads to it. -/
theorem obtainedNothing_openTty (c : Ctx) (oflags : UInt32) : ObtainedNothing (openTty c oflags) ↔
      firstPtySlave c.proc = none ∧ c.proc.fdTable.LeadsNowhere c.proc.ofdTable 0 := by
  unfold openTty
  split
  next ofdRef hslave =>
    obtain ⟨o, ho⟩ := get_of_firstPtySlave hslave
    refine iff_of_false (fun h => ?_) fun h => ?_
    · rw [obtainedNothing_shareOfd, ho] at h
      cases h
    · cases hslave.symm.trans h.1
  next hslave =>
    rw [and_iff_right hslave, FdTable.LeadsNowhere]
    split
    next e he => simp [obtainedNothing_shareOfd, he]
    next he => exact iff_of_true (obtainedNothing_error _ c) (by simp [he])

/-- A file of procfs does unless it refuses. -/
theorem obtainedNothing_procfsOpen (E : ProcfsEnv) (c : Ctx) (entry : ProcfsEntry)
    (resolved : Bytes) (oflags : UInt32) :
    ObtainedNothing (procfsOpen E c entry resolved oflags) ↔ entry.Refused E c.proc oflags := by
  rw [procfsOpen, ProcfsEntry.Refused]
  by_cases hwrite : hasFlag oflags (O_WRONLY ||| O_RDWR) = true
  · rw [if_pos hwrite]
    exact iff_of_true (obtainedNothing_error _ c) (.inl hwrite)
  rw [if_neg hwrite]
  by_cases hlink : entry.isSymlink = true
  · rw [if_pos hlink]
    exact iff_of_true (obtainedNothing_error _ c) (.inr (.inl hlink))
  rw [if_neg hlink]
  simp only [hwrite, hlink, false_or, Bool.false_eq_true]
  by_cases hdir : entry.isDir = true
  · rw [if_pos hdir, if_pos hdir]
    by_cases hpid : (entry.entryPid ≠ 0 && !validatePid E c.proc entry.entryPid) = true
    · rw [if_pos hpid]
      exact iff_of_true (obtainedNothing_error _ c) (by simpa using hpid)
    · rw [if_neg hpid]
      exact iff_of_false (not_obtainedNothing_newOfd _ _ _) (by simpa using hpid)
  rw [if_neg hdir, if_neg hdir]
  rcases generateContent E c.proc entry with _ | content
  · exact iff_of_true (obtainedNothing_error _ c) rfl
  · exact iff_of_false (not_obtainedNothing_newOfd _ _ _) (by simp)

/-- A path does unless the host refuses. -/
theorem obtainedNothing_openHostPath (H : HostIO) (c : Ctx) (resolved : Bytes)
    (oflags mode : UInt32) : ObtainedNothing (openHostPath H c resolved oflags mode) ↔
      hostPathRefused H c.kernel.log resolved oflags mode := by
  rw [openHostPath, hostPathRefused]
  by_cases hcreat : hasFlag oflags O_CREAT = true
  · simp only [hcreat, if_true, hostStat]
    by_cases hdir : isDirReply (H.hostStat c.kernel.log resolved) = true
    · simp only [hdir, if_true]
      exact iff_of_true (obtainedNothing_error _ _) (.inl trivial)
    simp only [hdir, false_or, if_false, Bool.false_eq_true, Ctx.logCall_kernel, Kernel.logCall]
    split
    next hreply => exact iff_of_true (obtainedNothing_error _ _) (by rw [hreply]; rfl)
    next hreply => exact iff_of_false (not_obtainedNothing_newOfd _ _ _) (by rw [hreply]; rintro ⟨⟩)
  simp only [hcreat, if_false, isDirReply, Bool.false_eq_true]
  split
  next hreply => exact iff_of_true (obtainedNothing_error _ _) (by rw [hreply]; rfl)
  next hreply => exact iff_of_false (not_obtainedNothing_newOfd _ _ _) (by rw [hreply]; rintro ⟨⟩)

/-- **When an open obtains no description**, in terms of the path and the state. -/
theorem obtainedNothing_openTarget (H : HostIO) (E : ProcfsEnv) (c : Ctx) (path : Bytes)
    (oflags mode : UInt32) :
    ObtainedNothing (openTarget H E c path oflags mode) ↔ OpenRefused H E c path oflags mode := by
  simp only [openTarget, OpenRefused]
  rcases matchDevFd (resolvePath path c.proc.cwd) with _ | fd
  swap
  · exact obtainedNothing_openDevFd c fd oflags
  rcases matchVirtualDevice (resolvePath path c.proc.cwd) with _ | dev
  swap
  · exact obtainedNothing_openDevice c dev _ oflags
  simp only
  split
  · exact obtainedNothing_openPtmx c _ oflags
  rcases afterPrefix (ascii "/dev/pts/") (resolvePath path c.proc.cwd) with _ | num
  swap
  · exact obtainedNothing_openPts c num _ oflags
  simp only
  split
  · exact obtainedNothing_openTty c oflags
  rcases matchProcfs (resolvePath path c.proc.cwd) c.proc.pid with _ | entry
  swap
  · exact obtainedNothing_procfsOpen E c entry _ oflags
  simp only
  split
  next hdir => exact iff_of_false (not_obtainedNothing_newOfd _ _ _) (by simp [hdir])
  next hdir =>
    rw [obtainedNothing_openHostPath]
    simp [hdir]

/-! ### Frames -/

/-- Doing nothing leaves the kernel. -/
theorem LeavesKernel.refl (c : Ctx) : LeavesKernel c c := by
  constructor <;> intros <;> rfl

/-- Host calls that open and close nothing. -/
theorem leavesKernel_quiet (c : Ctx) {calls : List HostCall}
    (h : ∀ call ∈ calls, call.isQuiet = true) :
    LeavesKernel c (c.updKernel fun k => k.quiet calls) := by
  refine ⟨fun _ => rfl, fun _ => rfl, fun _ => rfl, fun _ => rfl, fun _ => rfl, fun _ => rfl,
    fun _ => rfl, fun _ => rfl, fun _ => rfl, fun _ => rfl, rfl, rfl, rfl, rfl, fun handle => ?_⟩
  obtain ⟨hopens, hcloses⟩ := opensOf_quiet h c.kernel.log handle
  simp [Ctx.updKernel_kernel, Kernel.quiet, hopens, hcloses]

/-- A new description without a descriptor is not how it was. -/
theorem not_leavesKernel_of_newDescriptor {c c₀ c' : Ctx} {o : OpenFileDesc} {fdFlags : UInt32}
    {e : Errno} (h : newDescriptor c₀ o fdFlags = (.error e, c'))
    (hsame : c₀.proc.ofdTable = c.proc.ofdTable) : ¬ LeavesKernel c c' := by
  intro hleaves
  have hc := allocFd_eq_error h
  have hget := hleaves.ofds c.proc.ofdTable.nextIdx
  rw [hc] at hget
  have hnew : (c₀.proc.ofdTable.alloc o).2.get c.proc.ofdTable.nextIdx = some o := by
    rw [hsame, get_alloc, if_pos rfl]
  rw [get_nextIdx] at hget
  cases hnew.symm.trans hget

/-- **Giving back**: a new description is dropped and the object undone. -/
theorem newDescriptorOrUndo_eq_error {undo : Process → Process} {c c' : Ctx} {o : OpenFileDesc}
    {fdFlags : UInt32} {e : Errno}
    (h : newDescriptorOrUndo undo c o fdFlags = (.error e, c')) :
    c' = c.updProc fun p => undo { p with
      ofdTable := (OfdTable.decRef (p.ofdTable.alloc o).2 (p.ofdTable.alloc o).1).2 } := by
  rw [newDescriptorOrUndo] at h
  rcases halloc : allocFd (c.updProc fun p => { p with ofdTable := (c.proc.ofdTable.alloc o).2 })
    (c.proc.ofdTable.alloc o).1 fdFlags with ⟨e' | fd, c₁⟩
  · rw [halloc] at h
    rw [← (Prod.mk.inj h).2, allocFd_eq_error halloc]
    rfl
  · rw [halloc] at h
    cases congrArg Prod.fst h

/-! ### The calls that give back -/

variable {H : HostIO} {E : ProcfsEnv} {c c' : Ctx} {e : Errno}

/-- An error of a call is the error of what it ran. -/
theorem eq_of_answer_eq_error {α : Type} {f : α → Reply} {r : Except Errno α × Ctx}
    (h : answer f r = some (.error e, c')) : r = (.error e, c') := by
  rcases r with ⟨e' | x, c₁⟩
  · obtain ⟨he, rfl⟩ := Prod.mk.inj (Option.some.inj h)
    rw [Except.error.inj he]
  · obtain ⟨he, -⟩ := Prod.mk.inj (Option.some.inj h)
    cases he

/-- A refused change of a signal descriptor leaves the kernel. -/
theorem leavesKernel_updateSignalfd {fd : ℤ} {mask : UInt64}
    (h : updateSignalfd c fd mask = (.error e, c')) : LeavesKernel c c' := by
  rw [updateSignalfd] at h
  repeat' split at h
  all_goals cases h
  all_goals exact .refl c

/-- So does every failed call that rolls back. -/
theorem leavesKernel_of_rollsBack {call : Call} (hcall : call.rollsBack = true)
    (h : call.run H E c = some (.error e, c')) : LeavesKernel c c' := by
  cases call with
  | eventfd2 | epollCreate1 | timerfdCreate | signalfd4 =>
    have h := eq_of_answer_eq_error h
    simp only [sysEventfd2, sysEpollCreate1, sysTimerfdCreate, sysSignalfd4] at h
    split at h
    · cases h
      exact .refl c
    try
      split at h
      · exact leavesKernel_updateSignalfd h
    rw [newDescriptorOrUndo_eq_error h]
    constructor <;> intros <;>
      first | rfl | exact OfdTable.get_decRef_alloc _ rfl _ | exact get_clear_alloc _ _ _
  | _ => cases hcall

/-! ### The calls that keep what they have obtained -/

/-- A failing open leaves the kernel alone exactly if it obtained no description. -/
theorem leavesKernel_sysOpen {path : Bytes} {oflags mode : UInt32}
    (h : sysOpen H E c path oflags mode = (.error e, c')) :
    LeavesKernel c c' ↔ (Call.open path oflags mode).Refused H E c := by
  have heff := openTarget_effect (H := H) E c path oflags mode
  rw [sysOpen] at h
  rw [Call.Refused, ← obtainedNothing_openTarget]
  generalize openTarget H E c path oflags mode = r at heff h ⊢
  rcases r with ⟨e' | ⟨ofdRef, fdFlags⟩, c₁⟩
  · cases h
    cases heff with
    | refused _ calls hquiet =>
      exact iff_of_true (leavesKernel_quiet c hquiet) (obtainedNothing_error _ _)
  obtain rfl := allocFd_eq_error h
  cases heff with
  | shared fd entry fdFlags =>
    -- an alias only counts one more reference to the description of its descriptor
    refine Iff.trans ?_ (obtainedNothing_shareOfd c entry.ofdRef fdFlags).symm
    constructor
    · intro hleaves
      have hget := hleaves.ofds entry.ofdRef
      simp only [OfdTable.get_incRef, if_pos] at hget
      rcases ho : c.proc.ofdTable.get entry.ofdRef with _ | o
      · rfl
      rw [ho, Option.map_some] at hget
      have := congrArg OpenFileDesc.refCount (Option.some.inj hget)
      exact absurd this (Nat.succ_ne_self _)
    intro hdead
    constructor <;> intros <;> try rfl
    simp only [OfdTable.get_incRef]
    split
    next hi => rw [hi, hdead, Option.map_none]
    · rfl
  | created o fdFlags c₂ hacq =>
    have hsame : c₂.proc.ofdTable = c.proc.ofdTable := by cases hacq <;> rfl
    have hnew : (c₂.proc.ofdTable.alloc o).2.get (c.proc.ofdTable.alloc o).1 = some o := by
      rw [hsame, get_alloc]
      exact if_pos rfl
    refine iff_of_false (fun hleaves => ?_) fun hnone => ?_
    · have hget := hleaves.ofds c.proc.ofdTable.nextIdx
      rw [get_nextIdx] at hget
      cases hnew.symm.trans hget
    · cases hnew.symm.trans (hnone _ rfl)

/-- A socket that fails leaves the kernel only when it was refused. -/
theorem leavesKernel_sysSocket {domain sockType protocol : UInt32}
    (h : sysSocket c domain sockType protocol = (.error e, c')) :
    LeavesKernel c c' ↔ (Call.socket domain sockType protocol).Refused H E c := by
  rw [sysSocket] at h
  rw [Call.Refused]
  rcases hd : socketDomain domain with _ | dom
  · rw [hd] at h
    cases h
    exact iff_of_true (.refl c) (.inl rfl)
  rcases ht : socketType sockType with _ | stype
  · simp only [hd, ht] at h
    cases h
    exact iff_of_true (.refl c) (.inr rfl)
  · simp only [hd, ht] at h
    exact iff_of_false (not_leavesKernel_of_newDescriptor h rfl) (by simp)

/-- So does a file in memory. -/
theorem leavesKernel_sysMemfdCreate {name : Bytes} {flags : UInt32}
    (h : sysMemfdCreate c name flags = (.error e, c')) :
    LeavesKernel c c' ↔ (Call.memfdCreate name flags).Refused H E c := by
  rw [sysMemfdCreate] at h
  split at h
  next hflags =>
    cases h
    exact iff_of_true (.refl c) hflags
  next hflags => exact iff_of_false (not_leavesKernel_of_newDescriptor h rfl) hflags

/-- So does an accept. -/
theorem leavesKernel_sysAccept {fd : ℤ} (h : sysAccept c fd = (.error e, c')) :
    LeavesKernel c c' ↔ (Call.accept fd).Refused H E c := by
  rw [sysAccept] at h
  rw [Call.Refused]
  rcases hsock : socketOf c.proc fd with e' | ⟨idx, sock⟩
  · rw [hsock] at h
    cases h
    exact iff_of_true (.refl c) trivial
  simp only [hsock] at h ⊢
  split at h
  next hstate =>
    cases h
    exact iff_of_true (.refl c) (.inl hstate)
  next hstate =>
    rcases hpop : popShared c sock with _ | ⟨pc, backlogs⟩
    · simp only [hpop, acceptLocal] at h
      rcases hq : sock.listenBacklog with _ | ⟨accepted, rest⟩
      · rw [hq] at h
        cases h
        exact iff_of_true (.refl c) (.inr ⟨rfl, rfl⟩)
      · rw [hq] at h
        exact iff_of_false (not_leavesKernel_of_newDescriptor h rfl) (by simpa using hstate)
    · simp only [hpop] at h
      exact iff_of_false (not_leavesKernel_of_newDescriptor h rfl) (by simpa using hstate)

/-- The number of slots of the pipe table that are in use. -/
def PipeTable.inUse (t : PipeTable) : ℤ := t.pipes.slots.length - t.freeList.length

/-- A new pipe is one more in use. -/
theorem PipeTable.inUse_lt_alloc (t : PipeTable) (p : PipeBuffer) :
    t.inUse < (t.alloc p).2.inUse := by
  rw [alloc]
  rcases hl : t.freeList with _ | ⟨i, rest⟩
  · have hlen := length_place t t.pipes.slots.length p
    have hfree : (t.place t.pipes.slots.length p).freeList = t.freeList := rfl
    simp only [inUse, hlen, hfree]
    omega
  have hlen := length_place { t with freeList := rest } i p
  have hfree : ({ t with freeList := rest }.place i p).freeList = rest := rfl
  simp only [inUse, hlen, hfree, hl, List.length_cons]
  omega

/-- Placing a pipe shows, wherever it is placed. -/
theorem not_leavesKernel_of_allocPipe (pipe : PipeBuffer)
    (hglobal : c'.kernel.pipes = (allocPipe c pipe).2.kernel.pipes)
    (hown : c'.proc.pipes = (allocPipe c pipe).2.proc.pipes) : ¬ LeavesKernel c c' := by
  intro hleaves
  rw [allocPipe] at hglobal hown
  split at hglobal
  · have huse := PipeTable.inUse_lt_alloc c.kernel.pipes pipe
    have hsame : (c.kernel.pipes.alloc pipe).2 = c.kernel.pipes := hglobal.symm.trans hleaves.pipes
    rw [hsame] at huse
    exact lt_irrefl _ huse
  next hmode =>
    rw [if_neg hmode] at hown
    have hnew : (c.proc.pipes.alloc pipe).2.get c.proc.pipes.nextIdx = some pipe := by
      rw [get_alloc, if_pos rfl]
    have hget := hleaves.ownPipes c.proc.pipes.nextIdx
    rw [hown, get_nextIdx] at hget
    cases hnew.symm.trans hget

/-- A pipe that fails has always left its buffer. -/
theorem not_leavesKernel_sysPipe (h : sysPipe c = (.error e, c')) : ¬ LeavesKernel c c' := by
  rw [sysPipe.eq_def] at h
  split at h
  · cases congrArg Prod.fst h
  -- the pipe stays, whichever of the two descriptors could not be had
  refine not_leavesKernel_of_allocPipe (.new DEFAULT_PIPE_CAPACITY) ?_ ?_
  all_goals
    generalize allocPipe c (.new DEFAULT_PIPE_CAPACITY) = placed at h ⊢
    simp only at h
    split at h
    next hread =>
      rw [← (Prod.mk.inj h).2, allocFd_eq_error hread]
      rfl
    next fd c₁ hread =>
      obtain ⟨i, -, -, rfl⟩ := allocFd_eq_ok hread
      split at h
      next hwrite =>
        rw [← (Prod.mk.inj h).2, allocFd_eq_error hwrite]
        rfl
      · cases congrArg Prod.fst h

/-- A pair leaves the kernel only when it was refused. -/
theorem leavesKernel_sysSocketpair {domain sockType : UInt32}
    (h : sysSocketpair c domain sockType = (.error e, c')) :
    LeavesKernel c c' ↔ (Call.socketpair domain sockType).Refused H E c := by
  have hcases := sysSocketpair_cases c domain sockType
  rw [h] at hcases
  rcases hcases with ⟨hrefused, rfl⟩ | ⟨hmade, flags, t, rfl⟩
  · exact iff_of_true (.refl _) hrefused
  refine iff_of_false (fun hleaves => ?_) hmade
  have huse := (PipeTable.inUse_lt_alloc c.kernel.pipes (.new DEFAULT_PIPE_CAPACITY)).trans
    (PipeTable.inUse_lt_alloc _ (.new DEFAULT_PIPE_CAPACITY))
  rw [show ((c.kernel.pipes.alloc (.new DEFAULT_PIPE_CAPACITY)).2.alloc
    (.new DEFAULT_PIPE_CAPACITY)).2 = c.kernel.pipes from hleaves.pipes] at huse
  exact lt_irrefl _ huse

/-- **Calls that fail to create a descriptor.** A creating call that fails leaves the kernel
as it was exactly if it is one of the four calls that give back what they have obtained, or
was refused before it obtained anything. -/
theorem failedCreate_leavesKernel (H : HostIO) (E : ProcfsEnv) (c c' : Ctx) (call : Call)
    (e : Errno) (hcall : call.creates = true) (h : call.run H E c = some (.error e, c')) :
    LeavesKernel c c' ↔ call.rollsBack = true ∨ call.Refused H E c := by
  cases call with
  | «open» path oflags mode =>
    simpa [Call.rollsBack] using leavesKernel_sysOpen (eq_of_answer_eq_error h)
  | socket => simpa [Call.rollsBack] using leavesKernel_sysSocket (eq_of_answer_eq_error h)
  | socketpair => simpa [Call.rollsBack] using leavesKernel_sysSocketpair (eq_of_answer_eq_error h)
  | pipe =>
    simpa [Call.rollsBack, Call.Refused] using not_leavesKernel_sysPipe (eq_of_answer_eq_error h)
  | accept => simpa [Call.rollsBack] using leavesKernel_sysAccept (eq_of_answer_eq_error h)
  | memfdCreate =>
    simpa [Call.rollsBack] using leavesKernel_sysMemfdCreate (eq_of_answer_eq_error h)
  | eventfd2 | epollCreate1 | timerfdCreate | signalfd4 =>
    exact iff_of_true (leavesKernel_of_rollsBack rfl h) (.inl rfl)
  | _ => cases hcall

/-- A process with its three standard descriptors and room for no more. -/
def fullCtx : Ctx :=
  ⟨.boot, { Process.new 1 with fdTable := { stdioFds with maxFds := 3 } }⟩

/-- An event counter that finds no number. -/
theorem failedCreate_leavesKernel_eventfd :
    ∃ c', (Call.eventfd2 0 0).run .barren .bare fullCtx = some (.error .EMFILE, c') ∧
      LeavesKernel fullCtx c' :=
  ⟨_, rfl, (failedCreate_leavesKernel .barren .bare fullCtx _ (.eventfd2 0 0) .EMFILE rfl rfl).mpr
    (.inl rfl)⟩

/-- A pipe that finds no descriptors stays in the table; a file that finds none stays open
on the host, with a description that nothing points at. -/
theorem failedCreate_leaks :
    (∃ c', Call.pipe.run .barren .bare fullCtx = some (.error .EMFILE, c') ∧
      fullCtx.kernel.pipes.get 0 = none ∧ (c'.kernel.pipes.get 0).isSome = true ∧
      ¬ LeavesKernel fullCtx c') ∧
    ∃ c', (Call.open (ascii "/f") O_RDONLY 0).run .oneFile .bare fullCtx =
        some (.error .EMFILE, c') ∧
      (fullCtx.proc.ofdTable.get 3 = none ∧ (c'.proc.ofdTable.get 3).isSome = true) ∧
      (opensOf c'.kernel.log 100 = 1 ∧ closesOf c'.kernel.log 100 = 0) ∧
      ¬ LeavesKernel fullCtx c' := by
  refine ⟨⟨_, rfl, rfl, rfl, not_leavesKernel_sysPipe rfl⟩, ?_⟩
  obtain ⟨c', hrun, hofd, hopens, hcloses⟩ :
      ∃ c', (Call.open (ascii "/f") O_RDONLY 0).run .oneFile .bare fullCtx =
          some (.error .EMFILE, c') ∧ (c'.proc.ofdTable.get 3).isSome = true ∧
        opensOf c'.kernel.log 100 = 1 ∧ closesOf c'.kernel.log 100 = 0 :=
    ⟨_, rfl, by decide +kernel, by decide +kernel, by decide +kernel⟩
  refine ⟨c', hrun, ⟨rfl, hofd⟩, ⟨hopens, hcloses⟩, fun hleaves => ?_⟩
  have hget := hleaves.ofds 3
  rw [show fullCtx.proc.ofdTable.get 3 = none from rfl] at hget
  rw [hget] at hofd
  cases hofd

end PosixKernel
