import PosixKernel.Close

/-!
# Opening Descriptors

`sys_open` over every kind of path, and the calls that duplicate a descriptor. Each
branch of an open first obtains a description, new or shared, and whatever object comes
with it; the descriptor is allocated last.

## Main results

* `openTarget_effect` — everything an open can have done before the descriptor is
  allocated.
-/

namespace PosixKernel

/-! ### The `/proc` and `/dev` trees -/

/-- A piece of the listing of a directory that the kernel makes up itself: the bytes, the
position reached, and whether that was the end. -/
structure DirPart where
  bytes : Bytes
  newOffset : ℤ
  exhausted : Bool

/-- What the `/proc` and `/dev` trees show of the process table: the pids, the text of a
process's own entries and of another process's entries, and the listings of directories,
given the path, the size of the buffer and the position. -/
structure ProcfsEnv where
  allPids : List ℕ
  render : Process → ProcfsEntry → Option Bytes
  foreign : ℕ → ProcfsEntry → Option Bytes
  devfsGetdents64 : Process → Bytes → ℕ → ℤ → Except Errno DirPart
  procfsGetdents64 : Process → Bytes → ℕ → ℤ → Except Errno DirPart
  foreignGetdents64 : ℕ → Bytes → ℕ → ℤ → Option DirPart

/-- Trees that show nothing. -/
def ProcfsEnv.bare : ProcfsEnv where
  allPids := []
  render _ _ := none
  foreign _ _ := none
  devfsGetdents64 _ _ _ _ := .error .ENOENT
  procfsGetdents64 _ _ _ _ := .error .ENOENT
  foreignGetdents64 _ _ _ _ := none

/-- A process can look at itself and at every process of the table. -/
def validatePid (E : ProcfsEnv) (p : Process) (pid : ℕ) : Bool :=
  pid = p.pid || E.allPids.contains pid

/-- The content of a regular `/proc` file at the moment it is opened. -/
def generateContent (E : ProcfsEnv) (p : Process) (entry : ProcfsEntry) : Option Bytes :=
  match entry with
  | .Stat pid | .Status pid | .Cmdline pid | .Environ pid | .Maps pid | .FdInfo pid _ =>
    if validatePid E p pid then
      if pid = p.pid then E.render p entry else E.foreign pid entry
    else none
  | .NetTcp => some (ascii ("  sl  local_address rem_address   st tx_queue rx_queue tr " ++
      "tm->when retrnsmt   uid  timeout inode\n"))
  | .NetUnix => some (ascii "Num       RefCount Protocol Flags    Type St Inode Path\n")
  | _ => none

/-! ### Where an open leads -/

/-- Create a description for an open and say which flags its descriptor gets. -/
def newOfd (c : Ctx) (o : OpenFileDesc) (fdFlags : UInt32) : Except Errno (ℕ × UInt32) × Ctx :=
  (.ok ((c.proc.ofdTable.alloc o).1, fdFlags),
    c.updProc fun p => { p with ofdTable := (p.ofdTable.alloc o).2 })

/-- Share the description of an open descriptor. -/
def shareOfd (c : Ctx) (ofdRef : ℕ) (fdFlags : UInt32) : Except Errno (ℕ × UInt32) × Ctx :=
  (.ok (ofdRef, fdFlags), c.updProc fun p => { p with ofdTable := p.ofdTable.incRef ofdRef })

/-- The alias of an open descriptor. -/
def openDevFd (c : Ctx) (targetFd : ℤ) (oflags : UInt32) : Except Errno (ℕ × UInt32) × Ctx :=
  match c.proc.fdTable.get targetFd with
  | .error e => (.error e, c)
  | .ok entry => shareOfd c entry.ofdRef (oflagsToFdFlags oflags)

/-- Claim a device for a process; only its owner may open it again. -/
def acquireOrBusy (dev : VirtualDevice) (pid : ℕ) (k : Kernel) : Except Errno Kernel :=
  if k.deviceOwner dev ≠ -1 ∧ k.deviceOwner dev ≠ pid then .error .EBUSY
  else .ok (if k.deviceOwner dev = -1 then
    { k with deviceOwner := Function.update k.deviceOwner dev pid } else k)

def acquireFb0OrBusy : ℕ → Kernel → Except Errno Kernel := acquireOrBusy .Fb0
def acquireMiceOrBusy : ℕ → Kernel → Except Errno Kernel := acquireOrBusy .Mice
def acquireDspOrBusy : ℕ → Kernel → Except Errno Kernel := acquireOrBusy .Dsp

/-- Claim the device if it is one of the single-owner devices. -/
def acquireDevice (dev : VirtualDevice) (pid : ℕ) (k : Kernel) : Except Errno Kernel :=
  match dev with
  | .Fb0 => acquireFb0OrBusy pid k
  | .Mice => acquireMiceOrBusy pid k
  | .Dsp => acquireDspOrBusy pid k
  | _ => .ok k

/-- A virtual device. -/
def openDevice (c : Ctx) (dev : VirtualDevice) (resolved : Bytes) (oflags : UInt32) :
    Except Errno (ℕ × UInt32) × Ctx :=
  match acquireDevice dev c.proc.pid c.kernel with
  | .error e => (.error e, c)
  | .ok k =>
    newOfd { c with kernel := k }
      (.fresh .CharDevice (oflags &&& ~~~ CREATION_FLAGS) dev.hostHandle resolved)
      (oflagsToFdFlags oflags)

/-- The master side of a new pseudo-terminal. -/
def openPtmx (c : Ctx) (resolved : Bytes) (oflags : UInt32) :
    Except Errno (ℕ × UInt32) × Ctx :=
  match c.kernel.ptys.allocPty with
  | none => (.error .ENOSPC, c)
  | some (idx, ptys) =>
    newOfd (c.updKernel fun k => { k with ptys := ptys.addSide idx .master })
      (.fresh .PtyMaster (oflags &&& ~~~ CREATION_FLAGS) idx resolved)
      (oflagsToFdFlags oflags)

/-- The slave side of an unlocked pseudo-terminal. -/
def openPts (c : Ctx) (num resolved : Bytes) (oflags : UInt32) :
    Except Errno (ℕ × UInt32) × Ctx :=
  match parseAsciiUsize num with
  | none => (.error .ENOENT, c)
  | some idx =>
    match c.kernel.ptys.getPty idx with
    | none => (.error .ENOENT, c)
    | some pty =>
      if pty.locked then (.error Errno.EIO, c)
      else
        newOfd (c.updKernel fun k => { k with ptys := k.ptys.addSide idx .slave })
          (.fresh .PtySlave (oflags &&& ~~~ CREATION_FLAGS) idx resolved)
          (oflagsToFdFlags oflags)

/-- The description of the first descriptor that is open on a terminal slave. -/
def firstPtySlave (p : Process) : Option ℕ :=
  (List.range 1024).findSome? fun i =>
    match p.fdTable.entries.get i with
    | none => none
    | some e =>
      match p.ofdTable.get e.ofdRef with
      | none => none
      | some o => if o.fileType = .PtySlave then some e.ofdRef else none

/-- The controlling terminal: a terminal slave if one is open, otherwise descriptor 0. -/
def openTty (c : Ctx) (oflags : UInt32) : Except Errno (ℕ × UInt32) × Ctx :=
  match firstPtySlave c.proc with
  | some ofdRef => shareOfd c ofdRef (oflagsToFdFlags oflags)
  | none =>
    match c.proc.fdTable.lookup 0 with
    | some entry => shareOfd c entry.ofdRef (oflagsToFdFlags oflags)
    | none => (.error Errno.ENXIO, c)

/-- A `/proc` entry: the tree is read-only and links are not followed; a file is a
snapshot of its content. -/
def procfsOpen (E : ProcfsEnv) (c : Ctx) (entry : ProcfsEntry) (resolved : Bytes)
    (oflags : UInt32) : Except Errno (ℕ × UInt32) × Ctx :=
  if hasFlag oflags (O_WRONLY ||| O_RDWR) then (.error .EACCES, c)
  else if entry.isSymlink then (.error .ELOOP, c)
  else if entry.isDir then
    if entry.entryPid ≠ 0 && !validatePid E c.proc entry.entryPid then (.error .ENOENT, c)
    else
      newOfd c
        { OpenFileDesc.fresh .Directory (oflags &&& ~~~ CREATION_FLAGS) PROCFS_DIR_HANDLE
            resolved with dirHostHandle := PROCFS_DIR_HANDLE }
        (oflagsToFdFlags oflags)
  else
    match generateContent E c.proc entry with
    | none => (.error .ENOENT, c)
    | some content =>
      newOfd (c.updProc fun p => { p with procfsBufs := (p.procfsBufs.alloc content).2 })
        (.fresh .Regular (oflags &&& ~~~ CREATION_FLAGS)
          (procfsBufHandle (c.proc.procfsBufs.alloc content).1) resolved)
        (oflagsToFdFlags oflags)

/-- A `/dev` directory. Only the creation flags proper are stripped here, and only the
close-on-exec request is honoured. -/
def devfsOpenDir (c : Ctx) (resolved : Bytes) (oflags : UInt32) :
    Except Errno (ℕ × UInt32) × Ctx :=
  newOfd c
    { OpenFileDesc.fresh .Directory (oflags &&& ~~~ (O_CREAT ||| O_EXCL ||| O_TRUNC))
        DEVFS_DIR_HANDLE resolved with dirHostHandle := DEVFS_DIR_HANDLE }
    (if hasFlag oflags O_CLOEXEC then FD_CLOEXEC else 0)

/-- Whether a host answer to `stat` says directory. -/
def isDirReply : Except Errno UInt32 → Bool
  | .ok mode => mode &&& S_IFMT == S_IFDIR
  | .error _ => false

variable (H : HostIO)

/-- Ask the host about a path. -/
def hostStat (c : Ctx) (path : Bytes) : Except Errno UInt32 × Ctx :=
  (H.hostStat c.kernel.log path, c.logCall (.stat path))

/-- A file or directory of the host. -/
def openHostPath (c : Ctx) (resolved : Bytes) (oflags mode : UInt32) :
    Except Errno (ℕ × UInt32) × Ctx :=
  let checked := if hasFlag oflags O_CREAT then hostStat H c resolved else (.error .ENOENT, c)
  let c := checked.2
  if isDirReply checked.1 then (.error .EISDIR, c)
  else
    let reply := H.hostOpen c.kernel.log resolved oflags mode
    let c := c.logCall (.open resolved oflags mode reply)
    match reply with
    | .error e => (.error e, c)
    | .ok handle =>
      let kind := if hasFlag oflags O_DIRECTORY then (.Directory, c)
        else
          let st := hostStat H c resolved
          (if isDirReply st.1 then .Directory else .Regular, st.2)
      newOfd kind.2 (.fresh kind.1 (oflags &&& ~~~ CREATION_FLAGS) handle resolved)
        (oflagsToFdFlags oflags)

/-- The description an open leads to, with the flags of the descriptor to come. -/
def openTarget (E : ProcfsEnv) (c : Ctx) (path : Bytes) (oflags mode : UInt32) :
    Except Errno (ℕ × UInt32) × Ctx :=
  let resolved := resolvePath path c.proc.cwd
  match matchDevFd resolved with
  | some targetFd => openDevFd c targetFd oflags
  | none =>
    match matchVirtualDevice resolved with
    | some dev => openDevice c dev resolved oflags
    | none =>
      if resolved = ascii "/dev/ptmx" then openPtmx c resolved oflags
      else
        match afterPrefix (ascii "/dev/pts/") resolved with
        | some num => openPts c num resolved oflags
        | none =>
          if resolved = ascii "/dev/tty" then openTty c oflags
          else
            match matchProcfs resolved c.proc.pid with
            | some entry => procfsOpen E c entry resolved oflags
            | none =>
              if matchDevfsDir resolved then devfsOpenDir c resolved oflags
              else
                openHostPath H c resolved oflags
                  (if hasFlag oflags O_CREAT then mode &&& ~~~ c.proc.umask else mode)

/-- Allocate the descriptor of an open. -/
def allocFd (c : Ctx) (ofdRef : ℕ) (fdFlags : UInt32) : Except Errno ℤ × Ctx :=
  match c.proc.fdTable.alloc ofdRef fdFlags with
  | .error e => (.error e, c)
  | .ok (fd, fdTable) => (.ok fd, c.updProc fun p => { p with fdTable })

/-- Open a path. -/
def sysOpen (E : ProcfsEnv) (c : Ctx) (path : Bytes) (oflags mode : UInt32) :
    Except Errno ℤ × Ctx :=
  match openTarget H E c path oflags mode with
  | (.error e, c) => (.error e, c)
  | (.ok (ofdRef, fdFlags), c) => allocFd c ofdRef fdFlags

/-! ### Duplicating descriptors -/

/-- Duplicate a descriptor to the lowest free number. -/
def sysDup (c : Ctx) (fd : ℤ) : Except Errno ℤ × Ctx :=
  match c.proc.fdTable.get fd with
  | .error e => (.error e, c)
  | .ok entry =>
    let c := c.updProc fun p => { p with ofdTable := p.ofdTable.incRef entry.ofdRef }
    match allocFd c entry.ofdRef 0 with
    | (.error e, c) =>
      (.error e, c.updProc fun p => { p with ofdTable := (p.ofdTable.decRef entry.ofdRef).2 })
    | (.ok fd, c) => (.ok fd, c)

/-- Duplicate a descriptor to a given number, closing what was there. -/
def sysDup2 (c : Ctx) (oldfd newfd : ℤ) : Except Errno ℤ × Ctx :=
  match c.proc.fdTable.get oldfd with
  | .error e => (.error e, c)
  | .ok _ =>
    if oldfd = newfd then (.ok newfd, c)
    else
      let c := (sysClose H c newfd).2
      match c.proc.fdTable.get oldfd with
      | .error e => (.error e, c)
      | .ok entry =>
        let c := c.updProc fun p => { p with ofdTable := p.ofdTable.incRef entry.ofdRef }
        match c.proc.fdTable.setAt newfd entry.ofdRef 0 with
        | .error e =>
          (.error e,
            c.updProc fun p => { p with ofdTable := (p.ofdTable.decRef entry.ofdRef).2 })
        | .ok fdTable => (.ok newfd, c.updProc fun p => { p with fdTable })

/-- Replace the flags of a descriptor (`fcntl` with `F_SETFD`). -/
def sysFcntlSetFd (c : Ctx) (fd : ℤ) (flags : UInt32) : Except Errno ℤ × Ctx :=
  match c.proc.fdTable.get fd with
  | .error e => (.error e, c)
  | .ok _ => (.ok 0, c.updProc fun p => { p with fdTable := p.fdTable.setFlags fd fun _ => flags })

/-! ### Allocating a descriptor -/

/-- A descriptor that is not given changes nothing. -/
theorem allocFd_eq_error {c c' : Ctx} {ofdRef : ℕ} {fdFlags : UInt32} {e : Errno}
    (h : allocFd c ofdRef fdFlags = (.error e, c')) : c' = c := by
  rw [allocFd] at h
  rcases halloc : c.proc.fdTable.alloc ofdRef fdFlags with e' | ⟨fd, t⟩
  · rw [halloc] at h
    exact (congrArg Prod.snd h).symm
  · rw [halloc] at h
    cases congrArg Prod.fst h

/-- With two free numbers two descriptors are given. -/
theorem allocFd_twice {c : Ctx} (h : 2 ≤ c.proc.fdTable.freeNumbers.length) (a b : ℕ)
    (fa fb : UInt32) :
    ∃ fd₀ fd₁ t₀ t₁, allocFd c a fa = (.ok fd₀, c.updProc fun p => { p with fdTable := t₀ }) ∧
      allocFd (c.updProc fun p => { p with fdTable := t₀ }) b fb =
        (.ok fd₁, c.updProc fun p => { p with fdTable := t₁ }) := by
  obtain ⟨fd₀, t₀, ⟨fd₁, t₁⟩, hfirst, hsecond⟩ := FdTable.alloc_twice h a b fa fb
  refine ⟨fd₀, fd₁, t₀, t₁, ?_, ?_⟩
  · rw [allocFd, hfirst]
  rw [allocFd, show (c.updProc fun p => { p with fdTable := t₀ }).proc.fdTable = t₀ from rfl,
    hsecond]
  rfl

/-- A descriptor given changes only the table of descriptors. -/
theorem allocFd_frame (c : Ctx) (ofdRef : ℕ) (fdFlags : UInt32) :
    ∃ t, (allocFd c ofdRef fdFlags).2 = c.updProc fun p => { p with fdTable := t } := by
  rw [allocFd]
  rcases c.proc.fdTable.alloc ofdRef fdFlags with e | ⟨fd, t⟩
  · exact ⟨c.proc.fdTable, rfl⟩
  · exact ⟨t, rfl⟩

/-- It takes a free number. -/
theorem allocFd_eq_ok {c c' : Ctx} {ofdRef : ℕ} {fdFlags : UInt32} {fd : ℤ}
    (h : allocFd c ofdRef fdFlags = (.ok fd, c')) :
    ∃ i : ℕ, fd = i ∧ c.proc.fdTable.entries.get i = none ∧
      c' = c.updProc fun p => { p with
        fdTable := { p.fdTable with
          entries := p.fdTable.entries.put i (some ⟨ofdRef, fdFlags⟩) } } := by
  rw [allocFd] at h
  rcases halloc : c.proc.fdTable.alloc ofdRef fdFlags with e' | ⟨fd', t⟩
  · rw [halloc] at h
    cases congrArg Prod.fst h
  rw [halloc] at h
  obtain ⟨i, rfl, hfree, -, rfl⟩ := FdTable.alloc_eq_ok halloc
  obtain ⟨hfd, rfl⟩ := Prod.mk.inj h
  exact ⟨i, (Except.ok.inj hfd).symm, hfree, rfl⟩

/-! ### What an open can have done -/

/-- Calls that neither open nor close anything on the host. -/
def HostCall.isQuiet : HostCall → Bool
  | .stat _ | .unlink _ | .fcntlLock .. | .open _ _ _ (.error _) => true
  | _ => false

/-- The shared state after quiet host calls. -/
def Kernel.quiet (k : Kernel) (calls : List HostCall) : Kernel := { k with log := calls ++ k.log }

/-- Quiet calls count for nothing. -/
theorem opensOf_quiet {calls : List HostCall} (h : ∀ call ∈ calls, call.isQuiet = true)
    (log : List HostCall) (handle : ℤ) : opensOf (calls ++ log) handle = opensOf log handle ∧
      closesOf (calls ++ log) handle = closesOf log handle := by
  simp only [opensOf, closesOf, List.countP_append, Nat.add_eq_right, List.countP_eq_zero]
  constructor
  all_goals
    intro call hcall
    have := h call hcall
    rcases call with ⟨_, _, _, _ | _⟩ | _ | _ | _ | _ | _ | _ | _ | _ | _ | _ | _ <;>
      simp_all [HostCall.isQuiet]

/-- The object an open obtained together with a new description. -/
inductive Acquired (H : HostIO) (c : Ctx) : OpenFileDesc → Ctx → Prop
  | device (dev : VirtualDevice) (flags : UInt32) (path : Bytes)
      (owner : VirtualDevice → ℤ) :
      Acquired H c (.fresh .CharDevice flags dev.hostHandle path)
        (c.updKernel fun k => { k with deviceOwner := owner })
  | ptmx (idx : ℕ) (ptys : PtyTable) (flags : UInt32) (path : Bytes)
      (h : c.kernel.ptys.allocPty = some (idx, ptys)) :
      Acquired H c (.fresh .PtyMaster flags idx path)
        (c.updKernel fun k => { k with ptys := ptys.addSide idx .master })
  | pts (idx : ℕ) (pty : PtyPair) (flags : UInt32) (path : Bytes)
      (h : c.kernel.ptys.getPty idx = some pty) :
      Acquired H c (.fresh .PtySlave flags idx path)
        (c.updKernel fun k => { k with ptys := k.ptys.addSide idx .slave })
  | synthDir (handle : ℤ) (flags : UInt32) (path : Bytes)
      (h : handle = PROCFS_DIR_HANDLE ∨ handle = DEVFS_DIR_HANDLE) :
      Acquired H c { OpenFileDesc.fresh .Directory flags handle path with
        dirHostHandle := handle } c
  | procFile (content : Bytes) (flags : UInt32) (path : Bytes) :
      Acquired H c
        (.fresh .Regular flags (procfsBufHandle (c.proc.procfsBufs.alloc content).1) path)
        (c.updProc fun p => { p with procfsBufs := (p.procfsBufs.alloc content).2 })
  | hostFile (handle : ℤ) (fileType : FileType) (flags oflags mode : UInt32) (path : Bytes)
      (pre post : List HostCall) (hft : fileType = .Regular ∨ fileType = .Directory)
      (hpre : ∀ call ∈ pre, call.isQuiet = true) (hpost : ∀ call ∈ post, call.isQuiet = true)
      (h : H.hostOpen (pre ++ c.kernel.log) path oflags mode = .ok handle) :
      Acquired H c (.fresh fileType flags handle path)
        (c.updKernel fun k =>
          ((k.quiet pre).logCall (.open path oflags mode (.ok handle))).quiet post)

/-- Everything an open can have done before the descriptor is allocated. -/
inductive OpenEffect (H : HostIO) (c : Ctx) : Except Errno (ℕ × UInt32) → Ctx → Prop
  | refused (e : Errno) (calls : List HostCall)
      (h : ∀ call ∈ calls, call.isQuiet = true) :
      OpenEffect H c (.error e) (c.updKernel fun k => k.quiet calls)
  | shared (fd : ℤ) (entry : FdEntry) (fdFlags : UInt32)
      (h : c.proc.fdTable.lookup fd = some entry) :
      OpenEffect H c (.ok (entry.ofdRef, fdFlags))
        (c.updProc fun p => { p with ofdTable := p.ofdTable.incRef entry.ofdRef })
  | created (o : OpenFileDesc) (fdFlags : UInt32) (c' : Ctx) (h : Acquired H c o c') :
      OpenEffect H c (.ok ((c.proc.ofdTable.alloc o).1, fdFlags))
        (c'.updProc fun p => { p with ofdTable := (p.ofdTable.alloc o).2 })

variable {H}

/-- An open that fails early changes nothing. -/
theorem OpenEffect.unchanged (e : Errno) (c : Ctx) : OpenEffect H c (.error e) c :=
  .refused e [] (by simp)

/-- Opening an own descriptor has an effect of an open. -/
theorem openDevFd_effect (c : Ctx) (targetFd : ℤ) (oflags : UInt32) :
    OpenEffect H c (openDevFd c targetFd oflags).1 (openDevFd c targetFd oflags).2 := by
  rw [openDevFd, FdTable.get]
  rcases h : c.proc.fdTable.lookup targetFd with _ | entry
  · exact .unchanged _ c
  · exact .shared targetFd entry _ h

/-- A device acquired only changes its owner. -/
theorem acquireOrBusy_eq_ok {dev : VirtualDevice} {pid : ℕ} {k k' : Kernel}
    (h : acquireOrBusy dev pid k = .ok k') :
    ∃ owner, k' = { k with deviceOwner := owner } := by
  rw [acquireOrBusy] at h
  split at h
  · cases h
  cases h
  split
  · exact ⟨_, rfl⟩
  · exact ⟨k.deviceOwner, rfl⟩

/-- So does any device. -/
theorem acquireDevice_eq_ok {dev : VirtualDevice} {pid : ℕ} {k k' : Kernel}
    (h : acquireDevice dev pid k = .ok k') :
    ∃ owner, k' = { k with deviceOwner := owner } := by
  cases dev with
  | Fb0 | Mice | Dsp => exact acquireOrBusy_eq_ok h
  | Null | Zero | Urandom | Full => exact ⟨k.deviceOwner, (Except.ok.inj h).symm⟩

/-- So has opening a device. -/
theorem openDevice_effect (c : Ctx) (dev : VirtualDevice) (resolved : Bytes) (oflags : UInt32) :
    OpenEffect H c (openDevice c dev resolved oflags).1 (openDevice c dev resolved oflags).2 := by
  rw [openDevice]
  rcases h : acquireDevice dev c.proc.pid c.kernel with e | k
  · exact .unchanged e c
  · obtain ⟨owner, rfl⟩ := acquireDevice_eq_ok h
    exact .created _ _ _ (.device dev _ resolved owner)

/-- So has opening a terminal pair. -/
theorem openPtmx_effect (c : Ctx) (resolved : Bytes) (oflags : UInt32) :
    OpenEffect H c (openPtmx c resolved oflags).1 (openPtmx c resolved oflags).2 := by
  rw [openPtmx]
  rcases h : c.kernel.ptys.allocPty with _ | ⟨idx, ptys⟩
  · exact .unchanged _ c
  · exact .created _ _ _ (.ptmx idx ptys _ resolved h)

/-- So has opening a slave. -/
theorem openPts_effect (c : Ctx) (num resolved : Bytes) (oflags : UInt32) :
    OpenEffect H c (openPts c num resolved oflags).1 (openPts c num resolved oflags).2 := by
  rw [openPts]
  rcases parseAsciiUsize num with _ | idx
  · exact .unchanged _ c
  rcases h : c.kernel.ptys.getPty idx with _ | pty
  · simp only [h]
    exact .unchanged _ c
  simp only [h]
  split
  · exact .unchanged _ c
  · exact .created _ _ _ (.pts idx pty _ resolved h)

/-- The first slave found is behind a descriptor. -/
theorem firstPtySlave_eq_some {p : Process} {ofdRef : ℕ} (h : firstPtySlave p = some ofdRef) :
    ∃ (i : ℕ) (e : FdEntry), p.fdTable.entries.get i = some e ∧ e.ofdRef = ofdRef := by
  rw [firstPtySlave] at h
  obtain ⟨i, -, hi⟩ := List.exists_of_findSome?_eq_some h
  rcases he : p.fdTable.entries.get i with _ | e
  · simp [he] at hi
  rcases ho : p.ofdTable.get e.ofdRef with _ | o
  · simp [he, ho] at hi
  simp only [he, ho] at hi
  split at hi
  · exact ⟨i, e, he, Option.some.inj hi⟩
  · cases hi

/-- So has opening the terminal. -/
theorem openTty_effect (c : Ctx) (oflags : UInt32) :
    OpenEffect H c (openTty c oflags).1 (openTty c oflags).2 := by
  unfold openTty
  split
  next ofdRef h =>
    obtain ⟨i, e, he, rfl⟩ := firstPtySlave_eq_some h
    exact .shared i e _ (by rw [FdTable.lookup_natCast, he])
  split
  next entry h => exact .shared 0 entry _ h
  · exact .unchanged _ c

/-- So has opening a file of procfs. -/
theorem procfsOpen_effect (E : ProcfsEnv) (c : Ctx) (entry : ProcfsEntry) (resolved : Bytes)
    (oflags : UInt32) : OpenEffect H c (procfsOpen E c entry resolved oflags).1
      (procfsOpen E c entry resolved oflags).2 := by
  rw [procfsOpen]
  split
  · exact .unchanged _ c
  split
  · exact .unchanged _ c
  split
  · split
    · exact .unchanged _ c
    · exact .created _ _ _ (.synthDir _ _ resolved (.inl rfl))
  rcases generateContent E c.proc entry with _ | content
  · exact .unchanged _ c
  · exact .created _ _ _ (.procFile content _ resolved)

/-- So has opening a path of the host's. -/
theorem openHostPath_effect (c : Ctx) (resolved : Bytes) (oflags mode : UInt32) :
    OpenEffect H c (openHostPath H c resolved oflags mode).1
      (openHostPath H c resolved oflags mode).2 := by
  -- the check for an existing directory may ask the host first
  obtain ⟨pre, reply, hpre, hchecked⟩ : ∃ (pre : List HostCall) (reply : Except Errno UInt32),
      (∀ call ∈ pre, call.isQuiet = true) ∧
      (if hasFlag oflags O_CREAT then hostStat H c resolved else (.error .ENOENT, c)) =
        (reply, c.updKernel fun k => k.quiet pre) := by
    split
    · exact ⟨[.stat resolved], _, by simp [HostCall.isQuiet], rfl⟩
    · exact ⟨[], _, by simp, rfl⟩
  rw [openHostPath, hchecked]
  split
  · exact .refused _ pre hpre
  rcases hopen : H.hostOpen (pre ++ c.kernel.log) resolved oflags mode with e | handle
  · simp only [Ctx.updKernel_kernel, Kernel.quiet, hopen]
    refine .refused e (.open resolved oflags mode (.error e) :: pre) fun call hcall => ?_
    rcases List.mem_cons.mp hcall with rfl | h
    · rfl
    · exact hpre call h
  simp only [Ctx.updKernel_kernel, Kernel.quiet, hopen]
  split
  · exact .created _ _ _ (.hostFile handle .Directory _ oflags mode resolved pre []
      (.inr rfl) hpre (by simp) hopen)
  refine .created _ _ _ (.hostFile handle _ _ oflags mode resolved pre
    [.stat resolved] ?_ hpre (by simp [HostCall.isQuiet]) hopen)
  split
  · exact .inr rfl
  · exact .inl rfl

/-- **Everything an open can have done** before the descriptor is allocated. -/
theorem openTarget_effect (E : ProcfsEnv) (c : Ctx) (path : Bytes) (oflags mode : UInt32) :
    OpenEffect H c (openTarget H E c path oflags mode).1 (openTarget H E c path oflags mode).2 := by
  simp only [openTarget]
  split
  · exact openDevFd_effect c _ oflags
  split
  · exact openDevice_effect c _ _ oflags
  split
  · exact openPtmx_effect c _ oflags
  split
  · exact openPts_effect c _ _ oflags
  split
  · exact openTty_effect c oflags
  split
  · exact procfsOpen_effect E c _ _ oflags
  split
  · exact .created _ _ _ (.synthDir _ _ _ (.inr rfl))
  · exact openHostPath_effect c _ oflags _

/-! ### Frames -/

/-- An open touches nothing of the process but descriptors and objects. -/
theorem sameSettings_openEffect {c c' : Ctx} {r : Except Errno (ℕ × UInt32)}
    (h : OpenEffect H c r c') : c.proc.SameSettings c'.proc := by
  cases h with
  | refused => exact .refl _
  | shared => rfl
  | created o fdFlags c' hacq => cases hacq <;> rfl

/-- A new descriptor keeps the settings. -/
theorem sameSettings_allocFd (c : Ctx) (ofdRef : ℕ) (fdFlags : UInt32) :
    c.proc.SameSettings (allocFd c ofdRef fdFlags).2.proc := by
  obtain ⟨t, heq⟩ := allocFd_frame c ofdRef fdFlags
  rw [heq]
  rfl

/-- So does an open. -/
theorem sameSettings_sysOpen (E : ProcfsEnv) (c : Ctx) (path : Bytes) (oflags mode : UInt32) :
    c.proc.SameSettings (sysOpen H E c path oflags mode).2.proc := by
  have heff := sameSettings_openEffect (openTarget_effect (H := H) E c path oflags mode)
  rw [sysOpen]
  rcases hopen : openTarget H E c path oflags mode with ⟨e | ⟨ofdRef, fdFlags⟩, c'⟩
  · rwa [hopen] at heff
  · rw [hopen] at heff
    exact heff.trans (sameSettings_allocFd c' ofdRef fdFlags)

/-- So does a duplicate. -/
theorem sameSettings_sysDup2 (c : Ctx) (oldfd newfd : ℤ) :
    c.proc.SameSettings (sysDup2 H c oldfd newfd).2.proc := by
  rw [sysDup2]
  rcases c.proc.fdTable.get oldfd with e | entry
  · exact .refl _
  by_cases heq : oldfd = newfd
  · simp only [if_pos heq]
    exact .refl _
  simp only [if_neg heq]
  refine (sameSettings_sysClose (H := H) c newfd).trans ?_
  rcases (sysClose H c newfd).2.proc.fdTable.get oldfd with e | entry
  · exact .refl _
  · simp only [Ctx.updProc_proc]
    rcases (sysClose H c newfd).2.proc.fdTable.setAt newfd entry.ofdRef 0 with e | t <;> rfl

end PosixKernel
