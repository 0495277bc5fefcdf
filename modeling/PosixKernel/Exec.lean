import PosixKernel.Fork
import PosixKernel.Open

/-!
# Exec State

An exec rebuilds the process from what it writes about itself (`serialize_exec_state`,
`deserialize_exec_state`), after it has performed the descriptor actions left by a spawn
and closed the descriptors marked close-on-exec (`kernel_exec_setup`). `execImage` is the
rebuilt process, field by field.

## Main results

* `deserialize_serialize_exec` — reading back what was written yields `execImage`, or
  fails;
* `kernelExecSetup_eq_ok` — what a successful exec setup leaves behind.
-/

namespace PosixKernel

open ByteCodec

def EXEC_MAGIC : ℕ := 0x45584543

/-! ### Writing -/

/-- An exec keeps the process's own parent, and whether it leads its session. -/
def encExecIds (p : Process) : List Bytes :=
  [le32 p.ppid, le32 p.uid.toNat, le32 p.gid.toNat, le32 p.euid.toNat, le32 p.egid.toNat,
    le32 p.pgid.toNat, le32 p.sid.toNat, encBool p.isSessionLeader, le32 p.umask.toNat,
    le32 p.nice.toUInt32.toNat]

/-- The signals that are ignored. -/
def ignoredSignals (s : SignalState) : List ℕ :=
  (List.range' 1 64).filter fun i => s.getHandler i = .Ignore

def encHandler (s : SignalState) (i : ℕ) : List Bytes :=
  [le32 i, le32 (handlerToU32 (s.getHandler i)).toNat]

/-- Of the dispositions only the ignored signals are written; the pending mask is, the
queue is not. -/
def encExecSignals (s : SignalState) : List Bytes :=
  le64 s.blocked.toNat :: (encList (encHandler s) (ignoredSignals s) ++ [le64 s.pending.toNat])

/-- The descriptors that stay open. -/
def execFds (p : Process) : List (ℕ × FdEntry) :=
  p.fdTable.entries.entries.filter fun e => !hasFlag e.2.fdFlags FD_CLOEXEC

/-- The descriptions that the remaining descriptors point at. -/
def execOfds (p : Process) : List (ℕ × OpenFileDesc) :=
  p.ofdTable.entries.filter fun e => ((execFds p).map fun f => f.2.ofdRef).contains e.1

/-- The sections that an exec writes. -/
def execBody (p : Process) : List Bytes :=
  encExecIds p ++ (encExecSignals p.signals ++ ([le32 p.fdTable.maxFds] ++
    (encList encFd (execFds p) ++ (encList encOfd (execOfds p) ++
    (encList encBytes p.environ ++ (encList encBytes p.argv ++ (encBytes p.cwd ++
    (encRlimits p.rlimits ++ (encTerminal p.terminal ++ [le32 p.memory.programBreak])))))))))

/-- Write the state of a process that is about to exec. -/
def serializeExecState (p : Process) (bufLen : UInt32) : Except Errno Bytes :=
  writeState EXEC_MAGIC (execBody p) bufLen

/-! ### Reading -/

def readExecIds : Reader Errno (ForkIds × Bool) := do
  let ppid ← readNat32
  let uid ← readU32
  let gid ← readU32
  let euid ← readU32
  let egid ← readU32
  let pgid ← readU32
  let sid ← readU32
  let isSessionLeader ← readBool
  let umask ← readU32
  let nice ← readI32
  pure ({ ppid, uid, gid, euid, egid, pgid, sid, umask, nice }, isSessionLeader)

def readHandler : Reader Errno (ℕ × SignalHandler) := do
  let signum ← readNat32
  let handler ← readU32
  pure (signum, u32ToHandler handler)

/-- The handlers that were read; the bound here is one lower than in a fork. -/
def handlersOf (entries : List (ℕ × SignalHandler)) : ℕ → SignalHandler :=
  tableOf 64 .Default entries

def readExecSignals : Reader Errno SignalState := do
  let blocked ← readU64
  let entries ← readCapped 64 readHandler
  let pending ← readU64
  pure (.fromPartsWithPending (handlersOf entries) blocked pending)

/-- The break is read and dropped: the new program sets its own. -/
def readExec (pid : ℕ) : Reader Errno Process := do
  readHeader EXEC_MAGIC
  let ids ← readExecIds
  let signals ← readExecSignals
  let maxFds ← readNat32
  let fds ← readCapped MAX_FDS readFd
  let ofdTable ← readForkOfds pid
  let environ ← readCapped MAX_ENV_VARS (readBounded MAX_STRING_LEN)
  let argv ← readCapped MAX_ARGV (readBounded MAX_STRING_LEN)
  let cwd ← readBounded MAX_PATH_LEN
  let rlimits ← readRlimits
  let terminal ← readTerminal
  let _ ← readNat32
  pure
    { Process.new pid with
      ppid := ids.1.ppid, uid := ids.1.uid, gid := ids.1.gid, euid := ids.1.euid
      egid := ids.1.egid, pgid := ids.1.pgid, sid := ids.1.sid, umask := ids.1.umask
      nice := ids.1.nice, isSessionLeader := ids.2
      signals, fdTable := ⟨.ofEntries fds, maxFds⟩, ofdTable, environ, argv, cwd, rlimits
      terminal }

/-- Build the process anew from an exec buffer. -/
def deserializeExecState (buf : Bytes) (pid : ℕ) : Except Errno Process :=
  match readExec pid buf with
  | .error e => .error e
  | .ok (p, _) => .ok p

/-! ### The rebuilt process -/

/-- The signal state after an exec. -/
def execSignals (s : SignalState) : SignalState :=
  .fromPartsWithPending
    (handlersOf ((ignoredSignals s).map fun i =>
      (low32 i, u32ToHandler (handlerToU32 (s.getHandler i)))))
    s.blocked s.pending

/-- **The process after an exec.** What is not listed starts as in a new process. -/
def execImage (p : Process) (pid : ℕ) : Process :=
  { Process.new pid with
    ppid := low32 p.ppid
    uid := p.uid
    gid := p.gid
    euid := p.euid
    egid := p.egid
    pgid := p.pgid
    sid := p.sid
    isSessionLeader := p.isSessionLeader
    umask := p.umask
    nice := p.nice
    signals := execSignals p.signals
    fdTable := ⟨.ofEntries ((execFds p).map fdImage), low32 p.fdTable.maxFds⟩
    ofdTable := .ofEntries ((execOfds p).map fun e => (low32 e.1, ofdImage pid e.2))
    environ := p.environ
    argv := p.argv
    cwd := p.cwd
    rlimits := p.rlimits
    terminal := { p.terminal with foregroundPgid := 1 } }

/-- The bounds that the reader of an exec buffer puts on what it accepts. -/
structure ExecWithinCaps (p : Process) : Prop where
  fds : (execFds p).length ≤ MAX_FDS
  ofds : (execOfds p).length ≤ MAX_OFDS
  paths : ∀ e ∈ execOfds p, e.2.path.length ≤ MAX_PATH_LEN
  environ : StringsWithin MAX_ENV_VARS p.environ
  argv : StringsWithin MAX_ARGV p.argv
  cwd : p.cwd.length ≤ MAX_PATH_LEN

/-- The sizes of a state that takes less than a number of bytes for an exec. -/
structure ExecSmall (n : ℕ) (p : Process) : Prop where
  fds : (execFds p).length < n
  ofds : (execOfds p).length < n
  paths : ∀ e ∈ execOfds p, e.2.path.length < n
  environ : StringsSmall n p.environ
  argv : StringsSmall n p.argv
  cwd : p.cwd.length < n

theorem reads_readExecIds (p : Process) : Reads .EINVAL readExecIds (encExecIds p).flatten True
      (⟨low32 p.ppid, p.uid, p.gid, p.euid, p.egid, p.pgid, p.sid, p.umask, p.nice⟩,
        p.isSessionLeader) := by
  exact Reads.congr ((reads_readNat32 _).bind <| (reads_readU32 _).bind <|
    (reads_readU32 _).bind <| (reads_readU32 _).bind <| (reads_readU32 _).bind <|
    (reads_readU32 _).bind <| (reads_readU32 _).bind <| (reads_readBool _).bind <|
    (reads_readU32 _).bind <| (reads_readI32 _).bind_pure) (by simp)

theorem reads_readExecSignals (s : SignalState) :
    Reads .EINVAL readExecSignals (encExecSignals s).flatten True (execSignals s) := by
  have hlen : (ignoredSignals s).length ≤ 64 := (List.length_filter_le _ _).trans (by simp)
  have hhandler : ∀ i, Reads .EINVAL readHandler (encHandler s i).flatten True
      (low32 i, u32ToHandler (handlerToU32 (s.getHandler i))) := by
    intro i
    exact Reads.congr ((reads_readNat32 _).bind <| (reads_readU32 _).bind_pure) (by simp)
  simp only [encExecSignals, readExecSignals, List.flatten_cons, List.flatten_append,
    List.flatten_nil, List.append_nil]
  refine Reads.congr ((reads_readU64 _).bind <|
    Reads.bind (reads_readCapped 64 (by omega) fun i _ => hhandler i)
      (Reads.bind_pure (reads_readU64 _)))
    ?_
  simp [hlen]

variable {p : Process}

theorem reads_readExec (h : ExecSmall (2 ^ 32) p) (pid size : ℕ) : Reads .EINVAL (readExec pid)
      ((le32 EXEC_MAGIC ++ (le32 FORK_VERSION ++ le32 size)) ++ (execBody p).flatten)
      (ExecWithinCaps p) (execImage p pid) := by
  have hofds : Reads .EINVAL (readForkOfds pid) (encList encOfd (execOfds p)).flatten
      ((execOfds p).length ≤ MAX_OFDS ∧ ∀ e ∈ execOfds p, e.2.path.length ≤ MAX_PATH_LEN)
      (SlotTable.ofEntries ((execOfds p).map fun e => (low32 e.1, ofdImage pid e.2))) :=
    (reads_readCapped MAX_OFDS h.ofds fun e he => reads_readOfd pid (h.paths e he)).map _
  simp only [execBody, readExec, List.flatten_append, List.flatten_cons, List.flatten_nil,
    List.append_nil]
  refine Reads.congr ((reads_readHeader (by decide) size).bind <| (reads_readExecIds p).bind <|
    (reads_readExecSignals p.signals).bind <| (reads_readNat32 _).bind <|
    (reads_readCapped MAX_FDS h.fds fun e _ => reads_readFd e).bind <| hofds.bind <|
    (reads_readStrings MAX_ENV_VARS h.environ).bind <| (reads_readStrings MAX_ARGV h.argv).bind <|
    (reads_readBounded MAX_PATH_LEN h.cwd).bind <| (reads_readRlimits p.rlimits).bind <|
    (reads_readTerminal p.terminal).bind <| (reads_readNat32 _).bind_pure) ?_
  constructor
  · rintro ⟨-, -, -, -, ⟨hfds, -⟩, ⟨hofds, hpaths⟩, henv, hargv, hcwd, -, -, -⟩
    exact ⟨hfds, hofds, hpaths, henv, hargv, hcwd⟩
  intro hcaps
  exact ⟨trivial, trivial, trivial, trivial, ⟨hcaps.fds, fun _ _ => trivial⟩,
    ⟨hcaps.ofds, hcaps.paths⟩, hcaps.environ, hcaps.argv, hcaps.cwd, trivial, trivial, trivial⟩

variable {bytes : Bytes}

/-- The sizes of a state are below those of its bytes. -/
theorem execSmall_of_lt {n : ℕ} (htotal : (execBody p).flatten.length < n) : ExecSmall n p := by
  simp only [execBody, List.flatten_append, List.length_append] at htotal
  have hfds := mul_length_le_encList (n := 1) encFd (execFds p)
    fun e _ => by simp [encFd, le32]
  have hofds := ofds_le_encOfds (execOfds p)
  have henv := strings_le_encList p.environ
  have hargv := strings_le_encList p.argv
  have hcwd := length_encBytes p.cwd
  refine ⟨by omega, by omega, fun e he => ?_, ⟨by omega, fun x hx => ?_⟩,
    ⟨by omega, fun x hx => ?_⟩, by omega⟩
  · have := hofds.2 e he
    omega
  · have := henv.2 x hx
    omega
  · have := hargv.2 x hx
    omega

/-- **The reader on what the writer wrote**: it rebuilds the process, or refuses a state
beyond its bounds. -/
theorem deserialize_serialize_exec {bufLen : UInt32} (h : serializeExecState p bufLen = .ok bytes)
    (pid : ℕ) : (ExecWithinCaps p → deserializeExecState bytes pid = .ok (execImage p pid)) ∧
      (¬ ExecWithinCaps p → deserializeExecState bytes pid = .error .EINVAL) := by
  obtain ⟨hlen, rfl⟩ := writeState_eq_ok h
  have hbuf := bufLen.toNat_lt
  have hread := reads_readExec (execSmall_of_lt (p := p) (by omega)) pid
    (12 + (execBody p).flatten.length) []
  rw [List.append_nil] at hread
  refine ⟨fun hcaps => ?_, fun hcaps => ?_⟩
  · rw [deserializeExecState, hread.1 hcaps]
  · rw [deserializeExecState, hread.2 hcaps]

/-- What fits in the buffer of an exec is within the bounds of the reader. -/
theorem execWithinCaps_of_serialize (h : serializeExecState p FORK_BUF_LEN = .ok bytes) :
    ExecWithinCaps p := by
  have htotal : 12 + (execBody p).flatten.length ≤ 65536 := (writeState_eq_ok h).1
  have hsmall : ExecSmall 65537 p := execSmall_of_lt (by omega)
  exact ⟨Nat.le_of_lt_succ hsmall.fds, Nat.le_of_lt_succ hsmall.ofds,
    fun e he => (hsmall.paths e he).le.trans (by decide), hsmall.environ.within,
    hsmall.argv.within, hsmall.cwd.le.trans (by decide)⟩

/-! ### Setting an exec up -/

variable (H : HostIO) (E : ProcfsEnv)

/-- One descriptor action left by a spawn. -/
def applyFdAction (c : Ctx) : FdAction → Except Errno Unit × Ctx
  | .Dup2 oldFd newFd =>
    match sysDup2 H c oldFd.toInt newFd.toInt with
    | (.error e, c) => (.error e, c)
    | (.ok _, c) => (.ok (), c)
  | .Close fd => sysClose H c fd.toInt
  | .Open fd path flags mode =>
    match sysOpen H E c path flags.toUInt32 mode.toUInt32 with
    | (.error e, c) => (.error e, c)
    | (.ok opened, c) =>
      if opened = fd.toInt then (.ok (), c)
      else
        match sysDup2 H c opened fd.toInt with
        | (.error e, c) => (.error e, c)
        | (.ok _, c) => (.ok (), (sysClose H c opened).2)

/-- The descriptor actions in turn, up to the first that fails. -/
def applyFdActions (c : Ctx) : List FdAction → Except Errno Unit × Ctx
  | [] => (.ok (), c)
  | a :: actions =>
    match applyFdAction H E c a with
    | (.error e, c) => (.error e, c)
    | (.ok (), c) => applyFdActions c actions

/-- Replace the program of a process: perform the pending descriptor actions, close what
is marked close-on-exec, and rebuild the process from its exec state. -/
def kernelExecSetup (c : Ctx) : Except Errno Unit × Ctx :=
  match applyFdActions H E (c.updProc fun p => { p with forkFdActions := [] })
      c.proc.forkFdActions with
  | (.error e, c) => (.error e, c)
  | (.ok (), c) =>
    let c := closeCloexec H c
    match serializeExecState c.proc FORK_BUF_LEN with
    | .error e => (.error e, c)
    | .ok bytes =>
      match deserializeExecState bytes c.proc.pid with
      | .error e => (.error e, c)
      | .ok p => (.ok (), { c with proc := { p with hasExec := true } })

variable {H E}

theorem sameSettings_applyFdAction (c : Ctx) (a : FdAction) :
    c.proc.SameSettings (applyFdAction H E c a).2.proc := by
  cases a with
  | Dup2 oldFd newFd =>
    have h := sameSettings_sysDup2 (H := H) c oldFd.toInt newFd.toInt
    rw [applyFdAction]
    generalize sysDup2 H c oldFd.toInt newFd.toInt = r at h ⊢
    rcases r with ⟨e | fd, c'⟩ <;> exact h
  | Close fd => exact sameSettings_sysClose c fd.toInt
  | Open fd path flags mode =>
    have hopen := sameSettings_sysOpen (H := H) E c path flags.toUInt32 mode.toUInt32
    rw [applyFdAction]
    generalize sysOpen H E c path flags.toUInt32 mode.toUInt32 = r at hopen ⊢
    rcases r with ⟨e | opened, c'⟩
    · exact hopen
    have hdup := sameSettings_sysDup2 (H := H) c' opened fd.toInt
    simp only
    split
    · exact hopen
    generalize sysDup2 H c' opened fd.toInt = r at hdup ⊢
    rcases r with ⟨e | fd', c''⟩
    · exact hopen.trans hdup
    · exact (hopen.trans hdup).trans (sameSettings_sysClose c'' opened)

theorem sameSettings_applyFdActions (c : Ctx) (actions : List FdAction) :
    c.proc.SameSettings (applyFdActions H E c actions).2.proc := by
  induction actions generalizing c with
  | nil => exact .refl _
  | cons a actions ih =>
    have h := sameSettings_applyFdAction (H := H) (E := E) c a
    rw [applyFdActions]
    generalize applyFdAction H E c a = r at h ⊢
    rcases r with ⟨e | u, c'⟩
    · exact h
    · exact h.trans (ih c')

/-- **What a successful exec setup leaves behind**: the image of the process as it was
once its descriptors had been arranged. -/
theorem kernelExecSetup_eq_ok {c c' : Ctx} (h : kernelExecSetup H E c = (.ok (), c')) :
    ∃ mid : Ctx, { c.proc with forkFdActions := [] }.SameSettings mid.proc ∧
      (∃ bytes, serializeExecState mid.proc FORK_BUF_LEN = .ok bytes) ∧
      ExecWithinCaps mid.proc ∧
      c' = { mid with proc := { execImage mid.proc mid.proc.pid with hasExec := true } } ∧
      mid = closeCloexec H (applyFdActions H E
        (c.updProc fun p => { p with forkFdActions := [] }) c.proc.forkFdActions).2 := by
  have hactions := sameSettings_applyFdActions (H := H) (E := E)
    (c.updProc fun p => { p with forkFdActions := [] }) c.proc.forkFdActions
  rw [kernelExecSetup] at h
  rcases hrun : applyFdActions H E (c.updProc fun p => { p with forkFdActions := [] })
      c.proc.forkFdActions with ⟨e | u, c₁⟩
  · rw [hrun] at h
    cases congrArg Prod.fst h
  rw [hrun] at h hactions
  simp only at h
  have hclose := sameSettings_closeFds (H := H) c₁ (cloexecFds c₁.proc)
  rcases hser : serializeExecState (closeCloexec H c₁).proc FORK_BUF_LEN with e | bytes
  · rw [hser] at h
    cases congrArg Prod.fst h
  rw [hser] at h
  simp only at h
  obtain ⟨hok, herr⟩ := deserialize_serialize_exec hser (closeCloexec H c₁).proc.pid
  by_cases hcaps : ExecWithinCaps (closeCloexec H c₁).proc
  · rw [hok hcaps] at h
    exact ⟨closeCloexec H c₁, hactions.trans hclose, ⟨bytes, hser⟩, hcaps,
      (congrArg Prod.snd h).symm, rfl⟩
  · rw [herr hcaps] at h
    cases congrArg Prod.fst h

/-- An exec that has nothing to arrange. -/
theorem kernelExecSetup_of_plain {c : Ctx} (hactions : c.proc.forkFdActions = [])
    (hclose : cloexecFds c.proc = [])
    (hlen : 12 + (execBody c.proc).flatten.length ≤ FORK_BUF_LEN.toNat) :
    kernelExecSetup H E c =
      (.ok (), { c with proc := { execImage c.proc c.proc.pid with hasExec := true } }) := by
  have hsame : (c.updProc fun p => { p with forkFdActions := [] }) = c := by
    rw [Ctx.updProc, ← hactions]
  have hkept : closeCloexec H c = c := by
    rw [closeCloexec, hclose]
    rfl
  obtain ⟨bytes, hbytes⟩ : ∃ bytes, serializeExecState c.proc FORK_BUF_LEN = .ok bytes :=
    writeState_isOk hlen
  rw [kernelExecSetup, hsame, hactions]
  simp [applyFdActions, hkept, hbytes, (deserialize_serialize_exec hbytes c.proc.pid).1
    (execWithinCaps_of_serialize hbytes)]

end PosixKernel
