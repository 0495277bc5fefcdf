import PosixKernel.ForkSections

/-!
# Fork State

A fork writes the parent's state into a buffer and builds the child from it
(`serialize_fork_state`, `deserialize_fork_state`). The two are read together here:
`forkChild` is the child, field by field, and `deserialize_serialize` says that it is what
comes out whenever the reader accepts the buffer.

## Main results

* `deserialize_serialize` — the reader accepts what the writer wrote exactly when the
  parent is within the reader's bounds, and then builds `forkChild`;
* `withinCaps_of_serialize` — a parent that fits in the buffer that fork uses is within
  those bounds.
-/

namespace PosixKernel

open ByteCodec

def FORK_MAGIC : ℕ := 0x464F524B
def FORK_VERSION : ℕ := 7

/-! ### Writing a state -/

/-- Overwrite a word of the output. -/
def patchU32 (out : Bytes) (offset v : ℕ) : Bytes :=
  out.take offset ++ le32 v ++ out.drop (offset + 4)

/-- The writes of a state, in order; the third word is filled in at the end. -/
def stateChunks (magic : ℕ) (body : List Bytes) : List Bytes :=
  [le32 magic, le32 FORK_VERSION, le32 0] ++ body

/-- Write a state into a buffer of the given length. -/
def writeState (magic : ℕ) (body : List Bytes) (bufLen : UInt32) : Except Errno Bytes :=
  match writeAll .ENOMEM bufLen.toNat [] (stateChunks magic body) with
  | .error e => .error e
  | .ok out => .ok (patchU32 out 8 out.length)

/-- A state is its header and its body. -/
theorem length_stateChunks (magic : ℕ) (body : List Bytes) :
    (stateChunks magic body).flatten.length = 12 + body.flatten.length := by
  simp only [stateChunks, List.flatten_append, List.length_append]
  rfl

variable {magic : ℕ} {bufLen : UInt32} {bytes : Bytes}

/-- What a successful write produced: the header with the size filled in, then the
sections. -/
theorem writeState_eq_ok {body : List Bytes} (h : writeState magic body bufLen = .ok bytes) :
    12 + body.flatten.length ≤ bufLen.toNat ∧
      bytes = (le32 magic ++ (le32 FORK_VERSION ++ le32 (12 + body.flatten.length))) ++
        body.flatten := by
  have hlen := length_stateChunks magic body
  rw [writeState, writeAll_eq _ (Nat.zero_le _)] at h
  by_cases hfit : bufLen.toNat < ([] : Bytes).length + (stateChunks magic body).flatten.length
  · rw [if_pos hfit] at h
    cases h
  rw [if_neg hfit, List.nil_append] at h
  have hparts : (stateChunks magic body).flatten =
      (le32 magic ++ le32 FORK_VERSION) ++ (le32 0 ++ body.flatten) := by
    simp [stateChunks]
  have htake : (stateChunks magic body).flatten.take 8 = le32 magic ++ le32 FORK_VERSION := by
    rw [hparts]
    exact List.take_left' rfl
  have hdrop : (stateChunks magic body).flatten.drop (8 + 4) = body.flatten := by
    rw [hparts, ← List.append_assoc]
    exact List.drop_left' rfl
  refine ⟨by simpa [hlen] using hfit, ?_⟩
  cases h
  rw [patchU32, htake, hdrop, hlen]
  simp

/-- A state that fits is written. -/
theorem writeState_isOk {body : List Bytes} (h : 12 + body.flatten.length ≤ bufLen.toNat) :
    ∃ bytes, writeState magic body bufLen = .ok bytes := by
  have hlen := length_stateChunks magic body
  rw [writeState, writeAll_eq _ (Nat.zero_le _), if_neg (by simpa [hlen] using h)]
  exact ⟨_, rfl⟩

/-! ### The whole state -/

/-- The sections that a fork writes. -/
def forkBody (p : Process) : List Bytes :=
  encForkIds p ++ (encForkSignals p.signals ++ (encForkFds p.fdTable ++
    (encList encOfd p.ofdTable.entries ++ (encList encBytes p.environ ++
    (encList encBytes p.argv ++ (encBytes p.cwd ++ (encRlimits p.rlimits ++
    (encTerminal p.terminal ++ (encMemory p.memory ++ (encForkExecPath p.forkExecPath ++
    (encForkExecArgv p.forkExecArgv ++ (encList encFdAction p.forkFdActions ++
    encSockets p.sockets))))))))))))

/-- Write the state of a process that forks. -/
def serializeForkState (p : Process) (bufLen : UInt32) : Except Errno Bytes :=
  writeState FORK_MAGIC (forkBody p) bufLen

/-- The magic number, the version, and the size, which nobody looks at. -/
def readHeader (magic : ℕ) : Reader Errno Unit := do
  let m ← readNat32
  require .EINVAL (m = magic)
  let v ← readNat32
  require .EINVAL (v = FORK_VERSION)
  let _ ← readNat32
  pure ()

def readFork (childPid : ℕ) : Reader Errno Process := do
  readHeader FORK_MAGIC
  let ids ← readForkIds
  let signals ← readForkSignals
  let fdTable ← readForkFds
  let ofdTable ← readForkOfds childPid
  let environ ← readCapped MAX_ENV_VARS (readBounded MAX_STRING_LEN)
  let argv ← readCapped MAX_ARGV (readBounded MAX_STRING_LEN)
  let cwd ← readBounded MAX_PATH_LEN
  let rlimits ← readRlimits
  let terminal ← readTerminal
  let memory ← readMemory
  let forkExecPath ← readForkExecPath
  let forkExecArgv ← readForkExecArgv
  let forkFdActions ← readFdActions
  let sockets ← readSockets
  pure
    { Process.new childPid with
      ppid := ids.ppid, uid := ids.uid, gid := ids.gid, euid := ids.euid, egid := ids.egid
      pgid := ids.pgid, sid := ids.sid, umask := ids.umask, nice := ids.nice
      signals, fdTable, ofdTable, environ, argv, cwd, rlimits, terminal, memory
      forkExecPath, forkExecArgv, forkFdActions, sockets, forkChild := true }

/-- Build the child of a fork from a buffer. -/
def deserializeForkState (buf : Bytes) (childPid : ℕ) : Except Errno Process :=
  match readFork childPid buf with
  | .error e => .error e
  | .ok (p, _) => .ok p

/-- **The child of a fork.** What is not listed starts as in a new process. -/
def forkChild (p : Process) (childPid : ℕ) : Process :=
  { Process.new childPid with
    ppid := low32 p.pid
    uid := p.uid
    gid := p.gid
    euid := p.euid
    egid := p.egid
    pgid := p.pgid
    sid := p.sid
    umask := p.umask
    nice := p.nice
    signals := signalsImage p.signals
    fdTable := fdTableImage p.fdTable
    ofdTable := ofdTableImage childPid p.ofdTable
    environ := p.environ
    argv := p.argv
    cwd := p.cwd
    rlimits := p.rlimits
    terminal := { p.terminal with foregroundPgid := 1 }
    memory := memoryImage p.memory
    forkExecPath := nonemptyImage p.forkExecPath
    forkExecArgv := nonemptyImage p.forkExecArgv
    forkFdActions := p.forkFdActions.filterMap fdActionImage
    sockets := socketsImage p.sockets
    forkChild := true }

/-- The bounds that the reader puts on what it accepts. -/
structure WithinCaps (p : Process) : Prop where
  fds : p.fdTable.entries.entries.length ≤ MAX_FDS
  ofds : p.ofdTable.entries.length ≤ MAX_OFDS
  paths : ∀ e ∈ p.ofdTable.entries, e.2.path.length ≤ MAX_PATH_LEN
  environ : StringsWithin MAX_ENV_VARS p.environ
  argv : StringsWithin MAX_ARGV p.argv
  cwd : p.cwd.length ≤ MAX_PATH_LEN
  mappings : p.memory.mappings.length ≤ MAX_MAPPINGS
  execPath : ∀ path ∈ p.forkExecPath, path.length ≤ MAX_PATH_LEN
  execArgv : ∀ argv ∈ p.forkExecArgv, StringsWithin MAX_ARGV argv

/-- The sizes of a state that takes less than a number of bytes. -/
structure ForkSmall (n : ℕ) (p : Process) : Prop where
  fds : p.fdTable.entries.entries.length < n
  ofds : p.ofdTable.entries.length < n
  paths : ∀ e ∈ p.ofdTable.entries, e.2.path.length < n
  environ : StringsSmall n p.environ
  argv : StringsSmall n p.argv
  cwd : p.cwd.length < n
  mappings : 16 * p.memory.mappings.length < n
  execPath : ∀ path ∈ p.forkExecPath, path.length < n
  execArgv : ∀ argv ∈ p.forkExecArgv, StringsSmall n argv
  actions : p.forkFdActions.length < n
  sockets : p.sockets.entries.length < n
  socketData : ∀ e ∈ p.sockets.entries, e.2.Small

/-- The header is read back. -/
theorem reads_readHeader (h : magic < 2 ^ 32) (size : ℕ) : Reads .EINVAL (readHeader magic)
      (le32 magic ++ (le32 FORK_VERSION ++ le32 size)) True () := by
  rw [readHeader, ← List.nil_append (le32 FORK_VERSION ++ le32 size),
    ← List.nil_append (le32 size)]
  refine Reads.congr ((reads_readNat32 _).bind <| (reads_require _).bind <|
    (reads_readNat32 _).bind <| (reads_require _).bind <| (reads_readNat32 _).bind_pure) ?_
  simp [low32_of_lt h, low32_of_lt (show FORK_VERSION < 2 ^ 32 by decide)]

variable {p : Process}

/-- A process within the caps is read back. -/
theorem reads_readFork (h : ForkSmall (2 ^ 32) p) (childPid size : ℕ) :
    Reads .EINVAL (readFork childPid)
      ((le32 FORK_MAGIC ++ (le32 FORK_VERSION ++ le32 size)) ++ (forkBody p).flatten)
      (WithinCaps p) (forkChild p childPid) := by
  have hmappings : p.memory.mappings.length < 2 ^ 32 := by
    have := h.mappings
    omega
  simp only [forkBody, readFork, List.flatten_append]
  refine Reads.congr ((reads_readHeader (by decide) size).bind <| (reads_readForkIds p).bind <|
    (reads_readForkSignals p.signals).bind <| (reads_readForkFds h.fds).bind <|
    ((reads_readCapped MAX_OFDS h.ofds
      fun e he => reads_readOfd childPid (h.paths e he)).map _).bind <|
    (reads_readStrings MAX_ENV_VARS h.environ).bind <| (reads_readStrings MAX_ARGV h.argv).bind <|
    (reads_readBounded MAX_PATH_LEN h.cwd).bind <| (reads_readRlimits p.rlimits).bind <|
    (reads_readTerminal p.terminal).bind <| (reads_readMemory hmappings).bind <|
    (reads_readForkExecPath h.execPath).bind <| (reads_readForkExecArgv h.execArgv).bind <|
    (reads_readFdActions h.actions).bind <| (reads_readSockets h.sockets h.socketData).bind_pure) ?_
  constructor
  · rintro ⟨-, -, -, hfds, ⟨hofds, hpaths⟩, henv, hargv, hcwd, -, -, hmap, hpath, hexec, -, -⟩
    exact ⟨hfds, hofds, hpaths, henv, hargv, hcwd, hmap, hpath, hexec⟩
  intro hcaps
  exact ⟨trivial, trivial, trivial, hcaps.fds, ⟨hcaps.ofds, hcaps.paths⟩, hcaps.environ,
    hcaps.argv, hcaps.cwd, trivial, trivial, hcaps.mappings, hcaps.execPath, hcaps.execArgv,
    trivial, trivial⟩

/-! ### Sizes -/

section Sizes

variable {α : Type} {enc : α → List Bytes} {xs : List α}

/-- An element is shorter than its list. -/
theorem mem_length_le_encList (enc : α → List Bytes) {x : α} (h : x ∈ xs) :
    4 + (enc x).flatten.length ≤ (encList enc xs).flatten.length := by
  rw [flatten_encList, List.length_append, le32, length_leBytes, List.length_flatMap]
  have := List.single_le_sum (l := xs.map fun x => (enc x).flatten.length) (by simp) _
    (List.mem_map_of_mem h)
  omega

/-- A list takes at least as many bytes as its items do. -/
theorem mul_length_le_encList (enc : α → List Bytes) (xs : List α) {n : ℕ}
    (h : ∀ x ∈ xs, n ≤ (enc x).flatten.length) :
    4 + n * xs.length ≤ (encList enc xs).flatten.length := by
  rw [flatten_encList, List.length_append, le32, length_leBytes, List.length_flatMap]
  have hsum := List.card_nsmul_le_sum (xs.map fun x => (enc x).flatten.length) n
    (by simpa using h)
  rw [List.length_map] at hsum
  have : xs.length * n ≤ (xs.map fun x => (enc x).flatten.length).sum := hsum
  rw [mul_comm n]
  omega

/-- Bytes take four more. -/
theorem length_encBytes (bs : Bytes) : (encBytes bs).flatten.length = 4 + bs.length := by
  simp [encBytes, le32]

/-- Strings are shorter than their list. -/
theorem strings_le_encList (bss : List Bytes) : bss.length ≤ (encList encBytes bss).flatten.length ∧
      ∀ x ∈ bss, x.length ≤ (encList encBytes bss).flatten.length := by
  constructor
  · have := mul_length_le_encList (n := 1) encBytes bss fun x _ => by
      rw [length_encBytes]
      omega
    omega
  intro x hx
  have := mem_length_le_encList encBytes hx
  rw [length_encBytes] at this
  omega

end Sizes

/-- The sections of the state are no longer than all of it. -/
theorem sections_le_forkBody (p : Process) : (encForkFds p.fdTable).flatten.length +
      (encList encOfd p.ofdTable.entries).flatten.length +
      (encList encBytes p.environ).flatten.length + (encList encBytes p.argv).flatten.length +
      (encBytes p.cwd).flatten.length + (encMemory p.memory).flatten.length +
      (encForkExecPath p.forkExecPath).flatten.length +
      (encForkExecArgv p.forkExecArgv).flatten.length +
      (encList encFdAction p.forkFdActions).flatten.length +
      (encSockets p.sockets).flatten.length ≤ (forkBody p).flatten.length := by
  simp only [forkBody, List.flatten_append, List.length_append]
  omega

/-- Descriptors are fewer than their bytes. -/
theorem fds_le_encForkFds (t : FdTable) :
    t.entries.entries.length ≤ (encForkFds t).flatten.length := by
  have h := mul_length_le_encList (n := 1) encFd t.entries.entries
    fun e _ => by simp [encFd, le32]
  rw [encForkFds, List.flatten_cons, List.length_append]
  omega

/-- So are descriptions, and their paths. -/
theorem ofds_le_encOfds (es : List (ℕ × OpenFileDesc)) :
    es.length ≤ (encList encOfd es).flatten.length ∧
      ∀ e ∈ es, e.2.path.length ≤ (encList encOfd es).flatten.length := by
  have hofd : ∀ e : ℕ × OpenFileDesc, 1 + e.2.path.length ≤ (encOfd e).flatten.length := by
    intro e
    simp [encOfd, encBytes, le32, leI64, le64]
    omega
  constructor
  · have := mul_length_le_encList (n := 1) encOfd es
      fun e _ => (Nat.le_add_right _ _).trans (hofd e)
    omega
  intro e he
  have := mem_length_le_encList encOfd he
  have := hofd e
  omega

/-- So are mappings. -/
theorem mappings_le_encMemory (m : MemoryManager) :
    8 + 16 * m.mappings.length ≤ (encMemory m).flatten.length := by
  have := mul_length_le_encList (n := 16) encMapping m.mappings
    fun x _ => by simp [encMapping, le32]
  rw [encMemory, List.flatten_cons, List.length_append, le32, length_leBytes]
  omega

/-- The path of an exec is shorter than its section. -/
theorem execPath_le (o : Option Bytes) :
    ∀ path ∈ o, path.length ≤ (encForkExecPath o).flatten.length := by
  rintro path rfl
  rw [encForkExecPath, length_encBytes]
  omega

/-- So are its arguments. -/
theorem execArgv_le (o : Option (List Bytes)) :
    ∀ argv ∈ o, argv.length ≤ (encForkExecArgv o).flatten.length ∧
      ∀ x ∈ argv, x.length ≤ (encForkExecArgv o).flatten.length := by
  rintro argv rfl
  exact strings_le_encList _

/-- Sockets are fewer than their bytes. -/
theorem sockets_le_encSockets (t : SocketTable) : t.entries.length ≤ (encSockets t).flatten.length ∧
      ∀ e ∈ t.entries, e.2.options.length ≤ (encSockets t).flatten.length ∧
        ∀ path ∈ e.2.bindPath, 4 + path.length ≤ (encSockets t).flatten.length := by
  have hsplit : (encSockets t).flatten.length =
      4 + (encList encSocket t.entries).flatten.length := by
    rw [encSockets, List.flatten_cons, List.length_append, le32, length_leBytes]
  have hsocket : ∀ e : ℕ × SocketInfo,
      4 + (encList encOption e.2.options).flatten.length +
        (encBindPath e.2.bindPath).flatten.length ≤ (encSocket e).flatten.length := by
    intro e
    simp only [encSocket, List.flatten_append, List.length_append, List.flatten_cons, le32,
      length_leBytes]
    omega
  refine ⟨?_, fun e he => ?_⟩
  · have := mul_length_le_encList (n := 1) encSocket t.entries fun e _ => by
      have := hsocket e
      omega
    omega
  have hmem := mem_length_le_encList encSocket he
  have he := hsocket e
  have hopt := mul_length_le_encList (n := 1) encOption e.2.options
    fun o _ => by simp [encOption, le32]
  refine ⟨by omega, ?_⟩
  intro path hpath
  have hbind : (encBindPath e.2.bindPath).flatten.length = 4 + path.length := by
    rw [Option.mem_def.mp hpath, encBindPath, length_encBytes]
  omega

/-- The sizes of a state are below those of its bytes. -/
theorem forkSmall_of_lt {n : ℕ} (hn : n ≤ 2 ^ 32) (htotal : (forkBody p).flatten.length < n) :
    ForkSmall n p := by
  have hsec := sections_le_forkBody p
  have hfds := fds_le_encForkFds p.fdTable
  have hofds := ofds_le_encOfds p.ofdTable.entries
  have henv := strings_le_encList p.environ
  have hargv := strings_le_encList p.argv
  have hcwd := length_encBytes p.cwd
  have hmap := mappings_le_encMemory p.memory
  have hpath := execPath_le p.forkExecPath
  have hexec := execArgv_le p.forkExecArgv
  have hact := mul_length_le_encList (n := 1) encFdAction p.forkFdActions
    fun a _ => by cases a <;> simp [encFdAction, le32]
  have hsock := sockets_le_encSockets p.sockets
  refine ⟨by omega, by omega, fun e he => ?_, ⟨by omega, fun x hx => ?_⟩,
    ⟨by omega, fun x hx => ?_⟩, by omega, by omega, fun path hp => ?_,
    fun argv ha => ⟨?_, fun x hx => ?_⟩, by omega, by omega, fun e he => ⟨?_, fun path hp => ?_⟩⟩
  · have := hofds.2 e he
    omega
  · have := henv.2 x hx
    omega
  · have := hargv.2 x hx
    omega
  · have := hpath path hp
    omega
  · have := (hexec argv ha).1
    omega
  · have := (hexec argv ha).2 x hx
    omega
  · have := (hsock.2 e he).1
    omega
  have := (hsock.2 e he).2 path hp
  rw [NO_INDEX]
  omega

/-- **The reader on what the writer wrote**: it builds the child exactly when the parent
is within its bounds. -/
theorem deserialize_serialize (h : serializeForkState p bufLen = .ok bytes) (childPid : ℕ) :
    (WithinCaps p → deserializeForkState bytes childPid = .ok (forkChild p childPid)) ∧
      (¬ WithinCaps p → deserializeForkState bytes childPid = .error .EINVAL) := by
  obtain ⟨hlen, rfl⟩ := writeState_eq_ok h
  have hbuf := bufLen.toNat_lt
  have hread := reads_readFork (forkSmall_of_lt (p := p) le_rfl (by omega)) childPid
    (12 + (forkBody p).flatten.length) []
  rw [List.append_nil] at hread
  refine ⟨fun hcaps => ?_, fun hcaps => ?_⟩
  · rw [deserializeForkState, hread.1 hcaps]
  · rw [deserializeForkState, hread.2 hcaps]

/-- The buffer of a fork, 64 KiB. -/
def FORK_BUF_LEN : UInt32 := 65536

/-- Small strings are within the limits. -/
theorem StringsSmall.within {xs : List Bytes} (h : StringsSmall 65537 xs) :
    StringsWithin 65536 xs :=
  ⟨Nat.le_of_lt_succ h.1, fun x hx => (h.2 x hx).le.trans (by decide)⟩

/-- What fits in the buffer of a fork is within the bounds of the reader. -/
theorem withinCaps_of_serialize (h : serializeForkState p FORK_BUF_LEN = .ok bytes) :
    WithinCaps p := by
  have htotal : 12 + (forkBody p).flatten.length ≤ 65536 := (writeState_eq_ok h).1
  have hsmall : ForkSmall 65537 p := forkSmall_of_lt (by decide) (by omega)
  have hmappings := hsmall.mappings
  refine ⟨Nat.le_of_lt_succ hsmall.fds, Nat.le_of_lt_succ hsmall.ofds,
    fun e he => (hsmall.paths e he).le.trans (by decide), hsmall.environ.within,
    hsmall.argv.within, hsmall.cwd.le.trans (by decide), ?_,
    fun path hp => (hsmall.execPath path hp).le.trans (by decide),
    fun argv ha => (hsmall.execArgv argv ha).within⟩
  rw [MAX_MAPPINGS]
  omega

end PosixKernel
