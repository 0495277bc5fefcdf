import PosixKernel.Process

/-!
# Paths and Virtual Names

Resolution of paths against the working directory (`path.rs`) and the names that the
kernel serves itself: descriptor aliases, virtual devices, `/proc` (`procfs.rs`) and
`/dev` directories (`devfs.rs`).
-/

namespace PosixKernel

/-- The path separator. -/
def slash : UInt8 := 47

/-- One component of a path under normalisation: `.` and the empty component stand for
nothing, `..` takes the last kept component back. -/
def pushComponent (kept : List Bytes) (component : Bytes) : List Bytes :=
  if component = [] ∨ component = ascii "." then kept
  else if component = ascii ".." then kept.dropLast
  else kept ++ [component]

/-- Normalise an absolute path. -/
def normalizePath (path : Bytes) : Bytes :=
  match (path.splitOn slash).foldl pushComponent [] with
  | [] => [slash]
  | components => components.flatMap (slash :: ·)

/-- Resolve a path against a working directory. -/
def resolvePath (path cwd : Bytes) : Bytes :=
  if path.head? = some slash then normalizePath path
  else
    normalizePath ((if cwd.getLast? = some slash then cwd else cwd ++ [slash]) ++ path)

/-- Parse an unsigned decimal number, refusing values past `limit`. -/
def parseDecimal (limit : ℕ) (bytes : Bytes) : Option ℕ :=
  if bytes = [] then none
  else bytes.foldlM (fun val b =>
    if b < 48 ∨ 57 < b then none
    else if limit < val * 10 + (b.toNat - 48) then none
    else some (val * 10 + (b.toNat - 48))) 0

/-- Parse a table index. -/
def parseAsciiUsize : Bytes → Option ℕ := parseDecimal (2 ^ 64 - 1)

/-- Parse a `u32`. -/
def parseU32 : Bytes → Option ℕ := parseDecimal (2 ^ 32 - 1)

/-- Parse a `u32` and reinterpret it as an `i32`. -/
def parseI32 (bytes : Bytes) : Option ℤ := (parseU32 bytes).map fun v => Int.bmod v (2 ^ 32)

/-- What follows a leading string, if the bytes start with it. -/
def afterPrefix (lead bytes : Bytes) : Option Bytes :=
  if lead.isPrefixOf bytes then some (bytes.drop lead.length) else none

/-- The descriptor that a path is an alias of. -/
def matchDevFd (path : Bytes) : Option ℤ :=
  if path = ascii "/dev/stdin" then some 0
  else if path = ascii "/dev/stdout" then some 1
  else if path = ascii "/dev/stderr" then some 2
  else
    match afterPrefix (ascii "/dev/fd/") path with
    | some num => (parseDecimal (2 ^ 31 - 1) num).map fun n => (n : ℤ)
    | none => none

/-! ### Virtual devices -/

/-- The handle that encodes a device in a description. -/
def VirtualDevice.hostHandle : VirtualDevice → ℤ
  | .Null => -1
  | .Zero => -2
  | .Urandom => -3
  | .Full => -4
  | .Fb0 => -5
  | .Mice => -6
  | .Dsp => -7

/-- The device that a handle encodes. -/
def VirtualDevice.fromHostHandle (h : ℤ) : Option VirtualDevice :=
  if h = -1 then some .Null
  else if h = -2 then some .Zero
  else if h = -3 then some .Urandom
  else if h = -4 then some .Full
  else if h = -5 then some .Fb0
  else if h = -6 then some .Mice
  else if h = -7 then some .Dsp
  else none

/-- The device that a path names. -/
def matchVirtualDevice (path : Bytes) : Option VirtualDevice :=
  if path = ascii "/dev/null" ∨ path = ascii "/dev/console" then some .Null
  else if path = ascii "/dev/zero" then some .Zero
  else if path = ascii "/dev/urandom" ∨ path = ascii "/dev/random" then some .Urandom
  else if path = ascii "/dev/full" then some .Full
  else if path = ascii "/dev/fb0" then some .Fb0
  else if path = ascii "/dev/input/mice" then some .Mice
  else if path = ascii "/dev/dsp" then some .Dsp
  else none

theorem VirtualDevice.hostHandle_neg (d : VirtualDevice) : d.hostHandle < 0 := by
  cases d <;> decide

/-! ### The `/proc` tree -/

def PROCFS_DIR_HANDLE : ℤ := -150
def DEVFS_DIR_HANDLE : ℤ := -160
def PROCFS_BUF_BASE : ℤ := 200

/-- Whether a handle encodes a `/proc` content buffer. -/
def isProcfsBufHandle (h : ℤ) : Bool := h ≤ -PROCFS_BUF_BASE

theorem isProcfsBufHandle_neg {h : ℤ} (hbuf : isProcfsBufHandle h = true) : h < 0 := by
  have : h ≤ -200 := of_decide_eq_true hbuf
  omega

/-- The buffer slot that a handle encodes. -/
def procfsBufIdx (h : ℤ) : ℕ := (-(h + PROCFS_BUF_BASE)).toNat

/-- The handle that encodes a buffer slot. -/
def procfsBufHandle (idx : ℕ) : ℤ := -(PROCFS_BUF_BASE + idx)

/-- A parsed `/proc` path. -/
inductive ProcfsEntry
  | Root | SelfLink | ThreadSelfLink
  | PidDir (pid : ℕ) | FdDir (pid : ℕ) | FdLink (pid : ℕ) (fd : ℤ)
  | FdInfoDir (pid : ℕ) | FdInfo (pid : ℕ) (fd : ℤ)
  | Stat (pid : ℕ) | Status (pid : ℕ) | Cmdline (pid : ℕ) | Environ (pid : ℕ)
  | Maps (pid : ℕ) | Cwd (pid : ℕ) | Exe (pid : ℕ) | Root_ (pid : ℕ)
  | NetDir | NetTcp | NetUnix
  deriving DecidableEq

namespace ProcfsEntry

def isSymlink : ProcfsEntry → Bool
  | SelfLink | ThreadSelfLink | FdLink .. | Cwd _ | Exe _ | Root_ _ => true
  | _ => false

def isDir : ProcfsEntry → Bool
  | Root | PidDir _ | FdDir _ | FdInfoDir _ | NetDir => true
  | _ => false

/-- The process an entry belongs to; zero for the entries of no process. -/
def entryPid : ProcfsEntry → ℕ
  | PidDir pid | FdDir pid | FdLink pid _ | FdInfoDir pid | FdInfo pid _ | Stat pid
  | Status pid | Cmdline pid | Environ pid | Maps pid | Cwd pid | Exe pid | Root_ pid => pid
  | _ => 0

end ProcfsEntry

/-- The sentinel pid of a path component that is no number. -/
def noPid : ℕ := 2 ^ 32 - 1

def matchNetPath (rest : Bytes) : Option ProcfsEntry :=
  if rest = ascii "net" ∨ rest = ascii "net/" then some .NetDir
  else if rest = ascii "net/tcp" then some .NetTcp
  else if rest = ascii "net/unix" then some .NetUnix
  else none

/-- Split a leading pid off a path. -/
def matchPidPath (rest : Bytes) : ℕ × Bytes :=
  let digits := rest.takeWhile (· ≠ slash)
  match parseU32 digits with
  | some pid => (pid, rest.drop (digits.length + 1))
  | none => (noPid, [])

/-- The entries below a process directory. -/
def matchPidSubpath (pid : ℕ) (remainder : Bytes) : Option ProcfsEntry :=
  if pid = noPid then none
  else if remainder = [] then some (.PidDir pid)
  else
    let rem :=
      if remainder.getLast? = some slash ∧ 1 < remainder.length then remainder.dropLast
      else remainder
    if rem = ascii "stat" then some (.Stat pid)
    else if rem = ascii "status" then some (.Status pid)
    else if rem = ascii "cmdline" then some (.Cmdline pid)
    else if rem = ascii "environ" then some (.Environ pid)
    else if rem = ascii "maps" then some (.Maps pid)
    else if rem = ascii "cwd" then some (.Cwd pid)
    else if rem = ascii "exe" then some (.Exe pid)
    else if rem = ascii "root" then some (.Root_ pid)
    else if rem = ascii "fd" then some (.FdDir pid)
    else if rem = ascii "fdinfo" then some (.FdInfoDir pid)
    else
      match afterPrefix (ascii "fd/") rem with
      | some num => (parseI32 num).map (.FdLink pid ·)
      | none =>
        match afterPrefix (ascii "fdinfo/") rem with
        | some num => (parseI32 num).map (.FdInfo pid ·)
        | none => matchNetPath rem

/-- Match what follows `/proc/`. -/
def matchProcfsRest (rest : Bytes) (currentPid : ℕ) : Option ProcfsEntry :=
  match afterPrefix (ascii "self") rest with
  | some [] => some .SelfLink
  | some (b :: after) =>
    if b = slash then matchPidSubpath currentPid after
    else matchPidSubpath (matchPidPath rest).1 (matchPidPath rest).2
  | none =>
    match afterPrefix (ascii "thread-self") rest with
    | some [] => some .ThreadSelfLink
    | some (b :: after) =>
      if b = slash then matchPidSubpath currentPid after
      else matchPidSubpath (matchPidPath rest).1 (matchPidPath rest).2
    | none =>
      if rest = ascii "net" ∨ (afterPrefix (ascii "net/") rest).isSome then matchNetPath rest
      else matchPidSubpath (matchPidPath rest).1 (matchPidPath rest).2

/-- Match a resolved path against the `/proc` tree. -/
def matchProcfs (path : Bytes) (currentPid : ℕ) : Option ProcfsEntry :=
  match afterPrefix (ascii "/proc") path with
  | none => none
  | some [] => some .Root
  | some (b :: rest) =>
    if b ≠ slash then none
    else if rest = [] then some .Root
    else matchProcfsRest rest currentPid

/-- Whether a path is one of the `/dev` directories. -/
def matchDevfsDir (path : Bytes) : Bool :=
  [ascii "/dev", ascii "/dev/pts", ascii "/dev/shm", ascii "/dev/mqueue", ascii "/dev/fd",
    ascii "/dev/input"].contains path

end PosixKernel
