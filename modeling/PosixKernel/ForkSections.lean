import PosixKernel.Codec

/-!
# The Sections of the Fork State

What a fork writes about its parent and reads back for the child, section by section
(`serialize_fork_state`, `deserialize_fork_state`). Each section has its writer, its
reader, and the image of the written value: what the reader makes of it.

## Main results

* `getAction_signalsImage` — every disposition of the child is the parent's, up to the
  coding of handlers;
* `reads_readForkFds`, `reads_readMemory`, `reads_readFdActions`, `reads_readSockets` —
  each reader returns the image of what was written.
-/

namespace PosixKernel

open ByteCodec

def MAX_FDS : ℕ := 65536
def MAX_OFDS : ℕ := 65536
def MAX_ENV_VARS : ℕ := 65536
def MAX_ARGV : ℕ := 65536

/-- The word that stands for an absent index. -/
def NO_INDEX : ℕ := 0xFFFFFFFF

/-! ### Scalars -/

/-- The identity of a process and a few settings, in the order of the format. -/
structure ForkIds where
  ppid : ℕ
  uid : UInt32
  gid : UInt32
  euid : UInt32
  egid : UInt32
  pgid : UInt32
  sid : UInt32
  umask : UInt32
  nice : Int32

/-- The parent's pid becomes the child's parent pid. -/
def encForkIds (p : Process) : List Bytes :=
  [le32 p.pid, le32 p.uid.toNat, le32 p.gid.toNat, le32 p.euid.toNat, le32 p.egid.toNat,
    le32 p.pgid.toNat, le32 p.sid.toNat, le32 p.umask.toNat, le32 p.nice.toUInt32.toNat,
    le32 p.isSessionLeader.toNat]

/-- A forked child never leads its session, so the last word is dropped. -/
def readForkIds : Reader Errno ForkIds := do
  let ppid ← readNat32
  let uid ← readU32
  let gid ← readU32
  let euid ← readU32
  let egid ← readU32
  let pgid ← readU32
  let sid ← readU32
  let umask ← readU32
  let nice ← readI32
  let _ ← readNat32
  pure { ppid, uid, gid, euid, egid, pgid, sid, umask, nice }

/-- The identities are read back, the number of the process in its low half. -/
theorem reads_readForkIds (p : Process) : Reads .EINVAL readForkIds (encForkIds p).flatten True
      ⟨low32 p.pid, p.uid, p.gid, p.euid, p.egid, p.pgid, p.sid, p.umask, p.nice⟩ := by
  exact Reads.congr ((reads_readNat32 _).bind <| (reads_readU32 _).bind <|
    (reads_readU32 _).bind <| (reads_readU32 _).bind <| (reads_readU32 _).bind <|
    (reads_readU32 _).bind <| (reads_readU32 _).bind <| (reads_readU32 _).bind <|
    (reads_readI32 _).bind <| (reads_readNat32 _).bind_pure) (by simp)

/-! ### Signals -/

/-- The signals whose disposition is not the default one. -/
def nonDefaultSignals (s : SignalState) : List ℕ :=
  (List.range' 1 64).filter fun i =>
    s.getHandler i ≠ .Default || (s.getAction i).flags ≠ 0 || (s.getAction i).mask ≠ 0

def encAction (s : SignalState) (i : ℕ) : List Bytes :=
  [le32 i, le32 (handlerToU32 (s.getAction i).handler).toNat, le32 (s.getAction i).flags.toNat,
    le64 (s.getAction i).mask.toNat]

def encForkSignals (s : SignalState) : List Bytes :=
  le64 s.blocked.toNat :: encList (encAction s) (nonDefaultSignals s)

def readAction : Reader Errno (ℕ × SignalAction) := do
  let signum ← readNat32
  let handler ← readU32
  let flags ← readU32
  let mask ← readU64
  pure (signum, ⟨u32ToHandler handler, flags, mask⟩)

/-- The dispositions that were read; numbers past the last signal are passed over. -/
def actionsOf (entries : List (ℕ × SignalAction)) : ℕ → SignalAction :=
  tableOf 65 .default entries

def readForkSignals : Reader Errno SignalState := do
  let blocked ← readU64
  let entries ← readCapped 64 readAction
  pure (.fromActions (actionsOf entries) blocked)

/-- A disposition as it comes back. -/
def actionImage (a : SignalAction) : SignalAction :=
  ⟨u32ToHandler (handlerToU32 a.handler), a.flags, a.mask⟩

/-- The signal state of the child. -/
def signalsImage (s : SignalState) : SignalState :=
  .fromActions
    (actionsOf ((nonDefaultSignals s).map fun i => (low32 i, actionImage (s.getAction i))))
    s.blocked

/-- The signals are read back as their image. -/
theorem reads_readForkSignals (s : SignalState) :
    Reads .EINVAL readForkSignals (encForkSignals s).flatten True (signalsImage s) := by
  have hlen : (nonDefaultSignals s).length ≤ 64 := (List.length_filter_le _ _).trans (by simp)
  have haction : ∀ i, Reads .EINVAL readAction (encAction s i).flatten True
      (low32 i, actionImage (s.getAction i)) := by
    intro i
    exact Reads.congr ((reads_readNat32 _).bind <| (reads_readU32 _).bind <|
      (reads_readU32 _).bind <| (reads_readU64 _).bind_pure) (by simp)
  refine Reads.congr ((reads_readU64 _).bind <|
    (reads_readCapped 64 (by omega) fun i _ => haction i).bind_pure) ?_
  simp [hlen]

/-- Each disposition of the child is the parent's as it comes back. -/
theorem getAction_signalsImage (s : SignalState) {i : ℕ} (h1 : 1 ≤ i) (h64 : i ≤ 64) :
    (signalsImage s).getAction i = actionImage (s.getAction i) := by
  have hvalid : validSignal i = true := validSignal_iff.mpr ⟨h1, h64⟩
  rw [SignalState.getAction, if_pos hvalid]
  refine tableOf_eq (a := fun i => actionImage (s.getAction i)) (by omega) ?_ ?_
  · intro e he
    obtain ⟨j, hj, rfl⟩ := List.mem_map.mp he
    have hj64 : j < 65 := by
      have := (List.mem_filter.mp hj).1
      rw [List.mem_range'_1] at this
      omega
    rw [low32_of_lt (by omega)]
  intro hnot
  have hdefault : i ∉ nonDefaultSignals s := by
    intro hmem
    refine hnot (List.mem_map.mpr ⟨(low32 i, actionImage (s.getAction i)),
      List.mem_map.mpr ⟨i, hmem, rfl⟩, low32_of_lt (by omega)⟩)
  have hall : s.getHandler i = .Default ∧ (s.getAction i).flags = 0 ∧
      (s.getAction i).mask = 0 := by
    by_contra hne
    refine hdefault (List.mem_filter.mpr ⟨by rw [List.mem_range'_1]; omega, ?_⟩)
    simp only [ne_eq, decide_not, Bool.or_eq_true, Bool.not_eq_true', decide_eq_false_iff_not]
    tauto
  have hhandler : (s.getAction i).handler = .Default := by
    have := hall.1
    rw [SignalState.getHandler, if_pos hvalid] at this
    rw [SignalState.getAction, if_pos hvalid, this]
  simp only [actionImage, hhandler, hall.2.1, hall.2.2, SignalAction.default]
  rfl

/-! ### Descriptor tables -/

def encForkFds (t : FdTable) : List Bytes := le32 t.maxFds :: encList encFd t.entries.entries

/-- Whether a descriptor stays open in a forked child. -/
def FdEntry.survivesFork (e : FdEntry) : Bool := !hasFlag e.fdFlags FD_CLOFORK

/-- Descriptors marked close-on-fork are passed over. -/
def readForkFds : Reader Errno FdTable := do
  let maxFds ← readNat32
  let entries ← readCapped MAX_FDS readFd
  pure ⟨.ofEntries (entries.filter fun e => e.2.survivesFork), maxFds⟩

/-- The descriptor table of the child. -/
def fdTableImage (t : FdTable) : FdTable :=
  ⟨.ofEntries ((t.entries.entries.map fdImage).filter fun e => e.2.survivesFork),
    low32 t.maxFds⟩

/-- Descriptors within the limit are read back as their image. -/
theorem reads_readForkFds {t : FdTable} (h : t.entries.entries.length < 2 ^ 32) :
    Reads .EINVAL readForkFds (encForkFds t).flatten (t.entries.entries.length ≤ MAX_FDS)
      (fdTableImage t) := by
  refine Reads.congr ((reads_readNat32 _).bind <|
    (reads_readCapped MAX_FDS h fun e _ => reads_readFd e).bind_pure) ?_
  simp

def readForkOfds (childPid : ℕ) : Reader Errno OfdTable :=
  SlotTable.ofEntries <$> readCapped MAX_OFDS (readOfd childPid)

/-- The descriptions of the child; their reference counts are the parent's. -/
def ofdTableImage (childPid : ℕ) (t : OfdTable) : OfdTable :=
  .ofEntries (t.entries.map fun e => (low32 e.1, ofdImage childPid e.2))

/-! ### Strings -/

/-- The bounds on a list of strings. -/
def StringsWithin (max : ℕ) (xs : List Bytes) : Prop :=
  xs.length ≤ max ∧ ∀ x ∈ xs, x.length ≤ MAX_STRING_LEN

/-- The lengths of a list of strings and of its items are below a number. -/
def StringsSmall (n : ℕ) (xs : List Bytes) : Prop := xs.length < n ∧ ∀ x ∈ xs, x.length < n

/-- Strings within the limits are read back. -/
theorem reads_readStrings (max : ℕ) {xs : List Bytes} (h : StringsSmall (2 ^ 32) xs) :
    Reads .EINVAL (readCapped max (readBounded MAX_STRING_LEN)) (encList encBytes xs).flatten
      (StringsWithin max xs) xs := by
  have hread := reads_readCapped max h.1 fun x hx => reads_readBounded MAX_STRING_LEN (h.2 x hx)
  rwa [List.map_id'] at hread

/-- Something after its length, with length zero standing for nothing. -/
def readSome {α : Type} (max : ℕ) (rest : ℕ → Reader Errno α) : Reader Errno (Option α) := do
  let n ← readNat32
  if n = 0 then pure none
  else do
    require .EINVAL (n ≤ max)
    some <$> rest n

/-- A counted section is read back, an empty one as none. -/
theorem reads_readSome {α : Type} (max : ℕ) {n : ℕ} (rest : ℕ → Reader Errno α) {cs : Bytes}
    {c : Prop} {a : α} (hn : n < 2 ^ 32) (hzero : n = 0 → cs = [])
    (h : Reads .EINVAL (rest n) cs c a) :
    Reads .EINVAL (readSome max rest) (le32 n ++ cs) (n = 0 ∨ n ≤ max ∧ c)
      (if n = 0 then none else some a) := by
  refine Reads.congr (d := n = 0 ∨ n ≤ max ∧ c)
    (Reads.bind (reads_readNat32 n) (d := n = 0 ∨ n ≤ max ∧ c) ?_) (and_iff_right trivial)
  rw [low32_of_lt hn]
  split_ifs with h0
  · rw [hzero h0]
    exact (Reads.pure none).congr (by simp [h0])
  rw [← List.nil_append cs]
  refine Reads.congr ((reads_require _).bind <| h.map some) ?_
  simp [h0]

def encForkExecPath : Option Bytes → List Bytes
  | some path => encBytes path
  | none => [le32 0]

def encForkExecArgv : Option (List Bytes) → List Bytes
  | some argv => encList encBytes argv
  | none => [le32 0]

def readForkExecPath : Reader Errno (Option Bytes) :=
  ifRemaining 4 none (readSome MAX_PATH_LEN (readBytes .EINVAL))

def readForkExecArgv : Reader Errno (Option (List Bytes)) :=
  ifRemaining 4 none (readSome MAX_ARGV fun n => readMany n (readBounded MAX_STRING_LEN))

/-- An optional list as it comes back: an empty one is taken for none. -/
def nonemptyImage {α : Type} (o : Option (List α)) : Option (List α) :=
  o.filter fun l => l.length ≠ 0

/-- A list that may be missing is read back unless it is empty. -/
theorem reads_nonempty {α : Type} (max : ℕ) (rest : ℕ → Reader Errno (List α)) {l : List α}
    {cs : Bytes} {c : Prop} (hn : l.length < 2 ^ 32) (hzero : l = [] → cs = [] ∧ c)
    (h : Reads .EINVAL (rest l.length) cs c l) :
    Reads .EINVAL (ifRemaining 4 none (readSome max rest)) (le32 l.length ++ cs)
      (l.length ≤ max ∧ c) (nonemptyImage (some l)) := by
  have hread := reads_readSome max rest hn
    (fun h0 => (hzero (List.eq_nil_of_length_eq_zero h0)).1) h
  have hval : nonemptyImage (some l) = if l.length = 0 then none else some l := by
    by_cases h0 : l.length = 0 <;> simp [nonemptyImage, Option.filter, h0]
  rw [hval]
  refine (hread.ifRemaining none (by simp [le32])).congr ⟨?_, .inr⟩
  rintro (h0 | h)
  · exact ⟨by omega, (hzero (List.eq_nil_of_length_eq_zero h0)).2⟩
  · exact h

/-- The path of a pending exec is read back. -/
theorem reads_readForkExecPath {o : Option Bytes} (h : ∀ path ∈ o, path.length < 2 ^ 32) :
    Reads .EINVAL readForkExecPath (encForkExecPath o).flatten
      (∀ path ∈ o, path.length ≤ MAX_PATH_LEN) (nonemptyImage o) := by
  have hsome : ∀ path : Bytes, path.length < 2 ^ 32 →
      Reads .EINVAL readForkExecPath (le32 path.length ++ path)
        (path.length ≤ MAX_PATH_LEN ∧ True) (nonemptyImage (some path)) := fun path hlen =>
    reads_nonempty MAX_PATH_LEN (readBytes .EINVAL) hlen (fun h0 => ⟨h0, trivial⟩)
      (reads_readBytes rfl)
  rcases o with _ | path
  · have hnone := hsome [] (by simp)
    refine Reads.congr (d := ∀ path ∈ (none : Option Bytes), path.length ≤ MAX_PATH_LEN)
      hnone ?_
    simp
  have hpath := hsome path (h path rfl)
  rw [encForkExecPath, encBytes]
  simp only [List.flatten_cons, List.flatten_nil, List.append_nil]
  exact hpath.congr (by simp)

/-- The arguments of a pending exec are read back. -/
theorem reads_readForkExecArgv {o : Option (List Bytes)}
    (h : ∀ argv ∈ o, StringsSmall (2 ^ 32) argv) :
    Reads .EINVAL readForkExecArgv (encForkExecArgv o).flatten
      (∀ argv ∈ o, StringsWithin MAX_ARGV argv) (nonemptyImage o) := by
  have hsome : ∀ argv : List Bytes, StringsSmall (2 ^ 32) argv →
      Reads .EINVAL readForkExecArgv (encList encBytes argv).flatten
        (StringsWithin MAX_ARGV argv) (nonemptyImage (some argv)) := by
    intro argv hsmall
    have hmany := Reads.readMany argv fun x hx =>
      reads_readBounded MAX_STRING_LEN (hsmall.2 x hx)
    rw [List.map_id'] at hmany
    rw [flatten_encList]
    refine reads_nonempty MAX_ARGV _ hsmall.1 ?_ hmany
    rintro rfl
    exact ⟨rfl, by simp⟩
  rcases o with _ | argv
  · have hnone := hsome [] (by simp [StringsSmall])
    refine Reads.congr (d := ∀ argv ∈ (none : Option (List Bytes)), StringsWithin MAX_ARGV argv)
      hnone ?_
    simp [StringsWithin]
  · exact (hsome argv (h argv rfl)).congr (by simp)

/-! ### Memory -/

def encMapping (m : MappedRegion) : List Bytes :=
  [le32 m.addr, le32 m.len, le32 m.prot.toNat, le32 m.flags.toNat]

def readMapping : Reader Errno MappedRegion := do
  let addr ← readNat32
  let len ← readNat32
  let prot ← readU32
  let flags ← readU32
  pure ⟨addr, len, prot, flags⟩

/-- A mapping as it comes back. -/
def mappingImage (m : MappedRegion) : MappedRegion :=
  ⟨low32 m.addr, low32 m.len, m.prot, m.flags⟩

def MAX_MAPPINGS : ℕ := 4096

def encMemory (m : MemoryManager) : List Bytes :=
  le32 m.programBreak :: encList encMapping m.mappings

/-- The child's memory starts from a new manager: only the break and the mappings are
carried over. -/
def readMemory : Reader Errno MemoryManager := do
  let brk ← readNat32
  let mappings ← ifRemaining 4 [] (readCapped MAX_MAPPINGS readMapping)
  pure ((MemoryManager.new.setBrk brk).setMappings mappings)

def memoryImage (m : MemoryManager) : MemoryManager :=
  (MemoryManager.new.setBrk (low32 m.programBreak)).setMappings (m.mappings.map mappingImage)

/-- A list takes at least the four bytes of its length. -/
theorem length_le_encList {α : Type} (enc : α → List Bytes) (xs : List α) :
    4 ≤ (encList enc xs).flatten.length := by
  rw [flatten_encList, List.length_append, le32, length_leBytes]
  omega

/-- Mappings within the limit are read back as their image. -/
theorem reads_readMemory {m : MemoryManager} (h : m.mappings.length < 2 ^ 32) :
    Reads .EINVAL readMemory (encMemory m).flatten (m.mappings.length ≤ MAX_MAPPINGS)
      (memoryImage m) := by
  have hmapping : ∀ x, Reads .EINVAL readMapping (encMapping x).flatten True
      (mappingImage x) := by
    intro x
    exact Reads.congr ((reads_readNat32 _).bind <| (reads_readNat32 _).bind <|
      (reads_readU32 _).bind <| (reads_readU32 _).bind_pure) (by simp)
  refine Reads.congr ((reads_readNat32 _).bind <|
    ((reads_readCapped MAX_MAPPINGS h fun x _ => hmapping x).ifRemaining []
      (length_le_encList encMapping m.mappings)).bind_pure)
    ?_
  simp

/-! ### Descriptor actions -/

/-- An action is a kind and two descriptors; the path of an open has no place in it. -/
def encFdAction : FdAction → List Bytes
  | .Dup2 oldFd newFd => [le32 0, le32 oldFd.toUInt32.toNat, le32 newFd.toUInt32.toNat]
  | .Close fd => [le32 1, le32 fd.toUInt32.toNat, le32 0]
  | .Open fd .. => [le32 2, le32 fd.toUInt32.toNat, le32 0]

def readFdAction : Reader Errno (Option FdAction) := do
  let kind ← readNat32
  let fd1 ← readI32
  let fd2 ← readI32
  pure (if kind = 0 then some (.Dup2 fd1 fd2) else if kind = 1 then some (.Close fd1) else none)

def readFdActions : Reader Errno (List FdAction) :=
  ifRemaining 4 [] ((fun l => l.filterMap id) <$> readList readFdAction)

/-- An action as it comes back: opens are lost. -/
def fdActionImage : FdAction → Option FdAction
  | .Open .. => none
  | a => some a

/-- The file actions are read back, those that open dropped. -/
theorem reads_readFdActions {xs : List FdAction} (h : xs.length < 2 ^ 32) :
    Reads .EINVAL readFdActions (encList encFdAction xs).flatten True
      (xs.filterMap fdActionImage) := by
  have haction : ∀ a, Reads .EINVAL readFdAction (encFdAction a).flatten True
      (fdActionImage a) := by
    intro a
    cases a with
    | Dup2 =>
      exact Reads.congr ((reads_readNat32 0).bind <| (reads_readI32 _).bind <|
        (reads_readI32 _).bind_pure) (by simp)
    | Close =>
      exact Reads.congr ((reads_readNat32 1).bind <| (reads_readI32 _).bind <|
        (reads_readI32 0).bind_pure) (by simp)
    | Open =>
      exact Reads.congr ((reads_readNat32 2).bind <| (reads_readI32 _).bind <|
        (reads_readI32 0).bind_pure) (by simp)
  have hlist := (reads_readList h fun a _ => haction a).map fun l => l.filterMap id
  rw [List.filterMap_map, Function.id_comp] at hlist
  exact (hlist.ifRemaining [] (length_le_encList encFdAction xs)).congr (by simp)

/-! ### Sockets -/

def domainToU32 : SocketDomain → ℕ
  | .Unix => 0
  | .Inet => 1
  | .Inet6 => 2

def u32ToDomain : ℕ → Option SocketDomain
  | 0 => some .Unix
  | 1 => some .Inet
  | 2 => some .Inet6
  | _ => none

def sockTypeToU32 : SocketType → ℕ
  | .Stream => 0
  | .Dgram => 1

def u32ToSockType : ℕ → Option SocketType
  | 0 => some .Stream
  | 1 => some .Dgram
  | _ => none

def sockStateToU32 : SocketState → ℕ
  | .Unbound => 0
  | .Bound => 1
  | .Listening => 2
  | .Connected => 3
  | .Closed => 4

def u32ToSockState : ℕ → Option SocketState
  | 0 => some .Unbound
  | 1 => some .Bound
  | 2 => some .Listening
  | 3 => some .Connected
  | 4 => some .Closed
  | _ => none

/-- A domain is read back. -/
theorem reads_readDomain (d : SocketDomain) :
    Reads .EINVAL (readEnum u32ToDomain) (le32 (domainToU32 d)) True d := by
  cases d <;> exact reads_readEnum (by decide) rfl

/-- A type of socket is read back. -/
theorem reads_readSockType (t : SocketType) :
    Reads .EINVAL (readEnum u32ToSockType) (le32 (sockTypeToU32 t)) True t := by
  cases t <;> exact reads_readEnum (by decide) rfl

/-- A state of a socket is read back. -/
theorem reads_readSockState (s : SocketState) :
    Reads .EINVAL (readEnum u32ToSockState) (le32 (sockStateToU32 s)) True s := by
  cases s <;> exact reads_readEnum (by decide) rfl

/-- An optional index, with the largest word for none. -/
def encIdx (o : Option ℕ) : Bytes := le32 (o.getD NO_INDEX)

def readIdx : Reader Errno (Option ℕ) :=
  (fun n => if n = NO_INDEX then none else some n) <$> readNat32

/-- An optional index as it comes back. -/
def idxImage (o : Option ℕ) : Option ℕ :=
  if low32 (o.getD NO_INDEX) = NO_INDEX then none else some (low32 (o.getD NO_INDEX))

/-- An index is read back as its image. -/
theorem reads_readIdx (o : Option ℕ) : Reads .EINVAL readIdx (encIdx o) True (idxImage o) :=
  (reads_readNat32 _).map _

/-- An optional host connection number, with the largest word for none. -/
def encNetHandle (o : Option Int32) : Bytes := le32 ((o.map (·.toUInt32.toNat)).getD NO_INDEX)

def readNetHandle : Reader Errno (Option Int32) :=
  (fun n => if n = NO_INDEX then none else some (UInt32.ofNat n).toInt32) <$> readNat32

/-- A host connection number as it comes back: `-1` reads as none. -/
def netHandleImage (o : Option Int32) : Option Int32 := o.filter (· ≠ -1)

/-- A handle of a connection is read back as its image. -/
theorem reads_readNetHandle (o : Option Int32) :
    Reads .EINVAL readNetHandle (encNetHandle o) True (netHandleImage o) := by
  have h := (reads_readNat32 ((o.map (·.toUInt32.toNat)).getD NO_INDEX)).map fun n =>
    if n = NO_INDEX then none else some (UInt32.ofNat n).toInt32
  have hval : (if low32 ((o.map (·.toUInt32.toNat)).getD NO_INDEX) = NO_INDEX then none
      else some (UInt32.ofNat (low32 ((o.map (·.toUInt32.toNat)).getD NO_INDEX))).toInt32) =
      netHandleImage o := by
    rcases o with _ | v
    · rfl
    simp only [Option.map_some, Option.getD_some]
    rw [low32_of_lt v.toUInt32.toNat_lt, UInt32.ofNat_toNat]
    have hiff : v.toUInt32.toNat = NO_INDEX ↔ v = -1 := by
      constructor
      · intro hv
        have hu : v.toUInt32 = (-1 : Int32).toUInt32 := UInt32.toNat_inj.mp hv
        simpa using congrArg UInt32.toInt32 hu
      · rintro rfl
        rfl
    by_cases hv : v = -1
    · rw [if_pos (hiff.mpr hv)]
      simp [netHandleImage, Option.filter, hv]
    · rw [if_neg fun h => hv (hiff.mp h)]
      simp [netHandleImage, Option.filter, hv]
  rwa [hval] at h

def encBool (b : Bool) : Bytes := le32 b.toNat

def readBool : Reader Errno Bool := (fun n => n ≠ 0) <$> readNat32

/-- A flag is read back. -/
theorem reads_readBool (b : Bool) : Reads .EINVAL readBool (encBool b) True b := by
  have h := (reads_readNat32 b.toNat).map fun n => decide (n ≠ 0)
  have hval : decide (low32 b.toNat ≠ 0) = b := by cases b <;> rfl
  rwa [hval] at h

def encIpv4 (a : Ipv4) : Bytes := [a.1, a.2.1, a.2.2.1, a.2.2.2]

def readIpv4 : Reader Errno Ipv4 :=
  (fun bs => (bs.getD 0 0, bs.getD 1 0, bs.getD 2 0, bs.getD 3 0)) <$> readBytes .EINVAL 4

/-- An address is read back. -/
theorem reads_readIpv4 (a : Ipv4) : Reads .EINVAL readIpv4 (encIpv4 a) True a :=
  (show Reads Errno.EINVAL (readBytes Errno.EINVAL 4) (encIpv4 a) True (encIpv4 a) from
    reads_readBytes rfl).map _

/-- A port is written as a full word. -/
def readPort : Reader Errno UInt16 := UInt32.toUInt16 <$> readU32

/-- A port is read back. -/
theorem reads_readPort (v : UInt16) : Reads .EINVAL readPort (le32 v.toNat) True v := by
  have h := (reads_readU32 v.toUInt32).map UInt32.toUInt16
  rwa [UInt16.toUInt16_toUInt32, UInt16.toNat_toUInt32] at h

def encOption (o : UInt32 × UInt32 × UInt32) : List Bytes :=
  [le32 o.1.toNat, le32 o.2.1.toNat, le32 o.2.2.toNat]

def readOption : Reader Errno (UInt32 × UInt32 × UInt32) := do
  let level ← readU32
  let optname ← readU32
  let value ← readU32
  pure (level, optname, value)

/-- A socket option is read back. -/
theorem reads_readOption (o : UInt32 × UInt32 × UInt32) :
    Reads .EINVAL readOption (encOption o).flatten True o := by
  exact Reads.congr ((reads_readU32 _).bind <| (reads_readU32 _).bind <|
    (reads_readU32 _).bind_pure) (by simp)

def encBindPath : Option Bytes → List Bytes
  | some path => encBytes path
  | none => [le32 NO_INDEX]

def readBindPath : Reader Errno (Option Bytes) :=
  ifRemaining 4 none (do
    let n ← readNat32
    if n = NO_INDEX then pure none else some <$> readBytes .EINVAL n)

/-- The path a socket is bound to is read back. -/
theorem reads_readBindPath {o : Option Bytes} (h : ∀ path ∈ o, path.length < NO_INDEX) :
    Reads .EINVAL readBindPath (encBindPath o).flatten True o := by
  rcases o with _ | path
  · rw [encBindPath, List.flatten_cons, List.flatten_nil, readBindPath]
    refine Reads.ifRemaining none (Reads.congr (Reads.bind (reads_readNat32 NO_INDEX)
      (d := True) ?_) (and_self_iff)) (by simp [le32])
    exact Reads.pure none
  have hlen := h path rfl
  have hlt : path.length < 2 ^ 32 := hlen.trans (by decide)
  rw [encBindPath, encBytes, readBindPath]
  simp only [List.flatten_cons, List.flatten_nil, List.append_nil]
  refine Reads.ifRemaining none (Reads.congr (Reads.bind (reads_readNat32 path.length)
    (d := True) ?_) (and_self_iff)) (by simp [le32])
  rw [low32_of_lt hlt, if_neg hlen.ne]
  exact (reads_readBytes rfl).map some

/-- The accept queue of the process itself is written as empty, and neither the timeouts
nor the datagrams are written at all. -/
def encSocket (e : ℕ × SocketInfo) : List Bytes :=
  let s := e.2
  [le32 e.1, le32 (domainToU32 s.domain), le32 (sockTypeToU32 s.sockType),
    le32 s.protocol.toNat, le32 (sockStateToU32 s.state), encIdx s.peerIdx,
    encIdx s.recvBufIdx, encIdx s.sendBufIdx, encBool s.shutRd, encBool s.shutWr,
    encNetHandle s.hostNetHandle] ++ encList encOption s.options ++
  [encIpv4 s.bindAddr, le32 s.bindPort.toNat, encIpv4 s.peerAddr, le32 s.peerPort.toNat,
    le32 0, encBool s.globalPipes, encIdx s.sharedBacklogIdx] ++ encBindPath s.bindPath

def readSocket : Reader Errno (ℕ × SocketInfo) := do
  let idx ← readNat32
  let domain ← readEnum u32ToDomain
  let sockType ← readEnum u32ToSockType
  let protocol ← readU32
  let state ← readEnum u32ToSockState
  let peerIdx ← readIdx
  let recvBufIdx ← readIdx
  let sendBufIdx ← readIdx
  let shutRd ← readBool
  let shutWr ← readBool
  let hostNetHandle ← readNetHandle
  let options ← readList readOption
  let bindAddr ← readIpv4
  let bindPort ← readPort
  let peerAddr ← readIpv4
  let peerPort ← readPort
  let _ ← readList readNat32
  let globalPipes ← readBool
  let sharedBacklogIdx ← readIdx
  let bindPath ← readBindPath
  pure (idx,
    { SocketInfo.new domain sockType protocol with
      state, peerIdx, recvBufIdx, sendBufIdx, shutRd, shutWr, hostNetHandle, options,
      bindAddr, bindPort, peerAddr, peerPort, globalPipes, sharedBacklogIdx, bindPath })

/-- A socket as it comes back. -/
def socketImage (s : SocketInfo) : SocketInfo :=
  { SocketInfo.new s.domain s.sockType s.protocol with
    state := s.state
    peerIdx := idxImage s.peerIdx
    recvBufIdx := idxImage s.recvBufIdx
    sendBufIdx := idxImage s.sendBufIdx
    shutRd := s.shutRd
    shutWr := s.shutWr
    hostNetHandle := netHandleImage s.hostNetHandle
    options := s.options
    bindAddr := s.bindAddr
    bindPort := s.bindPort
    peerAddr := s.peerAddr
    peerPort := s.peerPort
    globalPipes := s.globalPipes
    sharedBacklogIdx := idxImage s.sharedBacklogIdx
    bindPath := s.bindPath }

/-- Sizes inside a socket that a 32-bit word can hold. -/
def SocketInfo.Small (s : SocketInfo) : Prop :=
  s.options.length < 2 ^ 32 ∧ ∀ path ∈ s.bindPath, path.length < NO_INDEX

/-- A socket is read back as its image, at its own slot. -/
theorem reads_readSocket {e : ℕ × SocketInfo} (h : e.2.Small) :
    Reads .EINVAL readSocket (encSocket e).flatten True (low32 e.1, socketImage e.2) := by
  have hoptions := reads_readList h.1 fun o _ => reads_readOption o
  rw [List.map_id'] at hoptions
  have hbacklog : Reads .EINVAL (readList readNat32) (le32 0) True [] := by
    have hnone : Reads .EINVAL (readList readNat32)
        (encList (fun n => [le32 n]) ([] : List ℕ)).flatten (∀ x ∈ ([] : List ℕ), True)
        (([] : List ℕ).map low32) := reads_readList (by simp) (by simp)
    exact hnone.congr (by simp)
  simp only [encSocket, readSocket, List.cons_append, List.nil_append, List.append_assoc,
    List.flatten_cons, List.flatten_append]
  exact Reads.congr ((reads_readNat32 _).bind <| (reads_readDomain _).bind <|
    (reads_readSockType _).bind <| (reads_readU32 _).bind <| (reads_readSockState _).bind <|
    (reads_readIdx _).bind <| (reads_readIdx _).bind <| (reads_readIdx _).bind <|
    (reads_readBool _).bind <| (reads_readBool _).bind <| (reads_readNetHandle _).bind <|
    hoptions.bind <| (reads_readIpv4 _).bind <| (reads_readPort _).bind <|
    (reads_readIpv4 _).bind <| (reads_readPort _).bind <| hbacklog.bind <|
    (reads_readBool _).bind <| (reads_readIdx _).bind <| (reads_readBindPath h.2).bind_pure)
    (by simp)

def encSockets (t : SocketTable) : List Bytes :=
  le32 t.slots.length :: encList encSocket t.entries

def readSockets : Reader Errno SocketTable :=
  ifRemaining 8 .empty (do
    let _ ← readNat32
    let entries ← readList readSocket
    pure (.ofEntries entries))

/-- The sockets of the child. -/
def socketsImage (t : SocketTable) : SocketTable :=
  .ofEntries (t.entries.map fun e => (low32 e.1, socketImage e.2))

/-- The sockets are read back as their image. -/
theorem reads_readSockets {t : SocketTable} (h : t.entries.length < 2 ^ 32)
    (hsmall : ∀ e ∈ t.entries, e.2.Small) :
    Reads .EINVAL readSockets (encSockets t).flatten True (socketsImage t) := by
  have hlen : 8 ≤ (encSockets t).flatten.length := by
    have := length_le_encList encSocket t.entries
    rw [encSockets, List.flatten_cons, List.length_append, le32, length_leBytes]
    omega
  refine Reads.ifRemaining .empty ?_ hlen
  rw [encSockets, List.flatten_cons]
  refine Reads.congr ((reads_readNat32 _).bind <|
    (reads_readList h fun e he => reads_readSocket (hsmall e he)).bind_pure) ?_
  simp

end PosixKernel
