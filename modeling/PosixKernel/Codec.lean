import PosixKernel.Lib.ByteCodec
import PosixKernel.Process

/-!
# The Words of the Process Codec

Process state crosses fork and exec as a little-endian byte buffer (`fork.rs`). This
module has the pieces both formats are made of: words and counted lists, and the sections
they share. A writer is the list of the writes it makes, in order; a reader fails with
`EINVAL`. Each section comes with the value that its reader finds where its writer wrote:
numbers wider than their field come back truncated.

## Main results

* `reads_readCapped` — a counted list reads back if its length and its items are within
  the reader's bounds, and the reader fails otherwise;
* `reads_readOfd`, `reads_readTerminal`, `reads_readRlimits` — the larger sections.
-/

namespace PosixKernel

open ByteCodec

/-! ### Words -/

def le32 (n : ℕ) : Bytes := leBytes 4 n
def le64 (n : ℕ) : Bytes := leBytes 8 n

/-- A signed 64-bit word in two's complement. -/
def leI64 (z : ℤ) : Bytes := le64 (z % 2 ^ 64).toNat

def readNat32 : Reader Errno ℕ := readWord .EINVAL 4
def readU8 : Reader Errno UInt8 := UInt8.ofNat <$> readWord .EINVAL 1
def readU16 : Reader Errno UInt16 := UInt16.ofNat <$> readWord .EINVAL 2
def readU32 : Reader Errno UInt32 := UInt32.ofNat <$> readNat32
def readU64 : Reader Errno UInt64 := UInt64.ofNat <$> readWord .EINVAL 8
def readI32 : Reader Errno Int32 := UInt32.toInt32 <$> readU32
def readI64 : Reader Errno ℤ := (fun n : ℕ => Int.bmod n (2 ^ 64)) <$> readWord .EINVAL 8

/-- What a 32-bit field keeps of a number. -/
def low32 (n : ℕ) : ℕ := n % 2 ^ 32

/-- What fits in 32 bits survives them. -/
theorem low32_of_lt {n : ℕ} (h : n < 2 ^ 32) : low32 n = n := Nat.mod_eq_of_lt h

/-- And nothing else does. -/
theorem low32_eq_self_iff {n : ℕ} : low32 n = n ↔ n < 2 ^ 32 :=
  ⟨fun h => h ▸ Nat.mod_lt n (by decide), low32_of_lt⟩

/-- What a signed 64-bit field keeps of a number. -/
def lowI64 (z : ℤ) : ℤ := Int.bmod z (2 ^ 64)

/-- What fits in 64 signed bits survives them. -/
theorem lowI64_of_range {z : ℤ} (h : -2 ^ 63 ≤ z) (h' : z < 2 ^ 63) : lowI64 z = z :=
  Int.bmod_eq_of_le (by omega) (by omega)

/-- A number is read back in its low half. -/
theorem reads_readNat32 (n : ℕ) : Reads .EINVAL readNat32 (le32 n) True (low32 n) :=
  reads_readWord 4 n

/-- A byte is read back. -/
theorem reads_readU8 (v : UInt8) : Reads .EINVAL readU8 (leBytes 1 v.toNat) True v := by
  have h := (reads_readWord (e := Errno.EINVAL) 1 v.toNat).map UInt8.ofNat
  have hlt : v.toNat < 256 ^ 1 := v.toNat_lt
  rwa [Nat.mod_eq_of_lt hlt, UInt8.ofNat_toNat] at h

/-- Two bytes are read back. -/
theorem reads_readU16 (v : UInt16) : Reads .EINVAL readU16 (leBytes 2 v.toNat) True v := by
  have h := (reads_readWord (e := Errno.EINVAL) 2 v.toNat).map UInt16.ofNat
  have hlt : v.toNat < 256 ^ 2 := v.toNat_lt
  rwa [Nat.mod_eq_of_lt hlt, UInt16.ofNat_toNat] at h

/-- Four bytes are read back. -/
theorem reads_readU32 (v : UInt32) : Reads .EINVAL readU32 (le32 v.toNat) True v := by
  have h := (reads_readNat32 v.toNat).map UInt32.ofNat
  rwa [low32_of_lt v.toNat_lt, UInt32.ofNat_toNat] at h

/-- Eight bytes are read back. -/
theorem reads_readU64 (v : UInt64) : Reads .EINVAL readU64 (le64 v.toNat) True v := by
  have h := (reads_readWord (e := Errno.EINVAL) 8 v.toNat).map UInt64.ofNat
  have hlt : v.toNat < 256 ^ 8 := v.toNat_lt
  rwa [Nat.mod_eq_of_lt hlt, UInt64.ofNat_toNat] at h

/-- A signed number of four bytes is read back. -/
theorem reads_readI32 (v : Int32) : Reads .EINVAL readI32 (le32 v.toUInt32.toNat) True v :=
  (reads_readU32 v.toUInt32).map UInt32.toInt32

/-- One of eight bytes is read back modulo their range. -/
theorem reads_readI64 (z : ℤ) : Reads .EINVAL readI64 (leI64 z) True (lowI64 z) := by
  have h := (reads_readWord (e := Errno.EINVAL) 8 (z % 2 ^ 64).toNat).map
    fun n : ℕ => Int.bmod n (2 ^ 64)
  have hval : Int.bmod (((z % 2 ^ 64).toNat % 256 ^ 8 : ℕ) : ℤ) (2 ^ 64) = lowI64 z := by
    have hcast : (((z % 2 ^ 64).toNat % 256 ^ 8 : ℕ) : ℤ) = z % 2 ^ 64 := by omega
    rw [hcast, lowI64]
    exact Int.emod_bmod ..
  rwa [hval] at h

/-- A 32-bit code for one of finitely many values. -/
def readEnum {α : Type} (decode : ℕ → Option α) : Reader Errno α := do
  let v ← readNat32
  match decode v with
  | some a => pure a
  | none => throw .EINVAL

/-- A code its decoder knows is read back. -/
theorem reads_readEnum {α : Type} {decode : ℕ → Option α} {n : ℕ} {a : α} (hn : n < 2 ^ 32)
    (h : decode n = some a) : Reads .EINVAL (readEnum decode) (le32 n) True a := by
  rw [readEnum, ← List.append_nil (le32 n)]
  refine Reads.congr (Reads.bind (d := True) (reads_readNat32 n) ?_) (and_self_iff)
  rw [low32_of_lt hn, h]
  exact .pure a

/-! ### Byte strings and counted lists -/

/-- A byte string after its length. -/
def encBytes (bs : Bytes) : List Bytes := [le32 bs.length, bs]

/-- A byte string after its length, unless it is too long. -/
def readBounded (max : ℕ) : Reader Errno Bytes := do
  let n ← readNat32
  require .EINVAL (n ≤ max)
  readBytes .EINVAL n

/-- Bytes within the limit are read back. -/
theorem reads_readBounded (max : ℕ) {bs : Bytes} (h : bs.length < 2 ^ 32) :
    Reads .EINVAL (readBounded max) (encBytes bs).flatten (bs.length ≤ max) bs := by
  have hflat : (encBytes bs).flatten = le32 bs.length ++ ([] ++ bs) := by simp [encBytes]
  rw [hflat, readBounded]
  refine Reads.congr ((reads_readNat32 bs.length).bind <| (reads_require _).bind <|
    reads_readBytes (low32_of_lt h).symm) ?_
  simp [low32_of_lt h]

variable {α β : Type}

/-- A list after its length. -/
def encList (enc : α → List Bytes) (xs : List α) : List Bytes :=
  le32 xs.length :: xs.flatMap enc

/-- The bytes of the elements, one after the other. -/
theorem flatten_flatMap (enc : α → List Bytes) (xs : List α) :
    (xs.flatMap enc).flatten = xs.flatMap fun x => (enc x).flatten := by
  induction xs with
  | nil => rfl
  | cons x xs ih => rw [List.flatMap_cons, List.flatten_append, ih, List.flatMap_cons]

/-- A list is its length and the bytes of its elements. -/
theorem flatten_encList (enc : α → List Bytes) (xs : List α) :
    (encList enc xs).flatten = le32 xs.length ++ xs.flatMap fun x => (enc x).flatten := by
  rw [encList, List.flatten_cons, flatten_flatMap]

/-- A list after its length. -/
def readList (r : Reader Errno α) : Reader Errno (List α) := do
  let n ← readNat32
  readMany n r

/-- A list after its length, unless it is too long. -/
def readCapped (max : ℕ) (r : Reader Errno α) : Reader Errno (List α) := do
  let n ← readNat32
  require .EINVAL (n ≤ max)
  readMany n r

section Lists

variable {r : Reader Errno β} {enc : α → List Bytes} {cond : α → Prop} {val : α → β}
  {xs : List α}

/-- A list is read back when each element is. -/
theorem reads_readList (hlen : xs.length < 2 ^ 32)
    (h : ∀ x ∈ xs, Reads .EINVAL r (enc x).flatten (cond x) (val x)) :
    Reads .EINVAL (readList r) (encList enc xs).flatten (∀ x ∈ xs, cond x) (xs.map val) := by
  rw [flatten_encList]
  refine Reads.congr (Reads.bind (reads_readNat32 xs.length) (d := ∀ x ∈ xs, cond x) ?_)
    (and_iff_right trivial)
  rw [low32_of_lt hlen]
  exact Reads.readMany xs h

/-- **A counted list** reads back if its length and its items are within bounds. -/
theorem reads_readCapped (max : ℕ) (hlen : xs.length < 2 ^ 32)
    (h : ∀ x ∈ xs, Reads .EINVAL r (enc x).flatten (cond x) (val x)) :
    Reads .EINVAL (readCapped max r) (encList enc xs).flatten
      (xs.length ≤ max ∧ ∀ x ∈ xs, cond x) (xs.map val) := by
  rw [flatten_encList]
  rw [readCapped, ← List.nil_append (xs.flatMap fun x => (enc x).flatten)]
  refine Reads.congr (Reads.bind (reads_readNat32 xs.length) (Reads.bind (reads_require _)
    (d := ∀ x ∈ xs, cond x) ?_)) ?_
  · rw [low32_of_lt hlen]
    exact Reads.readMany xs h
  · simp [low32_of_lt hlen]

end Lists

/-! ### Enumerations -/

def fileTypeToU32 : FileType → ℕ
  | .Regular => 0
  | .Directory => 1
  | .Pipe => 2
  | .CharDevice => 3
  | .Socket => 4
  | .EventFd => 5
  | .Epoll => 6
  | .TimerFd => 7
  | .SignalFd => 8
  | .MemFd => 9
  | .PtyMaster => 10
  | .PtySlave => 11

def u32ToFileType : ℕ → Option FileType
  | 0 => some .Regular
  | 1 => some .Directory
  | 2 => some .Pipe
  | 3 => some .CharDevice
  | 4 => some .Socket
  | 5 => some .EventFd
  | 6 => some .Epoll
  | 7 => some .TimerFd
  | 8 => some .SignalFd
  | 9 => some .MemFd
  | 10 => some .PtyMaster
  | 11 => some .PtySlave
  | _ => none

/-- A type of file is read back. -/
theorem reads_readFileType (t : FileType) :
    Reads .EINVAL (readEnum u32ToFileType) (le32 (fileTypeToU32 t)) True t := by
  cases t <;> exact reads_readEnum (by decide) rfl

/-- Handlers are coded next to the two fixed dispositions; the sum wraps around. -/
def handlerToU32 : SignalHandler → UInt32
  | .Default => 0
  | .Ignore => 1
  | .Handler ptr => 2 + ptr

def u32ToHandler (v : UInt32) : SignalHandler :=
  if v = 0 then .Default else if v = 1 then .Ignore else .Handler (v - 2)

/-- A handler survives the code unless its address is one of the last two, which wrap
around to the fixed dispositions. -/
theorem u32ToHandler_handlerToU32 (h : SignalHandler) :
    u32ToHandler (handlerToU32 h) = h ↔ ∀ ptr, h = .Handler ptr → ptr.toNat < 2 ^ 32 - 2 := by
  cases h with
  | Default | Ignore => simp [handlerToU32, u32ToHandler]
  | Handler ptr =>
    have hsum : (2 + ptr).toNat = (2 + ptr.toNat) % 2 ^ 32 := UInt32.toNat_add 2 ptr
    have hlt := ptr.toNat_lt
    have hbound : (∀ q, SignalHandler.Handler ptr = .Handler q → q.toNat < 2 ^ 32 - 2) ↔
        ptr.toNat < 2 ^ 32 - 2 := by simp
    rw [hbound]
    show (if 2 + ptr = 0 then SignalHandler.Default else if 2 + ptr = 1 then .Ignore
      else .Handler (2 + ptr - 2)) = .Handler ptr ↔ _
    by_cases hptr : ptr.toNat < 2 ^ 32 - 2
    · have h0 : ¬ 2 + ptr = 0 := fun h => by
        have := congrArg UInt32.toNat h
        rw [hsum] at this
        simp at this
        omega
      have h1 : ¬ 2 + ptr = 1 := fun h => by
        have := congrArg UInt32.toNat h
        rw [hsum] at this
        simp at this
        omega
      rw [if_neg h0, if_neg h1, UInt32.add_comm, UInt32.add_sub_cancel]
      exact iff_of_true rfl hptr
    have hcase : 2 + ptr = 0 ∨ 2 + ptr = 1 := by
      rw [← UInt32.toNat_inj, ← UInt32.toNat_inj, hsum]
      simp
      omega
    refine iff_of_false ?_ hptr
    rcases hcase with h | h <;> simp [h]

/-- Enter numbered values in a table of defaults, passing over numbers beyond a bound. -/
def tableOf {α : Type} (bound : ℕ) (d : α) (entries : List (ℕ × α)) : ℕ → α :=
  entries.foldl (fun f e => if e.1 < bound then Function.update f e.1 e.2 else f) fun _ => d

/-- A table takes the last entry last, if it is within the bound. -/
theorem tableOf_concat {α : Type} (bound : ℕ) (d : α) (entries : List (ℕ × α)) (e : ℕ × α) :
    tableOf bound d (entries ++ [e]) =
      if e.1 < bound then Function.update (tableOf bound d entries) e.1 e.2
      else tableOf bound d entries := by
  rw [tableOf, List.foldl_append]
  rfl

/-- Beyond the bound a table has the default. -/
theorem tableOf_of_le {α : Type} {bound i : ℕ} (hi : bound ≤ i) (d : α)
    (entries : List (ℕ × α)) : tableOf bound d entries i = d := by
  induction entries using List.reverseRecOn with
  | nil => rfl
  | append_singleton entries e ih =>
    rw [tableOf_concat]
    split
    · rw [Function.update_of_ne (by omega), ih]
    · exact ih

/-- A table made of the entries of an array, the defaults left out, is the array. -/
theorem tableOf_eq {α : Type} {bound i : ℕ} {d : α} {entries : List (ℕ × α)} {a : ℕ → α}
    (hi : i < bound) (ha : ∀ e ∈ entries, e.2 = a e.1)
    (hdef : i ∉ entries.map Prod.fst → a i = d) : tableOf bound d entries i = a i := by
  induction entries using List.reverseRecOn with
  | nil => exact (hdef (by simp)).symm
  | append_singleton entries e ih =>
    rw [tableOf_concat]
    by_cases hei : e.1 = i
    · rw [if_pos (hei ▸ hi), hei, Function.update_self, ha e (by simp), hei]
    have hrest : tableOf bound d entries i = a i :=
      ih (fun e' he' => ha e' (List.mem_append_left _ he')) fun h => hdef (by
        rw [List.map_append, List.mem_append]
        rintro (h' | h')
        · exact h h'
        · simp at h'
          exact hei h'.symm)
    split
    · rw [Function.update_of_ne (Ne.symm hei), hrest]
    · exact hrest

/-! ### Descriptors and descriptions -/

def encFd (e : ℕ × FdEntry) : List Bytes :=
  [le32 e.1, le32 e.2.ofdRef, le32 e.2.fdFlags.toNat]

def readFd : Reader Errno (ℕ × FdEntry) := do
  let fd ← readNat32
  let ofdRef ← readNat32
  let fdFlags ← readU32
  pure (fd, ⟨ofdRef, fdFlags⟩)

/-- A descriptor entry as it comes back. -/
def fdImage (e : ℕ × FdEntry) : ℕ × FdEntry := (low32 e.1, ⟨low32 e.2.ofdRef, e.2.fdFlags⟩)

/-- A descriptor is read back as its image. -/
theorem reads_readFd (e : ℕ × FdEntry) :
    Reads .EINVAL readFd (encFd e).flatten True (fdImage e) := by
  exact Reads.congr ((reads_readNat32 _).bind <| (reads_readNat32 _).bind <|
    (reads_readU32 _).bind_pure) (by simp)

def MAX_PATH_LEN : ℕ := 1048576
def MAX_STRING_LEN : ℕ := 1048576

def encOfd (e : ℕ × OpenFileDesc) : List Bytes :=
  [le32 e.1, le32 (fileTypeToU32 e.2.fileType), le32 e.2.statusFlags.toNat,
    leI64 e.2.hostHandle, leI64 e.2.offset, le32 e.2.refCount] ++ encBytes e.2.path

def readOfd (ownerPid : ℕ) : Reader Errno (ℕ × OpenFileDesc) := do
  let idx ← readNat32
  let fileType ← readEnum u32ToFileType
  let statusFlags ← readU32
  let hostHandle ← readI64
  let offset ← readI64
  let refCount ← readNat32
  let path ← readBounded MAX_PATH_LEN
  pure (idx, ⟨fileType, statusFlags, hostHandle, offset, refCount, ownerPid, path, -1, 0, 0⟩)

/-- A description as it comes back: a pending directory iteration is not carried over. -/
def ofdImage (ownerPid : ℕ) (o : OpenFileDesc) : OpenFileDesc where
  fileType := o.fileType
  statusFlags := o.statusFlags
  hostHandle := lowI64 o.hostHandle
  offset := lowI64 o.offset
  refCount := low32 o.refCount
  ownerPid := ownerPid
  path := o.path
  dirHostHandle := -1
  dirSynthState := 0
  dirEntryOffset := 0

/-- A description is read back as its image. -/
theorem reads_readOfd (ownerPid : ℕ) {e : ℕ × OpenFileDesc} (h : e.2.path.length < 2 ^ 32) :
    Reads .EINVAL (readOfd ownerPid) (encOfd e).flatten (e.2.path.length ≤ MAX_PATH_LEN)
      (low32 e.1, ofdImage ownerPid e.2) := by
  exact Reads.congr ((reads_readNat32 _).bind <| (reads_readFileType _).bind <|
    (reads_readU32 _).bind <| (reads_readI64 _).bind <| (reads_readI64 _).bind <|
    (reads_readNat32 _).bind <| (reads_readBounded _ h).bind_pure) (by simp)

/-! ### Limits and the terminal -/

def encRlimits (r : Fin RLIM_NLIMITS → UInt64 × UInt64) : List Bytes :=
  (List.finRange RLIM_NLIMITS).flatMap fun i => [le64 (r i).1.toNat, le64 (r i).2.toNat]

def readRlimit : Reader Errno (UInt64 × UInt64) := do
  let soft ← readU64
  let hard ← readU64
  pure (soft, hard)

def readRlimits : Reader Errno (Fin RLIM_NLIMITS → UInt64 × UInt64) := do
  let pairs ← readMany RLIM_NLIMITS readRlimit
  pure fun i => pairs.getD i (0, 0)

/-- The limits are read back. -/
theorem reads_readRlimits (r : Fin RLIM_NLIMITS → UInt64 × UInt64) :
    Reads .EINVAL readRlimits (encRlimits r).flatten True r := by
  have hpair : ∀ i, Reads .EINVAL readRlimit
      ([le64 (r i).1.toNat, le64 (r i).2.toNat] : List Bytes).flatten True (r i) := by
    intro i
    exact Reads.congr ((reads_readU64 _).bind <| (reads_readU64 _).bind_pure) (by simp)
  have hall := (Reads.readMany (List.finRange RLIM_NLIMITS) fun i _ => hpair i).bind_pure
    (f := fun pairs (i : Fin RLIM_NLIMITS) => pairs.getD i (0, 0))
  rw [List.length_finRange] at hall
  have hval : (fun i : Fin RLIM_NLIMITS =>
      ((List.finRange RLIM_NLIMITS).map r).getD i (0, 0)) = r := by
    funext i
    simp [List.getD_eq_getElem?_getD]
  rw [hval] at hall
  rw [encRlimits, flatten_flatMap]
  exact hall.congr (by simp)

def encTerminal (t : TerminalState) : List Bytes :=
  [le32 t.cIflag.toNat, le32 t.cOflag.toNat, le32 t.cCflag.toNat, le32 t.cLflag.toNat,
    List.ofFn t.cCc, leBytes 2 t.wsRow.toNat, leBytes 2 t.wsCol.toNat,
    leBytes 2 t.wsXpixel.toNat, leBytes 2 t.wsYpixel.toNat, leBytes 1 t.cLine.toNat,
    le32 t.cIspeed.toNat, le32 t.cOspeed.toNat, le32 t.sessionId.toUInt32.toNat]

/-- The last four fields are optional in the format. -/
def readTerminal : Reader Errno TerminalState := do
  let cIflag ← readU32
  let cOflag ← readU32
  let cCflag ← readU32
  let cLflag ← readU32
  let cc ← readBytes .EINVAL NCCS
  let wsRow ← readU16
  let wsCol ← readU16
  let wsXpixel ← readU16
  let wsYpixel ← readU16
  let cLine ← orDefault 0 readU8
  let cIspeed ← orDefault 0o0000017 readU32
  let cOspeed ← orDefault 0o0000017 readU32
  let sessionId ← orDefault 0 readI32
  pure
    { cIflag, cOflag, cCflag, cLflag, cLine, cCc := fun i => cc.getD i 0, cIspeed, cOspeed,
      wsRow, wsCol, wsXpixel, wsYpixel, foregroundPgid := 1, sessionId }

/-- The terminal is read back with the first group in the foreground. -/
theorem reads_readTerminal (t : TerminalState) :
    Reads .EINVAL readTerminal (encTerminal t).flatten True { t with foregroundPgid := 1 } := by
  have hcc : t.cCc = fun i : Fin NCCS => (List.ofFn t.cCc).getD i 0 := by
    funext i
    simp [List.getD_eq_getElem?_getD]
  have hval : ({ t with foregroundPgid := 1 } : TerminalState) =
      { cIflag := t.cIflag, cOflag := t.cOflag, cCflag := t.cCflag, cLflag := t.cLflag,
        cLine := t.cLine, cCc := fun i => (List.ofFn t.cCc).getD i 0, cIspeed := t.cIspeed,
        cOspeed := t.cOspeed, wsRow := t.wsRow, wsCol := t.wsCol, wsXpixel := t.wsXpixel,
        wsYpixel := t.wsYpixel, foregroundPgid := 1, sessionId := t.sessionId } := by
    rw [← hcc]
  rw [hval]
  exact Reads.congr ((reads_readU32 _).bind <| (reads_readU32 _).bind <| (reads_readU32 _).bind <|
    (reads_readU32 _).bind <| (reads_readBytes (by simp)).bind <| (reads_readU16 _).bind <|
    (reads_readU16 _).bind <| (reads_readU16 _).bind <| (reads_readU16 _).bind <|
    ((reads_readU8 _).orDefault _).bind <| ((reads_readU32 _).orDefault _).bind <|
    ((reads_readU32 _).orDefault _).bind <| ((reads_readI32 _).orDefault _).bind_pure) (by simp)

end PosixKernel
