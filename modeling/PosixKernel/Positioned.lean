import PosixKernel.Paths

/-!
# Reading and Writing at an Offset

`pread` and `pwrite` against `lseek` followed by `read` or `write` (`syscalls.rs`), on a host
file, a memory file and a file of `/proc`. The first two move the position of the host there and
back. They do so whatever the descriptor is of, so that the host is asked about handles it does
not know; a call that fails after the first move leaves the position where it is; the way back is
to the offset of the description, which the host need not be at; and what `write` does before it
writes is not done.

Memory files and files of `/proc` are told apart by negative handles, and so are the directories of
`/proc` and `/dev`. The handles of memory files run into the others: `lseek` takes two of them for
directories, and `read` takes those from the two hundredth on for files of `/proc`.

## Main results

* `Opened.positioned_iff` — when the two agree.
-/

namespace PosixKernel

/-- A file of the host: its position, the calls that fail, how many bytes after the first a write
takes, and what was written where. -/
structure SeekFile where
  handle : ℕ
  data : Bytes
  pos : ℤ
  seekFails : ℤ → Option Errno
  endFails : Option Errno
  readFails : Option Errno
  writeFails : Option Errno
  more : ℕ
  written : List (ℤ × Bytes)

/-- The bytes a write takes. -/
def SeekFile.taken (f : SeekFile) (buf : Bytes) : Bytes := buf.take (f.more + 1)

/-- The file after a write at a position. -/
def SeekFile.put (f : SeekFile) (pos : ℤ) (buf : Bytes) : SeekFile :=
  { f with
    pos := pos + (f.taken buf).length
    written := if buf = [] then f.written else f.written ++ [(pos, f.taken buf)] }

/-- What a descriptor is of: a file of the host, a memory file with its number, or a file of
`/proc` with the number of its snapshot. -/
inductive Storage
  | host (f : SeekFile)
  | memfd (idx : ℕ) (data : Bytes)
  | procfs (idx : ℕ)

/-- The handle that a description carries. -/
def Storage.hostHandle : Storage → ℤ
  | host f => f.handle
  | memfd idx _ => slotHandle idx
  | procfs idx => procfsBufHandle idx

/-- A handle that stands for a directory of `/proc` or `/dev`. -/
def isDirHandle (h : ℤ) : Bool := h = PROCFS_DIR_HANDLE || h = DEVFS_DIR_HANDLE

/-- A description, with the snapshots of its process and the limit on the size of files. -/
structure Opened where
  storage : Storage
  procfsBufs : ℕ → Option Bytes
  offset : ℤ
  statusFlags : UInt32
  fsizeLimit : Option ℕ

/-- The position of the host. -/
def Storage.pos : Storage → Option ℤ
  | host f => some f.pos
  | memfd .. | procfs _ => none

/-- What was written, with the place. -/
def Storage.writes : Storage → List (ℤ × Bytes)
  | host f => f.written
  | memfd _ data => [(0, data)]
  | procfs _ => []

namespace Opened

def unreadable (d : Opened) : Bool := d.statusFlags &&& O_ACCMODE = O_WRONLY
def unwritable (d : Opened) : Bool := d.statusFlags &&& O_ACCMODE = O_RDONLY
def appends (d : Opened) : Bool := hasFlag d.statusFlags O_APPEND

/-- The limit on the size of files is passed. -/
def passes : Option ℕ → ℤ → Bool
  | none, _ => false
  | some limit, stop => (limit : ℤ) < stop

/-- Move the offset of the description alone. -/
def seekTo (d : Opened) (offset : ℤ) : Except Errno ℤ × Opened :=
  if offset < 0 then (.error .EINVAL, d) else (.ok offset, { d with offset })

/-- `lseek` from the start. The tests on the handle come first, whatever the descriptor is of. -/
def lseek (d : Opened) (offset : ℤ) : Except Errno ℤ × Opened :=
  if isDirHandle d.storage.hostHandle then (.ok offset, { d with offset })
  else if isProcfsBufHandle d.storage.hostHandle then d.seekTo offset
  else
    match d.storage with
    | .memfd .. => d.seekTo offset
    | .procfs _ => (.error .EBADF, d)
    | .host f =>
      match f.seekFails offset with
      | some e => (.error e, d)
      | none => seekTo { d with storage := .host { f with pos := offset } } offset

/-- The bytes at the offset of the description; a negative one is beyond every end. -/
def readFrom (d : Opened) (data : Bytes) (n : ℕ) : Except Errno Bytes × Opened :=
  let bytes := if d.offset < 0 then [] else (data.drop d.offset.toNat).take n
  (.ok bytes, { d with offset := d.offset + bytes.length })

def read (d : Opened) (n : ℕ) : Except Errno Bytes × Opened :=
  if d.unreadable then (.error .EBADF, d)
  else if isProcfsBufHandle d.storage.hostHandle then
    match d.procfsBufs (procfsBufIdx d.storage.hostHandle) with
    | none => (.error .EBADF, d)
    | some data => d.readFrom data n
  else
    match d.storage with
    | .memfd _ data => d.readFrom data n
    | .procfs _ => (.error .EBADF, d)
    | .host f =>
      match f.readFails with
      | some e => (.error e, d)
      | none =>
        let bytes := (f.data.drop f.pos.toNat).take n
        (.ok bytes,
          { d with
            storage := .host { f with pos := f.pos + bytes.length }
            offset := d.offset + bytes.length })

/-- Hand bytes to the host. -/
def hostWrite (d : Opened) (f : SeekFile) (buf : Bytes) : Except Errno ℕ × Opened :=
  match f.writeFails with
  | some e => (.error e, { d with storage := .host f })
  | none =>
    (.ok (f.taken buf).length,
      { d with
        storage := .host (f.put f.pos buf)
        offset := d.offset + (f.taken buf).length })

/-- `write`. The host does not know the handle of a file of `/proc`, and a memory file cannot be
written before its start: the kernel traps. -/
def write (d : Opened) (buf : Bytes) : Option (Except Errno ℕ × Opened) :=
  if d.unwritable then some (.error .EBADF, d)
  else if buf = [] then some (.ok 0, d)
  else
    match d.storage with
    | .memfd idx data =>
      if d.offset < 0 then none
      else
        let start := d.offset.toNat
        some (.ok buf.length,
          { d with
            storage := .memfd idx ((data ++ List.replicate (start - data.length) 0).take start ++
              buf ++ data.drop (start + buf.length))
            offset := d.offset + buf.length })
    | .procfs _ => some (.error .EBADF, d)
    | .host f =>
      if d.appends then
        match f.endFails with
        | some e => some (.error e, d)
        | none =>
          let d := { d with
            storage := .host { f with pos := f.data.length }
            offset := f.data.length }
          some (if passes d.fsizeLimit (d.offset + buf.length) then (.error .EFBIG, d)
            else d.hostWrite { f with pos := f.data.length } buf)
      else some (if passes d.fsizeLimit (d.offset + buf.length) then (.error .EFBIG, d)
        else d.hostWrite f buf)

/-- Go back to the offset of the description. -/
def restore {α : Type} (d : Opened) (f : SeekFile) (reply : α) : Except Errno α × Opened :=
  match f.seekFails d.offset with
  | some e => (.error e, { d with storage := .host f })
  | none => (.ok reply, { d with storage := .host { f with pos := d.offset } })

def pread (d : Opened) (n : ℕ) (offset : ℤ) : Except Errno Bytes × Opened :=
  if offset < 0 then (.error .EINVAL, d)
  else if d.unreadable then (.error .EBADF, d)
  else
    match d.storage with
    | .memfd .. | .procfs _ => (.error .EBADF, d)
    | .host f =>
      match f.seekFails offset, f.readFails with
      | some e, _ => (.error e, d)
      | none, some e => (.error e, { d with storage := .host { f with pos := offset } })
      | none, none => d.restore f ((f.data.drop offset.toNat).take n)

def pwrite (d : Opened) (buf : Bytes) (offset : ℤ) : Except Errno ℕ × Opened :=
  if offset < 0 then (.error .EINVAL, d)
  else if d.unwritable then (.error .EBADF, d)
  else
    match d.storage with
    | .memfd .. | .procfs _ => (.error .EBADF, d)
    | .host f =>
      match f.seekFails offset, f.writeFails with
      | some e, _ => (.error e, d)
      | none, some e => (.error e, { d with storage := .host { f with pos := offset } })
      | none, none => d.restore (f.put offset buf) (f.taken buf).length

/-- `lseek`, then another call, which may trap. -/
def afterLseek {α : Type} (d : Opened) (offset : ℤ)
    (call : Opened → Option (Except Errno α × Opened)) : Option (Except Errno α × Opened) :=
  match d.lseek offset with
  | (.error e, d) => some (.error e, d)
  | (.ok _, d) => call d

/-- **A call at an offset is right**: it transfers what the other does after `lseek`, and leaves
the offset and the position of the host. -/
def Agrees {α : Type} (d : Opened) (r : Except Errno α × Opened)
    (s : Option (Except Errno α × Opened)) : Prop :=
  s.map (fun t => (t.1.toOption, t.2.storage.writes)) = some (r.1.toOption, r.2.storage.writes) ∧
    r.2.offset = d.offset ∧ r.2.storage.pos = d.storage.pos

/-- When the call fails on the way, or gets back. -/
def Returns (d : Opened) (f : SeekFile) (offset : ℤ) (fails : Option Errno) : Prop :=
  f.seekFails offset ≠ none ∨ fails ≠ none ∧ offset = f.pos ∨
    fails = none ∧ f.seekFails d.offset = none ∧ d.offset = f.pos

/-- Where `write` puts its bytes after `lseek`. -/
def start (d : Opened) (f : SeekFile) (offset : ℤ) : ℤ :=
  if d.appends then f.data.length else offset

/-- `write` gets to the host, which takes the bytes. -/
def Goes (d : Opened) (f : SeekFile) (buf : Bytes) (offset : ℤ) : Bool :=
  f.writeFails = none && (!d.appends || f.endFails = none) &&
    !passes d.fsizeLimit (d.start f offset + buf.length)

/-- `lseek` refuses an offset before the start. -/
def Refused (d : Opened) (offset : ℤ) : Prop :=
  offset < 0 ∧ isDirHandle d.storage.hostHandle = false

/-- The handle is that of a snapshot that is not there. -/
def Missing (d : Opened) : Prop :=
  isProcfsBufHandle d.storage.hostHandle = true ∧
    d.procfsBufs (procfsBufIdx d.storage.hostHandle) = none

/-- **The condition for `pread`.** -/
def PreadSafe (d : Opened) (offset : ℤ) : Prop :=
  d.Refused offset ∨ d.unreadable = true ∨ d.Missing ∨
    ∃ f, d.storage = .host f ∧ d.Returns f offset f.readFails

/-- **The condition for `pwrite`**: also, `write` would put the bytes at the offset. -/
def PwriteSafe (d : Opened) (buf : Bytes) (offset : ℤ) : Prop :=
  d.Refused offset ∨ d.unwritable = true ∨ (∃ idx, d.storage = .procfs idx ∧ buf ≠ []) ∨
    ∃ f, d.storage = .host f ∧ d.Returns f offset f.writeFails ∧
      (f.seekFails offset = none → if f.writeFails = none then
        buf ≠ [] → d.Goes f buf offset = true ∧ offset = d.start f offset else buf ≠ [])

/-! ### Handles -/

theorem isDirHandle_iff {h : ℤ} : isDirHandle h = true ↔ h = -150 ∨ h = -160 := by
  rw [isDirHandle, Bool.or_eq_true, decide_eq_true_iff, decide_eq_true_iff]
  rfl

theorem isProcfsBufHandle_iff {h : ℤ} : isProcfsBufHandle h = true ↔ h ≤ -200 := by
  rw [isProcfsBufHandle, decide_eq_true_iff]
  rfl

/-- The handles of the host are not negative. -/
@[simp] theorem isDirHandle_host (f : SeekFile) :
    isDirHandle (Storage.host f).hostHandle = false := by
  rw [Bool.eq_false_iff, ne_eq, isDirHandle_iff, Storage.hostHandle]
  omega

@[simp] theorem isProcfsBufHandle_host (f : SeekFile) :
    isProcfsBufHandle (Storage.host f).hostHandle = false := by
  rw [Bool.eq_false_iff, ne_eq, isProcfsBufHandle_iff, Storage.hostHandle]
  omega

/-- The handle of a file of `/proc` is that of its snapshot. -/
@[simp] theorem isProcfsBufHandle_procfs (idx : ℕ) :
    isProcfsBufHandle (Storage.procfs idx).hostHandle = true := by
  rw [isProcfsBufHandle_iff, Storage.hostHandle, procfsBufHandle, PROCFS_BUF_BASE]
  omega

/-- No handle is of a directory and of a snapshot. -/
theorem isProcfsBufHandle_of_isDirHandle {h : ℤ} (hdir : isDirHandle h = true) :
    isProcfsBufHandle h = false := by
  rw [Bool.eq_false_iff, ne_eq, isProcfsBufHandle_iff]
  rw [isDirHandle_iff] at hdir
  omega

@[simp] theorem isDirHandle_procfs (idx : ℕ) :
    isDirHandle (Storage.procfs idx).hostHandle = false := by
  by_contra hdir
  have := isProcfsBufHandle_of_isDirHandle (Bool.eq_true_of_not_eq_false hdir)
  simp at this

/-! ### Where `lseek` refuses -/

/-- What `lseek` does to what is not a file of the host. -/
theorem lseek_of_inner {d : Opened} (h : ∀ f, d.storage ≠ .host f) (offset : ℤ) :
    d.lseek offset = if isDirHandle d.storage.hostHandle then (.ok offset, { d with offset })
      else d.seekTo offset := by
  obtain ⟨storage, bufs, own, flags, limit⟩ := d
  cases storage with
  | host f => exact absurd rfl (h f)
  | memfd idx data => simp [lseek]
  | procfs idx => simp [lseek]

/-- Where `lseek` refuses, there is no reading and no writing. -/
theorem agrees_refused {α : Type} {d : Opened} {offset : ℤ} (h : d.Refused offset)
    (call : Opened → Option (Except Errno α × Opened)) :
    d.Agrees (.error .EINVAL, d) (d.afterLseek offset call) := by
  obtain ⟨hneg, hdir⟩ := h
  rcases hst : d.storage with f | ⟨idx, data⟩ | idx
  · cases hs : f.seekFails offset <;>
      simp [Agrees, afterLseek, lseek, seekTo, hst, hneg, hs, Storage.writes, Except.toOption]
  all_goals
    rw [Agrees, afterLseek, lseek_of_inner (by simp [hst]), hdir]
    simp [seekTo, hneg, Except.toOption]

/-- Where it does not, a call at an offset that is answered with an error is right if the other
is as well. -/
theorem agrees_error {α : Type} {d : Opened} (h : ∀ f, d.storage ≠ .host f) {offset : ℤ}
    (hrefused : ¬ d.Refused offset) {e : Errno}
    (call : Opened → Option (Except Errno α × Opened)) :
    d.Agrees (.error e, d) (d.afterLseek offset call) ↔
      (call { d with offset }).map (fun t => (t.1.toOption, t.2.storage.writes)) =
        some (none, d.storage.writes) := by
  have hseek : d.lseek offset = (.ok offset, { d with offset }) := by
    rw [lseek_of_inner h]
    cases hdir : isDirHandle d.storage.hostHandle with
    | true => rfl
    | false => exact if_neg fun hneg => hrefused ⟨hneg, hdir⟩
  rw [Agrees, afterLseek, hseek]
  simp [Except.toOption]

/-! ### Reading and writing -/

/-- Reading what is not a file of the host's at an offset is an error. -/
theorem pread_of_inner {d : Opened} (h : ∀ f, d.storage ≠ .host f) (n : ℕ) (offset : ℤ) :
    ∃ e, d.pread n offset = (.error e, d) := by
  rw [pread]
  split_ifs
  · exact ⟨_, rfl⟩
  · exact ⟨_, rfl⟩
  rcases hst : d.storage with f | _ | _
  · exact absurd hst (h f)
  all_goals exact ⟨_, rfl⟩

/-- Writing what is not a file of the host's at an offset is an error. -/
theorem pwrite_of_inner {d : Opened} (h : ∀ f, d.storage ≠ .host f) (buf : Bytes) (offset : ℤ) :
    ∃ e, d.pwrite buf offset = (.error e, d) := by
  rw [pwrite]
  split_ifs
  · exact ⟨_, rfl⟩
  · exact ⟨_, rfl⟩
  rcases hst : d.storage with f | _ | _
  · exact absurd hst (h f)
  all_goals exact ⟨_, rfl⟩

/-- Reading from a file of the host. -/
theorem agrees_pread_host {f : SeekFile} (bufs : ℕ → Option Bytes) (own : ℤ) (flags : UInt32)
    (limit : Option ℕ) (n : ℕ) {offset : ℤ} (hneg : ¬ offset < 0) :
    let d : Opened := ⟨.host f, bufs, own, flags, limit⟩
    d.Agrees (d.pread n offset) (d.afterLseek offset fun d => some (d.read n)) ↔
      d.PreadSafe offset := by
  by_cases hmode : flags &&& O_ACCMODE = O_WRONLY <;> cases hs : f.seekFails offset <;>
    cases hr : f.readFails <;> cases hb : f.seekFails own <;>
    simp [Agrees, pread, afterLseek, lseek, seekTo, read, restore, PreadSafe, Refused, Missing,
      Returns, unreadable, hmode, hneg, hs, hr, hb, Storage.writes, Storage.pos, Except.toOption]

/-- When reading at an offset is a seek and a read. -/
theorem agrees_pread (d : Opened) (n : ℕ) (offset : ℤ) :
    d.Agrees (d.pread n offset) (d.afterLseek offset fun d => some (d.read n)) ↔
      d.PreadSafe offset := by
  by_cases hrefused : d.Refused offset
  · have h := agrees_refused hrefused fun d => some (d.read n)
    simpa [pread, PreadSafe, hrefused, hrefused.1] using h
  by_cases hhost : ∃ f, d.storage = .host f
  · obtain ⟨f, hf⟩ := hhost
    obtain ⟨storage, bufs, own, flags, limit⟩ := d
    obtain rfl : storage = .host f := hf
    exact agrees_pread_host bufs own flags limit n fun hneg => hrefused ⟨hneg, by simp⟩
  -- anything else is answered with an error, so `read` has to fail as well
  have hinner : ∀ f, d.storage ≠ .host f := fun f hf => hhost ⟨f, hf⟩
  obtain ⟨e, he⟩ := pread_of_inner hinner n offset
  rw [he, agrees_error hinner hrefused]
  obtain ⟨storage, bufs, own, flags, limit⟩ := d
  by_cases hmode : flags &&& O_ACCMODE = O_WRONLY
  · simp [read, PreadSafe, unreadable, hmode, Except.toOption]
  rcases hbuf : isProcfsBufHandle storage.hostHandle with _ | _
  · cases storage with
    | host f => exact absurd rfl (hinner f)
    | memfd idx data =>
      simp [read, readFrom, PreadSafe, Missing, unreadable, hmode, hbuf, hrefused,
        Except.toOption]
    | procfs idx => simp at hbuf
  rcases hdata : bufs (procfsBufIdx storage.hostHandle) with _ | data <;>
    simp [read, readFrom, PreadSafe, Missing, unreadable, hmode, hbuf, hdata, hrefused,
      hinner, Except.toOption]

/-- What `lseek` and `write` do to a file of the host. -/
theorem afterLseek_write {d : Opened} {f : SeekFile} {buf : Bytes} {offset : ℤ}
    (hd : d.storage = .host f) (hpos : 0 ≤ offset) (hmode : d.unwritable = false)
    (hs : f.seekFails offset = none) (hbuf : buf ≠ []) :
    (d.afterLseek offset (·.write buf)).map (fun t => (t.1.toOption, t.2.storage.writes)) =
      some (if d.Goes f buf offset then
        (some (f.taken buf).length, f.written ++ [(d.start f offset, f.taken buf)])
        else (none, f.written)) := by
  obtain ⟨storage, bufs, own, flags, limit⟩ := d
  obtain rfl : storage = .host f := hd
  have hneg : ¬offset < 0 := not_lt.mpr hpos
  have hmode : ¬flags &&& O_ACCMODE = O_RDONLY := by simpa [unwritable] using hmode
  rcases Bool.eq_false_or_eq_true (hasFlag flags O_APPEND) with ha | ha
  · cases he : f.endFails <;> cases hl : passes limit (f.data.length + buf.length) <;>
      cases hw : f.writeFails <;>
      simp [afterLseek, lseek, seekTo, write, hostWrite, Goes, start, unwritable, appends, hmode,
        hneg, hs, hw, hbuf, ha, he, hl, Storage.writes, Except.toOption, SeekFile.put,
        SeekFile.taken]
  cases hl : passes limit (offset + buf.length) <;> cases hw : f.writeFails <;>
    simp [afterLseek, lseek, seekTo, write, hostWrite, Goes, start, unwritable, appends, hmode,
      hneg, hs, hw, hbuf, ha, hl, Storage.writes, Except.toOption, SeekFile.put, SeekFile.taken]

/-- Writing to a file of the host. -/
theorem agrees_pwrite_host {f : SeekFile} (bufs : ℕ → Option Bytes) (own : ℤ) (flags : UInt32)
    (limit : Option ℕ) (buf : Bytes) {offset : ℤ} (hneg : ¬ offset < 0) :
    let d : Opened := ⟨.host f, bufs, own, flags, limit⟩
    d.Agrees (d.pwrite buf offset) (d.afterLseek offset (·.write buf)) ↔
      d.PwriteSafe buf offset := by
  intro d
  by_cases hmode : flags &&& O_ACCMODE = O_RDONLY
  · cases hs : f.seekFails offset <;>
      simp [d, Agrees, pwrite, afterLseek, lseek, seekTo, write, PwriteSafe, unwritable, hmode,
        hneg, hs, Storage.writes, Except.toOption]
  cases hs : f.seekFails offset with
  | some =>
    simp [d, Agrees, pwrite, afterLseek, lseek, PwriteSafe, Refused, Returns, unwritable, hmode,
      hneg, hs, Except.toOption]
  | none =>
    -- nothing to write: the host is asked by `pwrite` alone
    by_cases hbuf : buf = []
    · cases hw : f.writeFails <;> cases hb : f.seekFails own <;>
        simp [d, Agrees, pwrite, afterLseek, lseek, seekTo, write, restore, PwriteSafe, Refused,
          Returns, unwritable, hmode, hneg, hs, hw, hb, hbuf, Storage.writes, Storage.pos,
          Except.toOption, SeekFile.put, SeekFile.taken]
    have hwrote := d.afterLseek_write rfl (not_lt.mp hneg) (by simp [d, unwritable, hmode]) hs hbuf
    rw [Agrees, hwrote]
    cases hw : f.writeFails with
    | some =>
      have hg : d.Goes f buf offset = false := by simp [Goes, hw]
      simp [d, pwrite, PwriteSafe, Refused, Returns, unwritable, hmode, hneg, hs, hw, hbuf, hg,
        Storage.writes, Storage.pos, Except.toOption]
    | none =>
      cases hb : f.seekFails own <;> cases hg : d.Goes f buf offset <;>
        simp [d, pwrite, restore, PwriteSafe, Refused, Returns, unwritable, hmode, hneg, hs, hw,
          hb, hbuf, hg, Storage.writes, Storage.pos, Except.toOption, SeekFile.put, and_comm,
          @eq_comm ℤ offset]

/-- When writing at an offset is a seek and a write. -/
theorem agrees_pwrite (d : Opened) (buf : Bytes) (offset : ℤ) :
    d.Agrees (d.pwrite buf offset) (d.afterLseek offset (·.write buf)) ↔
      d.PwriteSafe buf offset := by
  by_cases hrefused : d.Refused offset
  · have h := agrees_refused hrefused (·.write buf)
    simpa [pwrite, PwriteSafe, hrefused, hrefused.1] using h
  by_cases hhost : ∃ f, d.storage = .host f
  · obtain ⟨f, hf⟩ := hhost
    obtain ⟨storage, bufs, own, flags, limit⟩ := d
    obtain rfl : storage = .host f := hf
    exact agrees_pwrite_host bufs own flags limit buf fun hneg => hrefused ⟨hneg, by simp⟩
  -- anything else is answered with an error, so `write` has to fail as well
  have hinner : ∀ f, d.storage ≠ .host f := fun f hf => hhost ⟨f, hf⟩
  obtain ⟨e, he⟩ := pwrite_of_inner hinner buf offset
  rw [he, agrees_error hinner hrefused]
  obtain ⟨storage, bufs, own, flags, limit⟩ := d
  by_cases hmode : flags &&& O_ACCMODE = O_RDONLY
  · simp [write, PwriteSafe, unwritable, hmode, Except.toOption]
  by_cases hbuf : buf = []
  · simp [write, PwriteSafe, unwritable, hmode, hbuf, hrefused, hinner, Except.toOption]
  cases storage with
  | host f => exact absurd rfl (hinner f)
  | memfd idx data =>
    by_cases hneg : offset < 0 <;>
      simp [write, PwriteSafe, unwritable, hmode, hbuf, hrefused, hneg, Except.toOption]
  | procfs idx => simp [write, PwriteSafe, unwritable, hmode, hbuf, Except.toOption]

/-- The two hundredth memory file is read as a snapshot that is not there. -/
example : let d : Opened := ⟨.memfd 199 [104, 105], fun _ => none, 2, O_RDWR, none⟩
    (d.afterLseek 0 fun d => some (d.read 2)).map Prod.fst = some (.error .EBADF) := by decide

end Opened

end PosixKernel
