import PosixKernel.Codec
import PosixKernel.Open

/-!
# Directories and Positions

Changing the working directory, moving the position of a description, and listing a
directory (`sys_chdir`, `sys_fchdir`, `sys_lseek`, `sys_getdents64`). A host directory is
listed through an iterator that the description keeps from one call to the next.

The two loops over the entries of the host end when the host says so; they run here on a
number of entries that one call may ask for, and a call that asks for more has no result.
-/

namespace PosixKernel

variable (H : HostIO)

/-! ### The working directory -/

/-- Change the working directory. -/
def sysChdir (c : Ctx) (path : Bytes) : Except Errno Unit × Ctx :=
  let resolved := resolvePath path c.proc.cwd
  match matchProcfs resolved c.proc.pid with
  | some entry =>
    if entry.isDir then (.ok (), c.updProc fun p => { p with cwd := resolved })
    else (.error .ENOTDIR, c)
  | none =>
    if matchDevfsDir resolved then (.ok (), c.updProc fun p => { p with cwd := resolved })
    else
      match hostStat H c resolved with
      | (.error e, c) => (.error e, c)
      | (.ok mode, c) =>
        if mode &&& S_IFMT ≠ S_IFDIR then (.error .ENOTDIR, c)
        else (.ok (), c.updProc fun p => { p with cwd := resolved })

/-- The open description of a descriptor, with its slot. -/
def ofdOf (p : Process) (fd : ℤ) : Except Errno (ℕ × OpenFileDesc) :=
  match p.fdTable.get fd with
  | .error e => .error e
  | .ok entry =>
    match p.ofdTable.get entry.ofdRef with
    | none => .error .EBADF
    | some o => .ok (entry.ofdRef, o)

/-- Change the working directory to that of a descriptor. -/
def sysFchdir (c : Ctx) (fd : ℤ) : Except Errno Unit × Ctx :=
  match ofdOf c.proc fd with
  | .error e => (.error e, c)
  | .ok (_, o) =>
    if o.fileType ≠ .Directory then (.error .ENOTDIR, c)
    else (.ok (), c.updProc fun p => { p with cwd := o.path })

/-- Change a description of the calling process. -/
def Ctx.updOfd (c : Ctx) (idx : ℕ) (f : OpenFileDesc → OpenFileDesc) : Ctx :=
  c.updProc fun p => { p with ofdTable := p.ofdTable.modify idx f }

/-! ### Positions -/

/-- Names that a listing makes up itself. -/
def isDotName (name : Bytes) : Bool := name = ascii "." || name = ascii ".."

/-- Read past entries of the host, not counting the two that the listing makes up. -/
def skipEntries (h : ℤ) : ℕ → ℕ → Kernel → Option (Except Errno Unit × Kernel)
  | _, 0, k => some (.ok (), k)
  | 0, _ + 1, _ => none
  | n + 1, left + 1, k =>
    let k' := k.logCall (.readdir h)
    match H.hostReaddir k.log h with
    | .error e => some (.error e, k')
    | .ok none => some (.ok (), k')
    | .ok (some d) => if isDotName d.name then skipEntries h n (left + 1) k'
      else skipEntries h n left k'

/-- Give the iterator of a directory up and start again. -/
def rewound (offset : ℤ) (o : OpenFileDesc) : OpenFileDesc :=
  { o with dirHostHandle := -1, dirSynthState := 0, dirEntryOffset := 0, offset }

/-- Close the iterator of a directory, if it has one. -/
def closeIterator (c : Ctx) (o : OpenFileDesc) : Ctx :=
  if 0 ≤ o.dirHostHandle then c.logCall (.closedir o.dirHostHandle) else c

/-- Move the position of a directory: a new iterator is read up to it. -/
def seekDir (fuel : ℕ) (c : Ctx) (idx : ℕ) (o : OpenFileDesc) (offset : ℤ) :
    Option (Except Errno ℤ × Ctx) :=
  let c := (closeIterator c o).updOfd idx (rewound offset)
  if offset ≤ 0 then some (.ok offset, c)
  else
    let reply := H.hostOpendir c.kernel.log o.path
    let c := c.logCall (.opendir o.path reply)
    match reply with
    | .error e => some (.error e, c)
    | .ok h =>
      let c := c.updOfd idx fun o => { o with dirHostHandle := h, dirSynthState := 2 }
      match skipEntries H h fuel (offset - 2).toNat c.kernel with
      | none => none
      | some (.error e, k) => some (.error e, { c with kernel := k })
      | some (.ok (), k) =>
        some (.ok offset,
          { c with kernel := k }.updOfd idx fun o => { o with dirEntryOffset := offset })

/-- Move a position that the kernel keeps itself, with the given size of the object. -/
def seekIn (c : Ctx) (idx : ℕ) (o : OpenFileDesc) (size offset : ℤ) (whence : UInt32) :
    Except Errno ℤ × Ctx :=
  let target := if whence = SEEK_SET then some offset
    else if whence = SEEK_CUR then some (lowI64 (o.offset + offset))
    else if whence = SEEK_END then some (lowI64 (size + offset))
    else none
  match target with
  | none => (.error .EINVAL, c)
  | some pos =>
    if pos < 0 then (.error .EINVAL, c)
    else (.ok pos, c.updOfd idx fun o => { o with offset := pos })

/-- Move the position of a host file. -/
def seekHost (c : Ctx) (idx : ℕ) (o : OpenFileDesc) (offset : ℤ) (whence : UInt32) :
    Except Errno ℤ × Ctx :=
  let ask (pos : ℤ) (whence : UInt32) : Except Errno ℤ × Ctx :=
    (H.hostSeek c.kernel.log o.hostHandle pos whence, c.logCall (.seek o.hostHandle pos whence))
  let answer : Except Errno ℤ × Ctx :=
    if whence = SEEK_SET then ((ask offset whence).1.map fun _ => offset, (ask offset whence).2)
    else if whence = SEEK_CUR then
      let pos := lowI64 (o.offset + offset)
      ((ask pos SEEK_SET).1.map fun _ => pos, (ask pos SEEK_SET).2)
    else if whence = SEEK_END then ask offset whence
    else (.error .EINVAL, c)
  match answer with
  | (.error e, c) => (.error e, c)
  | (.ok pos, c) =>
    if pos < 0 then (.error .EINVAL, c)
    else (.ok pos, c.updOfd idx fun o => { o with offset := pos })

/-- Objects without a position. -/
def FileType.isStream : FileType → Bool
  | .Pipe | .Socket | .EventFd | .Epoll | .TimerFd | .SignalFd | .PtyMaster | .PtySlave => true
  | _ => false

/-- The size of an object in a table; a missing one is empty. -/
def bufSize (t : SlotTable Bytes) (idx : ℕ) : ℤ := ((t.get idx).map List.length).getD 0

/-- Move the position of a description that is no directory. -/
def seekFile (c : Ctx) (idx : ℕ) (o : OpenFileDesc) (offset : ℤ) (whence : UInt32) :
    Except Errno ℤ × Ctx :=
  if o.fileType = .CharDevice ∧ (VirtualDevice.fromHostHandle o.hostHandle).isSome then
    if VirtualDevice.fromHostHandle o.hostHandle = some .Fb0 then
      seekIn c idx o FB_SMEM_LEN offset whence
    else (.ok 0, c)
  else if o.hostHandle = PROCFS_DIR_HANDLE ∨ o.hostHandle = DEVFS_DIR_HANDLE then
    if whence = SEEK_SET then
      (.ok offset, c.updOfd idx fun o =>
        { o with dirSynthState := 0, dirEntryOffset := 0, offset })
    else (.ok o.offset, c)
  else if isProcfsBufHandle o.hostHandle then
    seekIn c idx o (bufSize c.proc.procfsBufs (procfsBufIdx o.hostHandle)) offset whence
  else if o.fileType = .MemFd then
    seekIn c idx o (bufSize c.proc.memfds (handleSlot o.hostHandle)) offset whence
  else seekHost H c idx o offset whence

/-- Move the position of a descriptor. -/
def sysLseek (fuel : ℕ) (c : Ctx) (fd offset : ℤ) (whence : UInt32) :
    Option (Except Errno ℤ × Ctx) :=
  match ofdOf c.proc fd with
  | .error e => some (.error e, c)
  | .ok (idx, o) =>
    if o.fileType.isStream then some (.error .ESPIPE, c)
    else if o.fileType = .Directory then
      if whence = SEEK_SET then seekDir H fuel c idx o offset else some (.ok o.offset, c)
    else some (seekFile H c idx o offset whence)

/-! ### Listing a directory -/

def DT_DIR : UInt32 := 4

/-- The size of a directory record, a multiple of eight. -/
def direntLen (name : Bytes) : ℕ := (19 + name.length + 1 + 7) / 8 * 8

/-- A directory record, if it still fits behind what is in the buffer. -/
def writeDirent64 (bufLen pos : ℕ) (ino : UInt64) (off : ℤ) (dType : UInt32) (name : Bytes) :
    Option Bytes :=
  if bufLen < pos + direntLen name then none
  else
    some (le64 ino.toNat ++ leI64 off ++ ByteCodec.leBytes 2 (direntLen name) ++
      [dType.toUInt8] ++ name ++ List.replicate (direntLen name - 19 - name.length) 0)

/-- Records that the kernel makes up, each with its number, up to one that does not fit:
what is in the buffer, the position reached, and the number of the record left out. -/
def writeNames (bufLen : ℕ) (ino : UInt64) : List (ℕ × Bytes) → Bytes → ℤ →
    (Bytes × ℤ) × Option ℕ
  | [], out, off => ((out, off), none)
  | (i, name) :: names, out, off =>
    match writeDirent64 bufLen out.length ino (off + 1) DT_DIR name with
    | none => ((out, off), some i)
    | some record => writeNames bufLen ino names (out ++ record) (off + 1)

/-- Entries of the host, up to one that does not fit or to the end: what is in the buffer,
the position reached, and whether that was the end. An entry that does not fit has been
taken from the iterator and counts. -/
def readEntries (h : ℤ) (bufLen : ℕ) : ℕ → Kernel → Bytes → ℤ →
    Option (Except Errno (Bytes × ℤ × Bool) × Kernel)
  | 0, _, _, _ => none
  | n + 1, k, out, off =>
    let k' := k.logCall (.readdir h)
    match H.hostReaddir k.log h with
    | .error e => some (.error e, k')
    | .ok none => some (.ok (out, off, true), k')
    | .ok (some d) =>
      if isDotName d.name then readEntries h bufLen n k' out off
      else
        match writeDirent64 bufLen out.length d.ino (off + 1) d.dType d.name with
        | none => some (if out = [] then .error .EINVAL else .ok (out, off + 1, false), k')
        | some record => readEntries h bufLen n k' (out ++ record) (off + 1)

/-- What a call returns when a record did not fit: nothing at all is an error. -/
def partialListing (out : Bytes) : Except Errno Bytes :=
  if out = [] then .error .EINVAL else .ok out

/-- The virtual directories that the root shows, from the one that is next. -/
def pendingNames (names : List Bytes) (o : OpenFileDesc) : List (ℕ × Bytes) :=
  (names.zipIdx.map fun e => (e.2, e.1)).drop (o.dirSynthState.toNat - 2)

/-- A part of a listing that the kernel makes up. -/
def listVirtual (c : Ctx) (idx : ℕ) : Except Errno DirPart → Except Errno Bytes × Ctx
  | .error e => (.error e, c)
  | .ok part =>
    (.ok part.bytes, c.updOfd idx fun o =>
      { o with
        dirEntryOffset := part.newOffset
        dirHostHandle := if part.exhausted then -2 else o.dirHostHandle })

/-- A part of a `/proc` directory; that of another process is made up by that process. -/
def listProcfs (E : ProcfsEnv) (c : Ctx) (idx : ℕ) (o : OpenFileDesc) (bufLen : ℕ) :
    Except Errno Bytes × Ctx :=
  match (matchProcfs o.path c.proc.pid).map ProcfsEntry.entryPid with
  | some pid =>
    if pid ≠ 0 ∧ pid ≠ c.proc.pid then
      match E.foreignGetdents64 pid o.path bufLen o.dirEntryOffset with
      | none => (.error .ENOENT, c)
      | some part => listVirtual c idx (.ok part)
    else listVirtual c idx (E.procfsGetdents64 c.proc o.path bufLen o.dirEntryOffset)
  | none => listVirtual c idx (E.procfsGetdents64 c.proc o.path bufLen o.dirEntryOffset)

/-- The virtual directories that are still to come once the host has no more entries. -/
def listPending (c : Ctx) (idx : ℕ) (o : OpenFileDesc) (bufLen : ℕ) :
    Except Errno Bytes × Ctx :=
  match writeNames bufLen 2 (pendingNames [ascii "dev", ascii "proc"] o) [] o.dirEntryOffset with
  | ((out, off), some i) =>
    (partialListing out, c.updOfd idx fun o =>
      { o with dirEntryOffset := off, dirSynthState := UInt8.ofNat (2 + i) })
  | ((out, off), none) =>
    (.ok out, c.updOfd idx fun o => { o with dirEntryOffset := off, dirHostHandle := -2 })

/-- The end of the host's entries: the iterator is closed, and the root also shows the
virtual directories. -/
def finishListing (c : Ctx) (idx : ℕ) (o : OpenFileDesc) (h : ℤ) (bufLen : ℕ) (out : Bytes)
    (off : ℤ) : Except Errno Bytes × Ctx :=
  let c := c.logCall (.closedir h)
  let names := if o.path = [slash] then pendingNames [ascii "proc"] o else []
  match writeNames bufLen 2 names out off with
  | ((out, off), some i) =>
    (partialListing out, c.updOfd idx fun o =>
      { o with
        dirEntryOffset := off
        dirHostHandle := -3
        dirSynthState := UInt8.ofNat (2 + i) })
  | ((out, off), none) =>
    (.ok out, c.updOfd idx fun o => { o with dirEntryOffset := off, dirHostHandle := -2 })

/-- Read on from the host behind what is in the buffer. -/
def listHostEntries (fuel : ℕ) (c : Ctx) (idx : ℕ) (o : OpenFileDesc) (h : ℤ) (bufLen : ℕ)
    (out : Bytes) (off : ℤ) : Option (Except Errno Bytes × Ctx) :=
  match readEntries H h bufLen fuel c.kernel out off with
  | none => none
  | some (.error e, k) => some (.error e, { c with kernel := k })
  | some (.ok (out, off, false), k) =>
    some (.ok out, { c with kernel := k }.updOfd idx fun o => { o with dirEntryOffset := off })
  | some (.ok (out, off, true), k) =>
    some (finishListing { c with kernel := k } idx o h bufLen out off)

/-- The names a listing starts with. -/
def dotNames (o : OpenFileDesc) : List (ℕ × Bytes) :=
  if o.dirSynthState = 0 then [(0, ascii "."), (1, ascii "..")]
  else if o.dirSynthState = 1 then [(1, ascii "..")]
  else []

/-- List a directory through its iterator. -/
def listHost (fuel : ℕ) (c : Ctx) (idx : ℕ) (o : OpenFileDesc) (h : ℤ) (bufLen : ℕ) :
    Option (Except Errno Bytes × Ctx) :=
  match writeNames bufLen 1 (dotNames o) [] o.dirEntryOffset with
  | ((out, off), some _) =>
    some (if out = [] then (.error .EINVAL, c)
      else (.ok out, c.updOfd idx fun o => { o with dirEntryOffset := off }))
  | ((out, off), none) =>
    let synth := if o.dirSynthState < 2 then 2 else o.dirSynthState
    listHostEntries H fuel (c.updOfd idx fun o => { o with dirSynthState := synth }) idx
      { o with dirSynthState := synth } h bufLen out off

/-- Open the iterator of a directory that has none and list it. -/
def listFromStart (fuel : ℕ) (c : Ctx) (idx : ℕ) (o : OpenFileDesc) (bufLen : ℕ) :
    Option (Except Errno Bytes × Ctx) :=
  let reply := H.hostOpendir c.kernel.log o.path
  let c := c.logCall (.opendir o.path reply)
  match reply with
  | .error e => some (.error e, c)
  | .ok h =>
    listHost H fuel (c.updOfd idx fun o => { o with dirHostHandle := h }) idx o h bufLen

/-- List the next entries of a directory. -/
def sysGetdents64 (E : ProcfsEnv) (fuel : ℕ) (c : Ctx) (fd : ℤ) (bufLen : ℕ) :
    Option (Except Errno Bytes × Ctx) :=
  match ofdOf c.proc fd with
  | .error e => some (.error e, c)
  | .ok (idx, o) =>
    if o.fileType ≠ .Directory then some (.error .ENOTDIR, c)
    else if o.dirHostHandle = DEVFS_DIR_HANDLE then
      some (listVirtual c idx (E.devfsGetdents64 c.proc o.path bufLen o.dirEntryOffset))
    else if o.dirHostHandle = PROCFS_DIR_HANDLE then some (listProcfs E c idx o bufLen)
    else if o.dirHostHandle = -2 then some (.ok [], c)
    else if o.dirHostHandle = -3 then
      some (if o.path = [slash] then listPending c idx o bufLen else (.ok [], c))
    else if o.dirHostHandle = -1 then listFromStart H fuel c idx o bufLen
    else listHost H fuel c idx o o.dirHostHandle bufLen

end PosixKernel
