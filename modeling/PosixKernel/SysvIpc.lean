import PosixKernel.Lib.KeyMap
import PosixKernel.Shared

/-!
# System V Message Queues and Semaphore Sets

The table of message queues and semaphore sets (`ipc.rs`). Both are created under a key and
used under a number, and numbers are given out in turn for all kinds. Instead of waiting a call
reports `EAGAIN`. The clock is read into `now`.

## Main definitions

* `MsgQueue.send`, `MsgQueue.receive` — what `msgsnd` and `msgrcv` do to a queue;
* `SemSet.perform` — what `semop` does to a set: all operations are checked first, then performed;
* `IpcTable.msgget`, `IpcTable.semget`, `IpcTable.msgctl`, `IpcTable.semctl` and the others — the
  calls.
-/

namespace PosixKernel

def IPC_CREAT : UInt32 := 0o1000
def IPC_EXCL : UInt32 := 0o2000
def IPC_NOWAIT : UInt32 := 0o4000
def IPC_PRIVATE : Int32 := 0
def IPC_RMID : Int32 := 0
def IPC_SET : Int32 := 1
def IPC_STAT : Int32 := 2

def MSG_NOERROR : UInt32 := 0o10000
def MSG_EXCEPT : UInt32 := 0o20000

def GETPID : Int32 := 11
def GETVAL : Int32 := 12
def GETALL : Int32 := 13
def GETNCNT : Int32 := 14
def GETZCNT : Int32 := 15
def SETVAL : Int32 := 16

def MSGMAX : ℕ := 8192
def MSGMNB : ℕ := 16384
def SEMMSL : ℕ := 32

/-! ### Message queues -/

/-- A message; only positive types are accepted. -/
structure MsgEntry where
  mtype : Int32
  data : Bytes
  mtype_pos : 0 < mtype
  deriving DecidableEq

/-- Who owns an object, and under which key and number it is known. -/
structure IpcPerm where
  key : Int32
  id : ℕ
  mode : UInt32
  uid : UInt32
  gid : UInt32
  cuid : UInt32
  cgid : UInt32
  seq : ℕ
  deriving DecidableEq

/-- A message queue; `cbytes` is kept to be the number of bytes in it. -/
structure MsgQueue where
  perm : IpcPerm
  qbytes : ℕ
  messages : List MsgEntry
  cbytes : ℕ
  lspid : ℕ
  lrpid : ℕ
  stime : ℤ
  rtime : ℤ
  ctime : ℤ
  deriving DecidableEq

namespace MsgQueue

/-- Send a message. The count has 32 bits. -/
def send (q : MsgQueue) (m : MsgEntry) (pid : ℕ) (now : ℤ) : Except Errno Unit × MsgQueue :=
  if MSGMAX < m.data.length then (.error .EINVAL, q)
  else if q.qbytes < (q.cbytes + m.data.length) % 2 ^ 32 then (.error .EAGAIN, q)
  else
    (.ok (),
      { q with
        cbytes := (q.cbytes + m.data.length) % 2 ^ 32
        messages := q.messages ++ [m]
        lspid := pid
        stime := now })

/-- The position of the message that a receive takes. Minus the lowest number is that number
itself. -/
def select (messages : List MsgEntry) (msgtype : Int32) (exceptType : Bool) : Option ℕ :=
  if msgtype = 0 then if messages = [] then none else some 0
  else if 0 < msgtype then
    if exceptType then messages.findIdx? fun m => m.mtype ≠ msgtype
    else messages.findIdx? fun m => m.mtype = msgtype
  else messages.findIdx? fun m => m.mtype ≤ -msgtype

/-- Receive a message. One that is too long is an error, or is cut off. -/
def receive (q : MsgQueue) (maxSize : ℕ) (msgtype : Int32) (flags : UInt32) (pid : ℕ)
    (now : ℤ) : Except Errno (Int32 × Bytes) × MsgQueue :=
  match select q.messages msgtype (hasFlag flags MSG_EXCEPT) with
  | none => (.error (if hasFlag flags IPC_NOWAIT then .ENOMSG else .EAGAIN), q)
  | some i =>
    match q.messages[i]? with
    | none => (.error .EINVAL, q)
    | some m =>
      if maxSize < m.data.length ∧ hasFlag flags MSG_NOERROR = false then (.error .E2BIG, q)
      else
        let data := m.data.take maxSize
        (.ok (m.mtype, data),
          { q with
            messages := q.messages.eraseIdx i
            cbytes := q.cbytes - data.length
            lrpid := pid
            rtime := now })

end MsgQueue

/-! ### Semaphore sets -/

structure SemValue where
  val : UInt16
  pid : ℕ
  ncnt : ℕ
  zcnt : ℕ
  deriving DecidableEq

structure SemSet where
  perm : IpcPerm
  values : List SemValue
  otime : ℤ
  ctime : ℤ
  deriving DecidableEq

structure SemOp where
  num : UInt16
  op : Int16
  flg : UInt16
  deriving DecidableEq

/-- The value of a semaphore as a number with sign. -/
def SemValue.cur (v : SemValue) : ℤ := v.val.toNat

namespace SemSet

def nsems (s : SemSet) : ℕ := s.values.length

/-- Why an operation cannot be performed on a set with these values. -/
def refusal (values : List SemValue) (op : SemOp) : Option Errno :=
  match values[op.num.toNat]? with
  | none => some .EFBIG
  | some v =>
    if op.op < 0 then if v.cur + op.op.toInt < 0 then some .EAGAIN else none
    else if op.op = 0 then if v.cur ≠ 0 then some .EAGAIN else none
    else none

/-- Perform one operation. The value has 16 bits. -/
def applyOp (pid : ℕ) (values : List SemValue) (op : SemOp) : List SemValue :=
  values.modify op.num.toNat fun v =>
    { v with
      val := if op.op = 0 then v.val else UInt16.ofInt (v.cur + op.op.toInt)
      pid := pid }

/-- Perform operations: all are checked against the values that the set has at the start. -/
def perform (s : SemSet) (sops : List SemOp) (pid : ℕ) (now : ℤ) : Except Errno Unit × SemSet :=
  match sops.findSome? (refusal s.values) with
  | some e => (.error e, s)
  | none => (.ok (), { s with values := sops.foldl (applyOp pid) s.values, otime := now })

end SemSet

/-! ### The table -/

structure IpcTable where
  msgQueues : KeyMap ℤ MsgQueue
  semSets : KeyMap ℤ SemSet
  nextId : ℕ

/-- What `msgctl` reports of a queue. -/
structure MsgQueueInfo where
  perm : IpcPerm
  stime : ℤ
  rtime : ℤ
  ctime : ℤ
  cbytes : ℕ
  qnum : ℕ
  qbytes : ℕ
  lspid : ℕ
  lrpid : ℕ
  deriving DecidableEq

/-- What `semctl` reports of a set. -/
structure SemSetInfo where
  perm : IpcPerm
  nsems : ℕ
  otime : ℤ
  ctime : ℤ
  deriving DecidableEq

inductive SemCtlResult
  | Ok
  | Value (v : ℤ)
  | Stat (info : SemSetInfo)
  | All (values : List UInt16)
  deriving DecidableEq

namespace IpcTable

def new : IpcTable := ⟨∅, ∅, 0⟩

/-- The number for a new object, and the table that has given it out. -/
def allocId (t : IpcTable) : ℕ × IpcTable :=
  (t.nextId, { t with nextId := (t.nextId + 1) % 2 ^ 31 })

/-- Look an object up by its key. A key that is not private belongs to one object at most. -/
def findKey {α : Type} (perm : α → IpcPerm) (m : KeyMap ℤ α) (key : Int32) : Option α :=
  (m.entries.find? fun e => (perm e.2).key = key).map fun e => e.2

/-- `msgget` and `semget` up to where a new object is made: the number of the object that there
is, an error, or neither. -/
def lookupKey {α : Type} (perm : α → IpcPerm) (m : KeyMap ℤ α) (key : Int32) (flags : UInt32) :
    Option (Except Errno ℕ) :=
  match if key = IPC_PRIVATE then none else findKey perm m key with
  | some x =>
    some (if hasFlag flags IPC_CREAT && hasFlag flags IPC_EXCL then .error .EEXIST
      else .ok (perm x).id)
  | none =>
    if hasFlag flags IPC_CREAT = false ∧ key ≠ IPC_PRIVATE then some (.error .ENOENT) else none

def newPerm (key : Int32) (id : ℕ) (flags uid gid : UInt32) : IpcPerm :=
  ⟨key, id, flags &&& 0o777, uid, gid, uid, gid, id⟩

/-- Get or create a message queue. -/
def msgget (t : IpcTable) (key : Int32) (flags uid gid : UInt32) (now : ℤ) :
    Except Errno ℕ × IpcTable :=
  match lookupKey MsgQueue.perm t.msgQueues key flags with
  | some r => (r, t)
  | none =>
    let made := t.allocId
    (.ok made.1,
      { made.2 with
        msgQueues := t.msgQueues.insert made.1
          ⟨newPerm key made.1 flags uid gid, MSGMNB, [], 0, 0, 0, 0, 0, now⟩ })

/-- Send a message; whether the caller would wait makes no difference. -/
def msgsnd (t : IpcTable) (qid : ℤ) (mtype : Int32) (data : Bytes) (pid : ℕ) (now : ℤ) :
    Except Errno Unit × IpcTable :=
  if h : 0 < mtype then
    match t.msgQueues.lookup qid with
    | none => (.error .EINVAL, t)
    | some q =>
      let sent := q.send ⟨mtype, data, h⟩ pid now
      (sent.1, { t with msgQueues := t.msgQueues.insert qid sent.2 })
  else (.error .EINVAL, t)

/-- Receive a message. -/
def msgrcv (t : IpcTable) (qid : ℤ) (maxSize : ℕ) (msgtype : Int32) (flags : UInt32) (pid : ℕ)
    (now : ℤ) : Except Errno (Int32 × Bytes) × IpcTable :=
  match t.msgQueues.lookup qid with
  | none => (.error .EINVAL, t)
  | some q =>
    let received := q.receive maxSize msgtype flags pid now
    (received.1, { t with msgQueues := t.msgQueues.insert qid received.2 })

/-- Control a message queue. -/
def msgctl (t : IpcTable) (qid : ℤ) (cmd : Int32) (now : ℤ) :
    Except Errno (Option MsgQueueInfo) × IpcTable :=
  match t.msgQueues.lookup qid with
  | none => (.error .EINVAL, t)
  | some q =>
    if cmd = IPC_STAT then
      (.ok (some ⟨q.perm, q.stime, q.rtime, q.ctime, q.cbytes, q.messages.length, q.qbytes,
        q.lspid, q.lrpid⟩), t)
    else if cmd = IPC_RMID then (.ok none, { t with msgQueues := t.msgQueues.erase qid })
    else if cmd = IPC_SET then
      (.ok none, { t with msgQueues := t.msgQueues.insert qid { q with ctime := now } })
    else (.error .EINVAL, t)

/-- Get or create a semaphore set. -/
def semget (t : IpcTable) (key : Int32) (nsems : ℕ) (flags uid gid : UInt32) (now : ℤ) :
    Except Errno ℕ × IpcTable :=
  match lookupKey SemSet.perm t.semSets key flags with
  | some r => (r, t)
  | none =>
    if nsems = 0 ∨ SEMMSL < nsems then (.error .EINVAL, t)
    else
      let made := t.allocId
      (.ok made.1,
        { made.2 with
          semSets := t.semSets.insert made.1
            ⟨newPerm key made.1 flags uid gid, List.replicate nsems ⟨0, 0, 0, 0⟩, 0, now⟩ })

/-- Perform operations on a set. -/
def semop (t : IpcTable) (semid : ℤ) (sops : List SemOp) (pid : ℕ) (now : ℤ) :
    Except Errno Unit × IpcTable :=
  match t.semSets.lookup semid with
  | none => (.error .EINVAL, t)
  | some s =>
    let performed := s.perform sops pid now
    (performed.1, { t with semSets := t.semSets.insert semid performed.2 })

/-- What `semctl` reports of one semaphore. -/
def semctlGet (t : IpcTable) (s : SemSet) (semnum : ℤ) (f : SemValue → ℤ) :
    Except Errno SemCtlResult × IpcTable :=
  if semnum < 0 then (.error .EINVAL, t)
  else
    match s.values[semnum.toNat]? with
    | none => (.error .EINVAL, t)
    | some v => (.ok (.Value (f v)), t)

/-- Control a set; `SETALL` is another call. -/
def semctl (t : IpcTable) (semid semnum : ℤ) (cmd arg : Int32) (now : ℤ) :
    Except Errno SemCtlResult × IpcTable :=
  match t.semSets.lookup semid with
  | none => (.error .EINVAL, t)
  | some s =>
    if cmd = IPC_STAT then (.ok (.Stat ⟨s.perm, s.nsems, s.otime, s.ctime⟩), t)
    else if cmd = IPC_RMID then (.ok .Ok, { t with semSets := t.semSets.erase semid })
    else if cmd = IPC_SET then
      (.ok .Ok, { t with semSets := t.semSets.insert semid { s with ctime := now } })
    else if cmd = GETVAL then t.semctlGet s semnum SemValue.cur
    else if cmd = SETVAL then
      if semnum < 0 ∨ (s.nsems : ℤ) ≤ semnum then (.error .EINVAL, t)
      else if arg < 0 ∨ 32767 < arg then (.error .ERANGE, t)
      else
        let values := s.values.modify semnum.toNat fun v =>
          { v with val := UInt16.ofInt arg.toInt }
        (.ok .Ok, { t with semSets := t.semSets.insert semid { s with values, ctime := now } })
    else if cmd = GETALL then (.ok (.All (s.values.map (·.val))), t)
    else if cmd = GETPID then t.semctlGet s semnum fun v => v.pid
    else if cmd = GETNCNT then t.semctlGet s semnum fun v => v.ncnt
    else if cmd = GETZCNT then t.semctlGet s semnum fun v => v.zcnt
    else (.error .EINVAL, t)

end IpcTable

end PosixKernel
