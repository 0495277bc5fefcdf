import PosixKernel.Lib.KeyMap
import PosixKernel.Lib.StableQueue
import PosixKernel.Shared

/-!
# Message Queues

The table of POSIX message queues (`mqueue.rs`) and the calls on it (`wasm_api.rs`, syscalls
331 to 336 and `close`). There is one table for all processes: descriptors are numbers of the
table, not of a process, and a descriptor finds its queue by the name under which it was
opened. A queue that is unlinked keeps its entry until its last descriptor is closed.

## Main results

* `MqueueTable.queueOf_eq_ok` — what a call through a descriptor finds;
* `MqueueTable.mqSend_cases`, `MqueueTable.mqReceive_cases` — what a send and a receive do;
* `MqueueTable.mqOpen_cases` — what an open does.
-/

namespace PosixKernel

def O_LARGEFILE : UInt32 := 0o100000
def SIGEV_SIGNAL : UInt32 := 0
def SIGEV_NONE : UInt32 := 1
def DEFAULT_MAXMSG : UInt32 := 10
def DEFAULT_MSGSIZE : UInt32 := 8192
def MQD_BASE : UInt32 := 0x40000000

structure MqMessage where
  data : Bytes
  priority : UInt32
  deriving DecidableEq

structure MqNotification where
  pid : UInt32
  signo : UInt32
  deriving DecidableEq

structure MqQueue where
  maxmsg : UInt32
  msgsize : UInt32
  messages : List MqMessage
  unlinked : Bool
  openCount : UInt32
  notification : Option MqNotification
  deriving DecidableEq

structure MqDescriptor where
  queueName : Bytes
  accessMode : UInt32
  nonblock : Bool
  deriving DecidableEq

structure MqAttr where
  flags : UInt32
  maxmsg : UInt32
  msgsize : UInt32
  curmsgs : UInt32
  deriving DecidableEq

structure MqueueTable where
  queues : KeyMap Bytes MqQueue
  descriptors : KeyMap UInt32 MqDescriptor
  nextMqd : UInt32
  pendingNotification : Option MqNotification

namespace MqueueTable

/-! ### The functions of the table -/

def new : MqueueTable := ⟨∅, ∅, MQD_BASE, none⟩

def isMqd (t : MqueueTable) (fd : UInt32) : Bool := (t.descriptors.lookup fd).isSome

/-- A queue that is created. -/
def newQueue (attr : Option (UInt32 × UInt32)) : Except Errno MqQueue :=
  let maxmsg := (attr.map Prod.fst).getD DEFAULT_MAXMSG
  let msgsize := (attr.map Prod.snd).getD DEFAULT_MSGSIZE
  if maxmsg = 0 ∨ msgsize = 0 then .error .EINVAL
  else .ok ⟨maxmsg, msgsize, [], false, 1, none⟩

/-- Whether a name has a queue that is not unlinked. -/
def linked (t : MqueueTable) (name : Bytes) : Bool :=
  (t.queues.lookup name).any fun q => !q.unlinked

/-- The queue under a name once it is opened: the queue that is there, or a new one. -/
def openedQueue (t : MqueueTable) (name : Bytes) (attr : Option (UInt32 × UInt32)) :
    Except Errno MqQueue :=
  match t.queues.lookup name with
  | none => newQueue attr
  | some q => if q.unlinked then newQueue attr else .ok { q with openCount := q.openCount + 1 }

def mqOpen (t : MqueueTable) (name : Bytes) (flags : UInt32) (attr : Option (UInt32 × UInt32)) :
    Except Errno UInt32 × MqueueTable :=
  let flags := flags &&& ~~~O_LARGEFILE
  let creating := hasFlag flags O_CREAT
  if name = [] ∨ 255 < name.length then (.error .EINVAL, t)
  else if creating ∧ hasFlag flags O_EXCL ∧ t.linked name then (.error .EEXIST, t)
  else if ¬ creating ∧ ¬ t.linked name then (.error .ENOENT, t)
  else
    match t.openedQueue name attr with
    | .error e => (.error e, t)
    | .ok q =>
      (.ok t.nextMqd, { t with
        queues := t.queues.insert name q
        descriptors := t.descriptors.insert t.nextMqd
          ⟨name, flags &&& O_ACCMODE, hasFlag flags O_NONBLOCK⟩
        nextMqd := t.nextMqd + 1 })

/-- A queue with one descriptor less. -/
def closedQueue (q : MqQueue) : MqQueue :=
  { q with openCount := if q.openCount = 0 then 0 else q.openCount - 1 }

/-- Give one descriptor of a name back. -/
def dropQueue (t : MqueueTable) (name : Bytes) : KeyMap Bytes MqQueue :=
  match t.queues.lookup name with
  | none => t.queues
  | some q =>
    if (closedQueue q).openCount = 0 ∧ q.unlinked then t.queues.erase name
    else t.queues.insert name (closedQueue q)

def mqClose (t : MqueueTable) (mqd : UInt32) : Except Errno Unit × MqueueTable :=
  match t.descriptors.lookup mqd with
  | none => (.error .EBADF, t)
  | some desc =>
    (.ok (), { t with
      descriptors := t.descriptors.erase mqd
      queues := t.dropQueue desc.queueName })

def mqUnlink (t : MqueueTable) (name : Bytes) : Except Errno Unit × MqueueTable :=
  match t.queues.lookup name with
  | none => (.error .ENOENT, t)
  | some q =>
    if q.unlinked then (.error .ENOENT, t)
    else if q.openCount = 0 then (.ok (), { t with queues := t.queues.erase name })
    else (.ok (), { t with queues := t.queues.insert name { q with unlinked := true } })

/-- The descriptor and the queue of a call, unless the descriptor was opened in a mode that
rules the call out. -/
def queueOf (t : MqueueTable) (mqd : UInt32) (ruledOut : Option UInt32) :
    Except Errno (MqDescriptor × MqQueue) :=
  match t.descriptors.lookup mqd with
  | none => .error .EBADF
  | some desc =>
    if ruledOut = some desc.accessMode then .error .EBADF
    else
      match t.queues.lookup desc.queueName with
      | none => .error .EBADF
      | some q => .ok (desc, q)

/-- Insert a message before the first one of a lower priority. -/
def insertMessage (msg : MqMessage) (messages : List MqMessage) : List MqMessage :=
  match messages.findIdx? fun m => msg.priority > m.priority with
  | some i => messages.insertIdx i msg
  | none => messages ++ [msg]

/-- Send a message; the answer is the notification that it sets off. -/
def mqSend (t : MqueueTable) (mqd : UInt32) (data : Bytes) (priority : UInt32) :
    Except Errno (Option MqNotification) × MqueueTable :=
  match t.queueOf mqd (some O_RDONLY) with
  | .error e => (.error e, t)
  | .ok (desc, q) =>
    if q.msgsize.toNat < data.length then (.error .EMSGSIZE, t)
    else if q.maxmsg.toNat ≤ q.messages.length then (.error .EAGAIN, t)
    else
      (.ok (if q.messages = [] then q.notification else none), { t with
        queues := t.queues.insert desc.queueName { q with
          messages := insertMessage ⟨data, priority⟩ q.messages
          notification := if q.messages = [] then none else q.notification } })

def mqReceive (t : MqueueTable) (mqd : UInt32) (bufSize : UInt32) :
    Except Errno MqMessage × MqueueTable :=
  match t.queueOf mqd (some O_WRONLY) with
  | .error e => (.error e, t)
  | .ok (desc, q) =>
    if bufSize < q.msgsize then (.error .EMSGSIZE, t)
    else
      match q.messages with
      | [] => (.error .EAGAIN, t)
      | msg :: rest =>
        (.ok msg, { t with queues := t.queues.insert desc.queueName { q with messages := rest } })

/-- Register or unregister a notification; without a request it is unregistered. -/
def mqNotify (t : MqueueTable) (mqd pid : UInt32) (sigevNotify : Option UInt32) (signo : UInt32) :
    Except Errno Unit × MqueueTable :=
  match t.queueOf mqd none with
  | .error e => (.error e, t)
  | .ok (desc, q) =>
    let register (n : Option MqNotification) : Except Errno Unit × MqueueTable :=
      (.ok (), { t with queues := t.queues.insert desc.queueName { q with notification := n } })
    match sigevNotify with
    | none => register none
    | some notify =>
      if notify = SIGEV_NONE then
        if q.notification.isSome then (.error .EBUSY, t) else register (some ⟨pid, 0⟩)
      else if notify = SIGEV_SIGNAL then
        if q.notification.isSome then (.error .EBUSY, t) else register (some ⟨pid, signo⟩)
      else (.error .EINVAL, t)

def mqGetsetattr (t : MqueueTable) (mqd : UInt32) (newFlags : Option UInt32) :
    Except Errno MqAttr × MqueueTable :=
  match t.queueOf mqd none with
  | .error e => (.error e, t)
  | .ok (desc, q) =>
    let attr : MqAttr := ⟨if desc.nonblock then O_NONBLOCK else 0, q.maxmsg, q.msgsize,
      UInt32.ofNat q.messages.length⟩
    match newFlags with
    | none => (.ok attr, t)
    | some flags =>
      let desc := { desc with nonblock := hasFlag flags O_NONBLOCK }
      (.ok attr, { t with descriptors := t.descriptors.insert mqd desc })

/-- A process is gone: what it registered goes too, its descriptors stay. -/
def cleanupProcess (t : MqueueTable) (pid : UInt32) : MqueueTable :=
  let cleaned (q : MqQueue) : MqQueue :=
    if q.notification.any fun n => n.pid = pid then { q with notification := none } else q
  { t with queues := KeyMap.mapValues cleaned t.queues }

/-! ### What the functions do -/

variable {t : MqueueTable} {mqd : UInt32} {desc : MqDescriptor} {q : MqQueue}

theorem queueOf_eq_ok {ruledOut : Option UInt32} : t.queueOf mqd ruledOut = .ok (desc, q) ↔
      t.descriptors.lookup mqd = some desc ∧ ruledOut ≠ some desc.accessMode ∧
        t.queues.lookup desc.queueName = some q := by
  rw [queueOf]
  cases hdesc : t.descriptors.lookup mqd with
  | none => simp
  | some d =>
    by_cases hmode : ruledOut = some d.accessMode
    · simp only [hmode, if_true, Option.some.injEq]
      constructor
      · intro h
        cases h
      · rintro ⟨rfl, hne, -⟩
        contradiction
    simp only [if_neg hmode]
    cases hqueue : t.queues.lookup d.queueName with
    | none =>
      constructor
      · intro h
        cases h
      rintro ⟨hd, -, hq⟩
      rw [← Option.some.inj hd, hqueue] at hq
      cases hq
    | some =>
      simp only [Except.ok.injEq, Prod.mk.injEq, Option.some.injEq]
      constructor
      · rintro ⟨rfl, rfl⟩
        exact ⟨rfl, hmode, hqueue⟩
      · rintro ⟨rfl, -, hq⟩
        exact ⟨rfl, Option.some.inj (hqueue.symm.trans hq)⟩

theorem mqSend_cases (t : MqueueTable) (mqd : UInt32) (data : Bytes) (priority : UInt32) :
    (∃ e, t.mqSend mqd data priority = (.error e, t)) ∨
      ∃ desc q, t.queueOf mqd (some O_RDONLY) = .ok (desc, q) ∧
        q.messages.length < q.maxmsg.toNat ∧
        t.mqSend mqd data priority =
          (.ok (if q.messages = [] then q.notification else none), { t with
            queues := t.queues.insert desc.queueName { q with
              messages := insertMessage ⟨data, priority⟩ q.messages
              notification := if q.messages = [] then none else q.notification } }) := by
  rw [mqSend]
  rcases hqueue : t.queueOf mqd (some O_RDONLY) with e | ⟨desc, q⟩
  · exact .inl ⟨e, rfl⟩
  by_cases hsize : q.msgsize.toNat < data.length
  · exact .inl ⟨.EMSGSIZE, by simp only [if_pos hsize]⟩
  by_cases hfull : q.maxmsg.toNat ≤ q.messages.length
  · exact .inl ⟨.EAGAIN, by simp only [if_neg hsize, if_pos hfull]⟩
  · exact .inr ⟨desc, q, rfl, not_le.mp hfull, by simp only [if_neg hsize, if_neg hfull]⟩

/-- An open that is not refused: the name is a name, the queue is there or may be created, and
its attributes are not zero. -/
def Opens (t : MqueueTable) (name : Bytes) (flags : UInt32) (attr : Option (UInt32 × UInt32)) :
    Prop :=
  ¬ (name = [] ∨ 255 < name.length) ∧
    ¬ (hasFlag (flags &&& ~~~O_LARGEFILE) O_CREAT ∧ hasFlag (flags &&& ~~~O_LARGEFILE) O_EXCL ∧
      t.linked name) ∧
    (hasFlag (flags &&& ~~~O_LARGEFILE) O_CREAT ∨ t.linked name) ∧
    (t.linked name ∨ (newQueue attr).isOk)

instance (t : MqueueTable) (name : Bytes) (flags : UInt32) (attr : Option (UInt32 × UInt32)) :
    Decidable (t.Opens name flags attr) :=
  inferInstanceAs (Decidable (_ ∧ _ ∧ _ ∧ _))

theorem openedQueue_of_linked {name : Bytes} (attr : Option (UInt32 × UInt32))
    (hq : t.queues.lookup name = some q) (hlinked : q.unlinked = false) :
    t.openedQueue name attr = .ok { q with openCount := q.openCount + 1 } := by
  rw [openedQueue, hq]
  simp only [hlinked, if_neg Bool.false_ne_true]

theorem linked_iff {name : Bytes} :
    t.linked name = true ↔ ∃ q, t.queues.lookup name = some q ∧ q.unlinked = false := by
  rw [linked, Option.any_eq_true]
  simp

theorem openedQueue_of_not_linked {name : Bytes} (attr : Option (UInt32 × UInt32))
    (h : ¬ t.linked name = true) : t.openedQueue name attr = newQueue attr := by
  rw [openedQueue]
  cases hq : t.queues.lookup name with
  | none => rfl
  | some q =>
    have hunlinked : q.unlinked = true := by
      by_contra hnot
      exact h (linked_iff.mpr ⟨q, hq, Bool.not_eq_true _ ▸ hnot⟩)
    simp [hunlinked]

/-- An existing queue can always be opened, a new one if its attributes are not zero. -/
theorem openedQueue_isOk (t : MqueueTable) (name : Bytes) (attr : Option (UInt32 × UInt32)) :
    (t.openedQueue name attr).isOk = true ↔ t.linked name = true ∨ (newQueue attr).isOk = true := by
  by_cases hlinked : t.linked name = true
  · obtain ⟨q, hq, hq'⟩ := linked_iff.mp hlinked
    rw [openedQueue_of_linked attr hq hq']
    exact iff_of_true rfl (.inl hlinked)
  · rw [openedQueue_of_not_linked attr hlinked]
    exact ⟨.inr, fun h => h.resolve_left hlinked⟩

/-- An open is refused, or gives a descriptor on the queue that is there or on a new one. -/
theorem mqOpen_cases (t : MqueueTable) (name : Bytes) (flags : UInt32)
    (attr : Option (UInt32 × UInt32)) :
    (¬ t.Opens name flags attr ∧ ∃ e, t.mqOpen name flags attr = (.error e, t)) ∨
      t.Opens name flags attr ∧ ∃ q, t.openedQueue name attr = .ok q ∧
        t.mqOpen name flags attr = (.ok t.nextMqd, { t with
          queues := t.queues.insert name q
          descriptors := t.descriptors.insert t.nextMqd ⟨name,
            (flags &&& ~~~O_LARGEFILE) &&& O_ACCMODE, hasFlag (flags &&& ~~~O_LARGEFILE) O_NONBLOCK⟩
          nextMqd := t.nextMqd + 1 }) := by
  rw [mqOpen]
  by_cases hname : name = [] ∨ 255 < name.length
  · exact .inl ⟨fun h => h.1 hname, .EINVAL, by simp only [if_pos hname]⟩
  by_cases hexcl : hasFlag (flags &&& ~~~O_LARGEFILE) O_CREAT ∧
      hasFlag (flags &&& ~~~O_LARGEFILE) O_EXCL ∧ t.linked name
  · exact .inl ⟨fun h => h.2.1 hexcl, .EEXIST, by simp only [if_neg hname, if_pos hexcl]⟩
  by_cases hnone : ¬ hasFlag (flags &&& ~~~O_LARGEFILE) O_CREAT = true ∧ ¬ t.linked name = true
  · refine .inl ⟨fun h => ?_, .ENOENT, ?_⟩
    · exact h.2.2.1.elim hnone.1 hnone.2
    · simp only [if_neg hname, if_neg hexcl, if_pos hnone]
  simp only [if_neg hname, if_neg hexcl, if_neg hnone]
  have hexists : hasFlag (flags &&& ~~~O_LARGEFILE) O_CREAT = true ∨ t.linked name = true := by
    tauto
  have hok := t.openedQueue_isOk name attr
  cases hopened : t.openedQueue name attr with
  | error e =>
    rw [hopened] at hok
    exact .inl ⟨fun h => absurd (hok.mpr h.2.2.2) Bool.false_ne_true, e, rfl⟩
  | ok q =>
    rw [hopened] at hok
    exact .inr ⟨⟨hname, hexcl, hexists, hok.mp rfl⟩, q, rfl, rfl⟩

/-- A receive is refused, or takes the first message out of the queue. -/
theorem mqReceive_cases (t : MqueueTable) (mqd bufSize : UInt32) :
    (∃ e, t.mqReceive mqd bufSize = (.error e, t)) ∨
      ∃ desc q msg rest, t.queueOf mqd (some O_WRONLY) = .ok (desc, q) ∧
        q.messages = msg :: rest ∧
        t.mqReceive mqd bufSize =
          (.ok msg, { t with
            queues := t.queues.insert desc.queueName { q with messages := rest } }) := by
  rw [mqReceive]
  rcases hqueue : t.queueOf mqd (some O_WRONLY) with e | ⟨desc, q⟩
  · exact .inl ⟨e, rfl⟩
  by_cases hsize : bufSize < q.msgsize
  · exact .inl ⟨.EMSGSIZE, by simp only [if_pos hsize]⟩
  simp only [if_neg hsize]
  rcases hmsgs : q.messages with _ | ⟨msg, rest⟩
  · exact .inl ⟨.EAGAIN, rfl⟩
  · exact .inr ⟨desc, q, msg, rest, rfl, hmsgs, rfl⟩

end MqueueTable

/-! ### Calls -/

/-- A call of a process on the table. -/
inductive MqCall
  | mqOpen (name : Bytes) (flags : UInt32) (attr : Option (UInt32 × UInt32))
  | mqUnlink (name : Bytes)
  | mqTimedsend (mqd : UInt32) (data : Bytes) (priority : UInt32)
  | mqTimedreceive (mqd bufSize : UInt32)
  | mqNotify (mqd : UInt32) (sev : Option (UInt32 × UInt32))
  | mqGetsetattr (mqd : UInt32) (newFlags : Option UInt32)
  | close (fd : UInt32)

/-- What a call answers. A `close` of a number that is no descriptor of the table goes to the
caller's own descriptors. -/
inductive MqReply
  | done
  | opened (mqd : UInt32)
  | message (msg : MqMessage)
  | attr (a : MqAttr)
  | elsewhere
  deriving DecidableEq

/-- A call of a process. The attributes of a new queue are read only if one may be created. -/
def MqCall.run (pid : UInt32) (t : MqueueTable) : MqCall → Except Errno MqReply × MqueueTable
  | .mqOpen name flags attr =>
    let r := t.mqOpen name flags (if hasFlag flags O_CREAT then attr else none)
    (r.1.map .opened, r.2)
  | .mqUnlink name => ((t.mqUnlink name).1.map fun _ => .done, (t.mqUnlink name).2)
  | .mqTimedsend mqd data priority =>
    match t.mqSend mqd data priority with
    | (.error e, t) => (.error e, t)
    | (.ok none, t) => (.ok .done, t)
    | (.ok (some notif), t) => (.ok .done, { t with pendingNotification := some notif })
  | .mqTimedreceive mqd bufSize =>
    ((t.mqReceive mqd bufSize).1.map .message, (t.mqReceive mqd bufSize).2)
  | .mqNotify mqd sev =>
    let r := t.mqNotify mqd pid (sev.map Prod.fst) ((sev.map Prod.snd).getD 0)
    (r.1.map fun _ => .done, r.2)
  | .mqGetsetattr mqd newFlags =>
    ((t.mqGetsetattr mqd newFlags).1.map .attr, (t.mqGetsetattr mqd newFlags).2)
  | .close fd =>
    if t.isMqd fd then ((t.mqClose fd).1.map fun _ => .done, (t.mqClose fd).2)
    else (.ok .elsewhere, t)

/-- The table after a call of a process. -/
def MqueueTable.next (t : MqueueTable) (a : UInt32 × MqCall) : MqueueTable := (a.2.run a.1 t).2

end PosixKernel
