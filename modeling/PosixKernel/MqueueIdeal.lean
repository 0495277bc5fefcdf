import Mathlib.Logic.Function.Basic
import PosixKernel.Mqueue

/-!
# The Ideal Message Queues

What message queues are for: a descriptor stands for a queue, not for a name. The ideal table
numbers the queues in the order in which they are created; a name stands for at most one of
them, a descriptor for the one it was opened on, and a queue lives while it has a name or a
descriptor.

## Main results

* `MqueueTable.mqSend_eq_through`, `MqueueTable.mqReceive_eq_through`,
  `MqueueTable.mqNotify_eq_through` — the kernel's calls through a descriptor are one function of
  what the queue holds, which the ideal table uses too;
* `IdealMqueues.held_ideal` — a descriptor keeps its queue;
* `IdealMqueues.body_ideal` — a call leaves the other queues alone.
-/

namespace PosixKernel

/-! ### What a queue holds -/

/-- What a queue holds, apart from who has it open. -/
structure MqBody where
  maxmsg : UInt32
  msgsize : UInt32
  messages : List MqMessage
  notification : Option MqNotification
  deriving DecidableEq

namespace MqBody

def send (data : Bytes) (priority : UInt32) (b : MqBody) :
    Except Errno (Option MqNotification × MqBody) :=
  if b.msgsize.toNat < data.length then .error .EMSGSIZE
  else if b.maxmsg.toNat ≤ b.messages.length then .error .EAGAIN
  else
    .ok (if b.messages = [] then b.notification else none, { b with
      messages := MqueueTable.insertMessage ⟨data, priority⟩ b.messages
      notification := if b.messages = [] then none else b.notification })

def receive (bufSize : UInt32) (b : MqBody) : Except Errno (MqMessage × MqBody) :=
  if bufSize < b.msgsize then .error .EMSGSIZE
  else
    match b.messages with
    | [] => .error .EAGAIN
    | msg :: rest => .ok (msg, { b with messages := rest })

def register (n : MqNotification) (b : MqBody) : Except Errno (Unit × MqBody) :=
  if b.notification.isSome then .error .EBUSY else .ok ((), { b with notification := some n })

def notify (pid : UInt32) (sigevNotify : Option UInt32) (signo : UInt32) (b : MqBody) :
    Except Errno (Unit × MqBody) :=
  match sigevNotify with
  | none => .ok ((), { b with notification := none })
  | some notify =>
    if notify = SIGEV_NONE then b.register ⟨pid, 0⟩
    else if notify = SIGEV_SIGNAL then b.register ⟨pid, signo⟩
    else .error .EINVAL

def attr (nonblock : Bool) (b : MqBody) : MqAttr :=
  ⟨if nonblock then O_NONBLOCK else 0, b.maxmsg, b.msgsize, UInt32.ofNat b.messages.length⟩

end MqBody

def MqQueue.body (q : MqQueue) : MqBody := ⟨q.maxmsg, q.msgsize, q.messages, q.notification⟩

def MqQueue.withBody (q : MqQueue) (b : MqBody) : MqQueue :=
  ⟨b.maxmsg, b.msgsize, b.messages, q.unlinked, q.openCount, b.notification⟩

namespace MqueueTable

/-- A call through a descriptor. -/
def through {β : Type} (t : MqueueTable) (mqd : UInt32) (ruledOut : Option UInt32)
    (op : MqBody → Except Errno (β × MqBody)) : Except Errno β × MqueueTable :=
  match t.queueOf mqd ruledOut with
  | .error e => (.error e, t)
  | .ok (desc, q) =>
    match op q.body with
    | .error e => (.error e, t)
    | .ok (r, b) => (.ok r, { t with queues := t.queues.insert desc.queueName (q.withBody b) })

variable (t : MqueueTable) (mqd : UInt32)

theorem mqSend_eq_through (data : Bytes) (priority : UInt32) :
    t.mqSend mqd data priority = t.through mqd (some O_RDONLY) (MqBody.send data priority) := by
  rw [mqSend, through]
  rcases t.queueOf mqd (some O_RDONLY) with e | ⟨desc, q⟩
  · rfl
  by_cases hsize : q.msgsize.toNat < data.length
  · have hsend : q.body.send data priority = .error .EMSGSIZE := if_pos hsize
    simp [hsend, if_pos hsize]
  by_cases hfull : q.maxmsg.toNat ≤ q.messages.length
  · have hsend : q.body.send data priority = .error .EAGAIN :=
      (if_neg hsize).trans (if_pos hfull)
    simp [hsend, if_neg hsize, if_pos hfull]
  have hsend : q.body.send data priority = .ok _ := (if_neg hsize).trans (if_neg hfull)
  simp only [hsend, if_neg hsize, if_neg hfull]
  rfl

theorem mqReceive_eq_through (bufSize : UInt32) :
    t.mqReceive mqd bufSize = t.through mqd (some O_WRONLY) (MqBody.receive bufSize) := by
  rw [mqReceive, through]
  rcases t.queueOf mqd (some O_WRONLY) with e | ⟨desc, q⟩
  · rfl
  by_cases hsize : bufSize < q.msgsize
  · have hreceive : q.body.receive bufSize = .error .EMSGSIZE := if_pos hsize
    simp [hreceive, if_pos hsize]
  have hreceive : q.body.receive bufSize = _ := if_neg hsize
  simp only [hreceive, if_neg hsize]
  obtain ⟨maxmsg, msgsize, messages, unlinked, openCount, notification⟩ := q
  cases messages <;> rfl

theorem mqNotify_eq_through (pid : UInt32) (sigevNotify : Option UInt32) (signo : UInt32) :
    t.mqNotify mqd pid sigevNotify signo =
      t.through mqd none (MqBody.notify pid sigevNotify signo) := by
  rw [mqNotify, through]
  rcases t.queueOf mqd none with e | ⟨desc, q⟩
  · rfl
  rcases sigevNotify with _ | notify
  · rfl
  simp only [MqBody.notify, MqBody.register, MqQueue.body]
  by_cases hnone : notify = SIGEV_NONE
  · by_cases hbusy : q.notification.isSome <;> simp [hnone, hbusy, MqQueue.withBody]
  by_cases hsignal : notify = SIGEV_SIGNAL
  · by_cases hbusy : q.notification.isSome <;>
      simp [if_neg hnone, if_pos hsignal, hbusy, MqQueue.withBody]
  · simp [hnone, hsignal]

end MqueueTable

/-! ### The ideal table -/

/-- A descriptor on a queue. -/
structure IdealDescriptor where
  queue : ℕ
  accessMode : UInt32
  nonblock : Bool
  deriving DecidableEq

/-- The ideal table. The queues are numbered from 0 to `created`. -/
structure IdealMqueues where
  created : ℕ
  name : ℕ → Bytes
  body : ℕ → MqBody
  named : Bytes → Option ℕ
  held : UInt32 → Option IdealDescriptor
  nextMqd : UInt32
  pendingNotification : Option MqNotification

namespace IdealMqueues

def new : IdealMqueues :=
  ⟨0, fun _ => [], fun _ => ⟨0, 0, [], none⟩, fun _ => none, fun _ => none, MQD_BASE, none⟩

/-- A queue lives while it has a name or a descriptor. -/
def Alive (I : IdealMqueues) (i : ℕ) : Prop :=
  I.named (I.name i) = some i ∨ ∃ mqd d, I.held mqd = some d ∧ d.queue = i

def setHeld (I : IdealMqueues) (mqd : UInt32) (d : Option IdealDescriptor) : IdealMqueues :=
  { I with held := Function.update I.held mqd d }

/-- Give out a descriptor on a queue. -/
def grant (I : IdealMqueues) (i : ℕ) (flags : UInt32) : Except Errno UInt32 × IdealMqueues :=
  (.ok I.nextMqd,
    { I.setHeld I.nextMqd (some ⟨i, flags &&& O_ACCMODE, hasFlag flags O_NONBLOCK⟩) with
      nextMqd := I.nextMqd + 1 })

/-- Create a queue under a name. -/
def create (I : IdealMqueues) (name : Bytes) (b : MqBody) : IdealMqueues :=
  { I with
    created := I.created + 1
    name := Function.update I.name I.created name
    body := Function.update I.body I.created b
    named := Function.update I.named name (some I.created) }

def mqOpen (I : IdealMqueues) (name : Bytes) (flags : UInt32) (attr : Option (UInt32 × UInt32)) :
    Except Errno UInt32 × IdealMqueues :=
  let flags := flags &&& ~~~O_LARGEFILE
  if name = [] ∨ 255 < name.length then (.error .EINVAL, I)
  else
    match I.named name with
    | some i =>
      if hasFlag flags O_CREAT ∧ hasFlag flags O_EXCL then (.error .EEXIST, I) else I.grant i flags
    | none =>
      if ¬ hasFlag flags O_CREAT then (.error .ENOENT, I)
      else
        match MqueueTable.newQueue attr with
        | .error e => (.error e, I)
        | .ok q => (I.create name q.body).grant I.created flags

/-- A name stands for nothing any more. -/
def forget (I : IdealMqueues) (name : Bytes) : IdealMqueues :=
  { I with named := Function.update I.named name none }

def mqUnlink (I : IdealMqueues) (name : Bytes) : Except Errno Unit × IdealMqueues :=
  match I.named name with
  | none => (.error .ENOENT, I)
  | some _ => (.ok (), I.forget name)

def through {β : Type} (I : IdealMqueues) (mqd : UInt32) (ruledOut : Option UInt32)
    (op : MqBody → Except Errno (β × MqBody)) : Except Errno β × IdealMqueues :=
  match I.held mqd with
  | none => (.error .EBADF, I)
  | some d =>
    if ruledOut = some d.accessMode then (.error .EBADF, I)
    else
      match op (I.body d.queue) with
      | .error e => (.error e, I)
      | .ok (r, b) => (.ok r, { I with body := Function.update I.body d.queue b })

def mqGetsetattr (I : IdealMqueues) (mqd : UInt32) (newFlags : Option UInt32) :
    Except Errno MqAttr × IdealMqueues :=
  match I.held mqd with
  | none => (.error .EBADF, I)
  | some d =>
    match newFlags with
    | none => (.ok ((I.body d.queue).attr d.nonblock), I)
    | some flags =>
      (.ok ((I.body d.queue).attr d.nonblock),
        I.setHeld mqd (some { d with nonblock := hasFlag flags O_NONBLOCK }))

def close (I : IdealMqueues) (mqd : UInt32) : Except Errno MqReply × IdealMqueues :=
  match I.held mqd with
  | none => (.ok .elsewhere, I)
  | some _ => (.ok .done, I.setHeld mqd none)

theorem held_setHeld (I : IdealMqueues) (mqd mqd' : UInt32) (d : Option IdealDescriptor) :
    (I.setHeld mqd d).held mqd' = if mqd' = mqd then d else I.held mqd' :=
  Function.update_apply I.held mqd d mqd'

end IdealMqueues

/-- A call on the ideal table. -/
def MqCall.ideal (pid : UInt32) (I : IdealMqueues) : MqCall → Except Errno MqReply × IdealMqueues
  | .mqOpen name flags attr =>
    let r := I.mqOpen name flags (if hasFlag flags O_CREAT then attr else none)
    (r.1.map .opened, r.2)
  | .mqUnlink name => ((I.mqUnlink name).1.map fun _ => .done, (I.mqUnlink name).2)
  | .mqTimedsend mqd data priority =>
    match I.through mqd (some O_RDONLY) (MqBody.send data priority) with
    | (.error e, I) => (.error e, I)
    | (.ok none, I) => (.ok .done, I)
    | (.ok (some notif), I) => (.ok .done, { I with pendingNotification := some notif })
  | .mqTimedreceive mqd bufSize =>
    let r := I.through mqd (some O_WRONLY) (MqBody.receive bufSize)
    (r.1.map .message, r.2)
  | .mqNotify mqd sev =>
    let r := I.through mqd none
      (MqBody.notify pid (sev.map Prod.fst) ((sev.map Prod.snd).getD 0))
    (r.1.map fun _ => .done, r.2)
  | .mqGetsetattr mqd newFlags =>
    ((I.mqGetsetattr mqd newFlags).1.map .attr, (I.mqGetsetattr mqd newFlags).2)
  | .close fd => I.close fd

def IdealMqueues.next (I : IdealMqueues) (a : UInt32 × MqCall) : IdealMqueues :=
  (a.2.ideal a.1 I).2

/-- The descriptor number that a call names. -/
def MqCall.mqd? : MqCall → Option UInt32
  | .mqOpen .. | .mqUnlink _ => none
  | .mqTimedsend mqd _ _ | .mqTimedreceive mqd _ | .mqNotify mqd _ | .mqGetsetattr mqd _
  | .close mqd => some mqd

/-! ### What the ideal table keeps -/

namespace IdealMqueues

/-- An open is refused, or gives out the next number and leaves the older queues alone. -/
theorem mqOpen_cases (I : IdealMqueues) (name : Bytes) (flags : UInt32)
    (attr : Option (UInt32 × UInt32)) : (∃ e, I.mqOpen name flags attr = (.error e, I)) ∨
      (I.mqOpen name flags attr).1 = .ok I.nextMqd ∧
        (∃ d, (I.mqOpen name flags attr).2.held = (I.setHeld I.nextMqd (some d)).held) ∧
        ∀ i < I.created, (I.mqOpen name flags attr).2.body i = I.body i := by
  rw [mqOpen]
  by_cases hname : name = [] ∨ 255 < name.length
  · exact .inl ⟨.EINVAL, by simp only [if_pos hname]⟩
  simp only [if_neg hname]
  cases I.named name with
  | some =>
    by_cases hexcl : hasFlag (flags &&& ~~~O_LARGEFILE) O_CREAT = true ∧
        hasFlag (flags &&& ~~~O_LARGEFILE) O_EXCL = true
    · exact .inl ⟨.EEXIST, by simp only [if_pos hexcl]⟩
    · simp only [if_neg hexcl]
      exact .inr ⟨rfl, ⟨_, rfl⟩, fun _ _ => rfl⟩
  | none =>
    by_cases hcreat : hasFlag (flags &&& ~~~O_LARGEFILE) O_CREAT = true
    · simp only [if_neg (not_not.mpr hcreat)]
      cases MqueueTable.newQueue attr with
      | error e => exact .inl ⟨e, rfl⟩
      | ok => exact .inr ⟨rfl, ⟨_, rfl⟩, fun i hi => Function.update_of_ne hi.ne _ _⟩
    · exact .inl ⟨.ENOENT, by simp only [if_pos hcreat]⟩

variable (I : IdealMqueues)

/-- A call through a descriptor changes what its queue holds and nothing else. -/
theorem through_cases {β : Type} (mqd : UInt32) (ruledOut : Option UInt32)
    (op : MqBody → Except Errno (β × MqBody)) :
    (I.through mqd ruledOut op).2 = I ∨ ∃ d b, I.held mqd = some d ∧
      (I.through mqd ruledOut op).2 = { I with body := Function.update I.body d.queue b } := by
  rw [through]
  cases I.held mqd with
  | none => exact .inl rfl
  | some d =>
    by_cases hmode : ruledOut = some d.accessMode
    · exact .inl (by simp only [if_pos hmode])
    simp only [if_neg hmode]
    rcases op (I.body d.queue) with e | ⟨r, b⟩
    · exact .inl rfl
    · exact .inr ⟨d, b, rfl, rfl⟩

theorem held_through {β : Type} (mqd : UInt32) (ruledOut : Option UInt32)
    (op : MqBody → Except Errno (β × MqBody)) : (I.through mqd ruledOut op).2.held = I.held := by
  rcases I.through_cases mqd ruledOut op with h | ⟨d, b, -, h⟩ <;> rw [h]

theorem body_through {β : Type} (mqd : UInt32) (ruledOut : Option UInt32)
    (op : MqBody → Except Errno (β × MqBody)) {i : ℕ}
    (hi : ∀ d, I.held mqd = some d → d.queue ≠ i) :
    (I.through mqd ruledOut op).2.body i = I.body i := by
  rcases I.through_cases mqd ruledOut op with h | ⟨d, b, hheld, h⟩
  · rw [h]
  · rw [h]
    exact Function.update_of_ne (hi d hheld).symm _ _

theorem ideal_send (pid mqd : UInt32) (data : Bytes) (priority : UInt32) :
    ((MqCall.mqTimedsend mqd data priority).ideal pid I).2.held = I.held ∧
      ((MqCall.mqTimedsend mqd data priority).ideal pid I).2.body =
        (I.through mqd (some O_RDONLY) (MqBody.send data priority)).2.body := by
  have hheld := I.held_through mqd (some O_RDONLY) (MqBody.send data priority)
  rw [MqCall.ideal]
  generalize I.through mqd (some O_RDONLY) (MqBody.send data priority) = r at hheld ⊢
  obtain ⟨e | _ | notif, I'⟩ := r <;> exact ⟨hheld, rfl⟩

/-- **A descriptor keeps its queue** until it is closed, if new descriptors get new numbers. -/
theorem held_ideal {I : IdealMqueues} {call : MqCall} {pid mqd : UInt32} {d : IdealDescriptor}
    (hfree : ∀ name flags attr n, call = .mqOpen name flags attr →
      (I.mqOpen name flags (if hasFlag flags O_CREAT then attr else none)).1 = .ok n →
      I.held I.nextMqd = none) (hheld : I.held mqd = some d) (hcall : call ≠ .close mqd) :
    ∃ d', (call.ideal pid I).2.held mqd = some d' ∧ d'.queue = d.queue := by
  cases call with
  | mqOpen name flags attr =>
    rcases I.mqOpen_cases name flags (if hasFlag flags O_CREAT then attr else none) with
      ⟨e, hopen⟩ | ⟨hanswer, ⟨d', hopen⟩, -⟩
    · simp only [MqCall.ideal, hopen]
      exact ⟨d, hheld, rfl⟩
    have hne : mqd ≠ I.nextMqd := by
      rintro rfl
      have hnone := hfree name flags attr I.nextMqd rfl hanswer
      cases hnone.symm.trans hheld
    refine ⟨d, ?_, rfl⟩
    simp only [MqCall.ideal, hopen, held_setHeld, if_neg hne]
    exact hheld
  | mqUnlink name =>
    refine ⟨d, ?_, rfl⟩
    simp only [MqCall.ideal, mqUnlink]
    cases I.named name <;> exact hheld
  | mqTimedsend mqd' data priority =>
    exact ⟨d, (congrFun (I.ideal_send pid mqd' data priority).1 mqd).trans hheld, rfl⟩
  | mqTimedreceive | mqNotify => exact ⟨d, (congrFun (I.held_through ..) mqd).trans hheld, rfl⟩
  | mqGetsetattr mqd' newFlags =>
    simp only [MqCall.ideal, mqGetsetattr]
    cases hheld' : I.held mqd' with
    | none => exact ⟨d, hheld, rfl⟩
    | some =>
      cases newFlags with
      | none => exact ⟨d, hheld, rfl⟩
      | some =>
        simp only [held_setHeld]
        by_cases hmqd : mqd = mqd'
        · subst hmqd
          cases hheld.symm.trans hheld'
          exact ⟨_, if_pos rfl, rfl⟩
        · exact ⟨d, (if_neg hmqd).trans hheld, rfl⟩
  | close fd =>
    have hne : mqd ≠ fd := fun heq => hcall (heq ▸ rfl)
    simp only [MqCall.ideal, close]
    cases I.held fd with
    | none => exact ⟨d, hheld, rfl⟩
    | some _ => exact ⟨d, (I.held_setHeld fd mqd none).trans ((if_neg hne).trans hheld), rfl⟩

/-- **A call leaves the queues alone** on which it names no descriptor. -/
theorem body_ideal {I : IdealMqueues} {call : MqCall} {pid : UInt32} {i : ℕ} (hi : i < I.created)
    (hcall : ∀ mqd d, call.mqd? = some mqd → I.held mqd = some d → d.queue ≠ i) :
    (call.ideal pid I).2.body i = I.body i := by
  cases call with
  | mqOpen name flags attr =>
    rcases I.mqOpen_cases name flags (if hasFlag flags O_CREAT then attr else none) with
      ⟨e, hopen⟩ | ⟨-, -, hbody⟩
    · simp [MqCall.ideal, hopen]
    · exact hbody i hi
  | mqUnlink name =>
    simp only [MqCall.ideal, mqUnlink]
    cases I.named name <;> rfl
  | mqTimedsend mqd data priority =>
    rw [(I.ideal_send pid mqd data priority).2]
    exact I.body_through _ _ _ fun d => hcall mqd d rfl
  | mqTimedreceive mqd | mqNotify mqd => exact I.body_through _ _ _ fun d => hcall mqd d rfl
  | mqGetsetattr mqd newFlags =>
    simp only [MqCall.ideal, mqGetsetattr]
    cases I.held mqd with
    | none => rfl
    | some d => cases newFlags <;> rfl
  | close fd =>
    simp only [MqCall.ideal, close]
    cases I.held fd <;> rfl

end IdealMqueues

end PosixKernel
