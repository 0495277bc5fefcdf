import PosixKernel.Mqueue

/-!
# The Order of Messages

A message queue of the kernel is a stable priority queue: the kernel's vector is kept in the
order of the library's list, and what the calls put in and take out is what the library's
books say.

## Main results

* `insertMessage_eq_insert` — the kernel's insertion is the library's;
* `MqBooks.send`, `MqBooks.receive` — what one call does to the books;
* `mqueue_order_run` — the order over whole histories.
-/

namespace PosixKernel

open MqueueTable

/-- The priority as the library compares it. -/
def MqMessage.key (m : MqMessage) : ℕ := m.priority.toNat

theorem insertMessage_eq_insert (msg : MqMessage) (messages : List MqMessage) :
    insertMessage msg messages = StableQueue.insert MqMessage.key msg messages := rfl

/-! ### Histories -/

/-- What was put into a queue and what was taken out of it. -/
structure MqHistory where
  accepted : List MqMessage
  received : List MqMessage

/-- The calls that move messages. -/
def MqCall.isTransfer : MqCall → Bool
  | .mqTimedsend .. | .mqTimedreceive .. => true
  | _ => false

namespace MqueueTable

/-- The name under which a descriptor was opened. -/
def nameOf (t : MqueueTable) (mqd : UInt32) : Option Bytes :=
  (t.descriptors.lookup mqd).map MqDescriptor.queueName

/-- The message that a call puts into the queue under a name. -/
def put (name : Bytes) (t : MqueueTable) : MqCall → Option MqMessage
  | .mqTimedsend mqd data priority =>
    if t.nameOf mqd = some name ∧ (t.mqSend mqd data priority).1.isOk then some ⟨data, priority⟩
    else none
  | _ => none

/-- The message that a call takes out of the queue under a name. -/
def taken (name : Bytes) (t : MqueueTable) : MqCall → Option MqMessage
  | .mqTimedreceive mqd bufSize =>
    if t.nameOf mqd = some name then (t.mqReceive mqd bufSize).1.toOption else none
  | _ => none

/-- The table and the history of the queue under a name, after one more call. -/
def record (name : Bytes) (s : MqueueTable × MqHistory) (a : UInt32 × MqCall) :
    MqueueTable × MqHistory :=
  (s.1.next a, ⟨s.2.accepted ++ (s.1.put name a.2).toList,
    s.2.received ++ (s.1.taken name a.2).toList⟩)

theorem queues_next_send (t : MqueueTable) (pid mqd : UInt32) (data : Bytes) (priority : UInt32) :
    (t.next (pid, .mqTimedsend mqd data priority)).queues =
      (t.mqSend mqd data priority).2.queues := by
  rw [next, MqCall.run]
  rcases t.mqSend mqd data priority with ⟨e | _ | notif, t'⟩ <;> rfl

end MqueueTable

/-- The books of the queue under a name: what is stored is in order, and it is what was put in
and not taken out. -/
structure MqBooks (name : Bytes) (maxmsg : UInt32) (s : MqueueTable × MqHistory) (q : MqQueue) :
    Prop where
  lookup : s.1.queues.lookup name = some q
  tracks : StableQueue.Tracks MqMessage.key s.2.received q.messages s.2.accepted
  bound : q.messages.length ≤ q.maxmsg.toNat
  maxmsg_eq : q.maxmsg = maxmsg

namespace MqBooks

variable {name : Bytes} {maxmsg : UInt32} {s : MqueueTable × MqHistory} {q : MqQueue}

variable (h : MqBooks name maxmsg s q)

include h

/-- **A send** is refused, goes to another queue, or puts its message in. -/
theorem send (pid mqd : UInt32) (data : Bytes) (priority : UInt32) :
    ∃ q', MqBooks name maxmsg
      (record name s (pid, .mqTimedsend mqd data priority)) q' := by
  have hqueues := s.1.queues_next_send pid mqd data priority
  rcases s.1.mqSend_cases mqd data priority with ⟨e, hsend⟩ | ⟨desc, q₁, hqueue, hroom, hsend⟩
  · refine ⟨q, ?_, ?_, h.bound, h.maxmsg_eq⟩
    · rw [record, hqueues, hsend]
      exact h.lookup
    · simp only [record, put, taken, hsend]
      simpa [Except.isOk, Except.toBool] using h.tracks
  obtain ⟨hdesc, -, hlookup⟩ := queueOf_eq_ok.mp hqueue
  have hname : s.1.nameOf mqd = some desc.queueName := by
    rw [nameOf, hdesc]
    rfl
  have hput : s.1.put name (.mqTimedsend mqd data priority) =
      if desc.queueName = name then some ⟨data, priority⟩ else none := by
    rw [put, hname, hsend]
    simp [Except.isOk, Except.toBool]
  by_cases hsame : desc.queueName = name
  · subst hsame
    obtain rfl : q = q₁ := Option.some.inj (h.lookup.symm.trans hlookup)
    refine ⟨{ q with
      messages := insertMessage ⟨data, priority⟩ q.messages
      notification := if q.messages = [] then none else q.notification }, ?_, ?_, ?_,
      h.maxmsg_eq⟩
    · rw [record, hqueues, hsend]
      exact AList.lookup_insert _
    · simp only [record, hput, if_true, taken]
      rw [insertMessage_eq_insert]
      simpa using h.tracks.push ⟨data, priority⟩
    · rwa [insertMessage_eq_insert, StableQueue.length_insert]
  refine ⟨q, ?_, ?_, h.bound, h.maxmsg_eq⟩
  · rw [record, hqueues, hsend]
    exact (AList.lookup_insert_ne (Ne.symm hsame)).trans h.lookup
  · simp only [record, hput, if_neg hsame, taken]
    simpa using h.tracks

/-- **A receive** is refused, goes to another queue, or takes the first message out. -/
theorem receive (pid mqd bufSize : UInt32) :
    ∃ q', MqBooks name maxmsg
      (record name s (pid, .mqTimedreceive mqd bufSize)) q' := by
  have hnext : s.1.next (pid, .mqTimedreceive mqd bufSize) = (s.1.mqReceive mqd bufSize).2 := rfl
  rcases s.1.mqReceive_cases mqd bufSize with
    ⟨e, hreceive⟩ | ⟨desc, q₁, msg, rest, hqueue, hmsgs, hreceive⟩
  · refine ⟨q, ?_, ?_, h.bound, h.maxmsg_eq⟩
    · rw [record, hnext, hreceive]
      exact h.lookup
    · simp only [record, put, taken, hreceive]
      simpa [Except.toOption] using h.tracks
  obtain ⟨hdesc, -, hlookup⟩ := queueOf_eq_ok.mp hqueue
  have hname : s.1.nameOf mqd = some desc.queueName := by
    rw [nameOf, hdesc]
    rfl
  have htaken : s.1.taken name (.mqTimedreceive mqd bufSize) =
      if desc.queueName = name then some msg else none := by
    rw [taken, hname, hreceive]
    simp [Except.toOption]
  by_cases hsame : desc.queueName = name
  · subst hsame
    obtain rfl : q = q₁ := Option.some.inj (h.lookup.symm.trans hlookup)
    have htracks := h.tracks
    have hbound := h.bound
    rw [hmsgs] at htracks hbound
    refine ⟨{ q with messages := rest }, ?_, ?_, (Nat.le_succ _).trans hbound, h.maxmsg_eq⟩
    · rw [record, hnext, hreceive]
      exact AList.lookup_insert _
    · simp only [record, htaken, if_true, put]
      simpa using htracks.pop
  refine ⟨q, ?_, ?_, h.bound, h.maxmsg_eq⟩
  · rw [record, hnext, hreceive]
    exact (AList.lookup_insert_ne (Ne.symm hsame)).trans h.lookup
  · simp only [record, htaken, if_neg hsame, put]
    simpa using h.tracks

/-- **Whole histories.** -/
theorem foldl (calls : List (UInt32 × MqCall)) (htransfer : ∀ a ∈ calls, a.2.isTransfer = true) :
    ∃ q', MqBooks name maxmsg (calls.foldl (record name) s) q' := by
  induction calls generalizing s q with
  | nil => exact ⟨q, h⟩
  | cons a rest ih =>
    obtain ⟨pid, call⟩ := a
    have hrest : ∀ a ∈ rest, a.2.isTransfer = true :=
      fun a ha => htransfer a (List.mem_cons_of_mem _ ha)
    have hcall := htransfer (pid, call) List.mem_cons_self
    cases call with
    | mqTimedsend mqd data priority =>
      obtain ⟨q', h'⟩ := h.send pid mqd data priority
      exact ih h' hrest
    | mqTimedreceive mqd bufSize =>
      obtain ⟨q', h'⟩ := h.receive pid mqd bufSize
      exact ih h' hrest
    | _ => cases hcall

omit h

end MqBooks

/-- **Order of messages.** A queue that starts empty, after any sends and receives of any
processes through any descriptors: its messages are in non-increasing priority; what was
received and what is stored is what was accepted, and within each priority in the order of
acceptance; there are no more messages than the queue may hold; and what a receive returns
next has the highest priority of all stored messages and is the oldest one of that priority
that was not received. -/
theorem mqueue_order_run (t : MqueueTable) (name : Bytes) (q : MqQueue)
    (hqueue : t.queues.lookup name = some q) (hempty : q.messages = [])
    (calls : List (UInt32 × MqCall)) (htransfer : ∀ a ∈ calls, a.2.isTransfer = true) :
    let s := calls.foldl (record name) (t, ⟨[], []⟩)
    ∃ q', s.1.queues.lookup name = some q' ∧
      q'.messages.Pairwise (fun m m' => m'.priority ≤ m.priority) ∧
      q'.messages.length ≤ q.maxmsg.toNat ∧
      (s.2.received ++ q'.messages).Perm s.2.accepted ∧
      (∀ priority, (s.2.received ++ q'.messages).filter (·.priority = priority) =
        s.2.accepted.filter (·.priority = priority)) ∧
      ∀ mqd bufSize msg, s.1.nameOf mqd = some name →
        (s.1.mqReceive mqd bufSize).1 = .ok msg →
        (∀ m ∈ q'.messages, m.priority ≤ msg.priority) ∧
        ∃ later, s.2.accepted.filter (·.priority = msg.priority) =
          s.2.received.filter (·.priority = msg.priority) ++ msg :: later := by
  intro s
  have hstart : MqBooks name q.maxmsg (t, ⟨[], []⟩) q := by
    refine ⟨hqueue, ?_, ?_, rfl⟩
    · rw [hempty]
      exact .nil
    · rw [hempty]
      exact Nat.zero_le _
  obtain ⟨q', hbooks⟩ := hstart.foldl calls htransfer
  have horder : ∀ priority : UInt32,
      (s.2.received ++ q'.messages).filter (·.priority = priority) =
        s.2.accepted.filter (·.priority = priority) := by
    intro priority
    have hkey := hbooks.tracks.order priority.toNat
    simp only [StableQueue.ofKey, MqMessage.key, UInt32.toNat_inj] at hkey
    exact hkey
  refine ⟨q', hbooks.lookup, ?_, ?_, hbooks.tracks.perm, horder, ?_⟩
  · exact hbooks.tracks.sorted
  · exact hbooks.maxmsg_eq ▸ hbooks.bound
  intro mqd bufSize msg hname hreceive
  rcases s.1.mqReceive_cases mqd bufSize with ⟨e, heq⟩ | ⟨desc, q₁, msg', rest, hof, hmsgs, heq⟩
  · rw [heq] at hreceive
    cases hreceive
  rw [heq] at hreceive
  obtain rfl : msg' = msg := Except.ok.inj hreceive
  obtain ⟨hdesc, -, hlookup⟩ := queueOf_eq_ok.mp hof
  rw [nameOf, hdesc] at hname
  rw [Option.some.inj hname] at hlookup
  obtain rfl : q' = q₁ := Option.some.inj (hbooks.lookup.symm.trans hlookup)
  have htracks := hbooks.tracks
  rw [hmsgs] at htracks
  refine ⟨fun m hm => ?_, rest.filter (·.priority = msg'.priority), ?_⟩
  · rw [hmsgs] at hm
    rcases List.mem_cons.mp hm with rfl | hm
    · exact UInt32.le_refl _
    · exact (List.pairwise_cons.mp htracks.sorted).1 _ hm
  · rw [← horder, hmsgs, List.filter_append, List.filter_cons_of_pos (by simp)]

/-- A table with the queue `/q`. -/
def oneQueue : MqueueTable := (new.mqOpen [47, 113] (O_CREAT ||| O_RDWR) none).2

/-- Two processes send messages of different priorities, and one receives. -/
def twoPriorities : List (UInt32 × MqCall) :=
  [(1, .mqTimedsend MQD_BASE [1] 1), (2, .mqTimedsend MQD_BASE [2] 5),
    (1, .mqTimedsend MQD_BASE [3] 5), (1, .mqTimedreceive MQD_BASE 8192)]

/-- The first message of the higher priority is out, the other two are stored. -/
theorem mqueue_order_two_priorities :
    let s := twoPriorities.foldl (record [47, 113]) (oneQueue, ⟨[], []⟩)
    s.2.received = [⟨[2], 5⟩] ∧ ∃ q', s.1.queues.lookup [47, 113] = some q' ∧
      (s.2.received ++ q'.messages).Perm s.2.accepted := by
  obtain ⟨q', hlookup, -, -, hperm, -⟩ := mqueue_order_run oneQueue [47, 113]
    ⟨10, 8192, [], false, 1, none⟩ (by decide) rfl twoPriorities (by decide)
  exact ⟨by decide, q', hlookup, hperm⟩

end PosixKernel
