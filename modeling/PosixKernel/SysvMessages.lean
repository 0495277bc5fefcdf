import PosixKernel.Lib.Runs
import PosixKernel.SysvIpc

/-!
# The Messages of System V Queues

The number of bytes that a queue keeps, and the message that a receive takes. A receive that
cuts a message off gives back only the bytes that it returns, so what was cut off stays counted.
A receive for a negative type takes the first message of any type that is low enough, not the
one of the lowest type.

## Main results

* `MsgQueue.receive_cases` — what a receive does;
* `msgQueue_counts_iff` — the count is right all along a run exactly if nothing is cut off;
* `msgrcv_takes_chosen_iff` — the message of the lowest type is taken exactly if it is the first
  of those that are low enough.
-/

namespace PosixKernel

namespace MsgQueue

/-- The bytes of messages. -/
def total (messages : List MsgEntry) : ℕ := (messages.map (·.data.length)).sum

theorem total_append (l l' : List MsgEntry) : total (l ++ l') = total l + total l' := by
  rw [total, List.map_append, List.sum_append, total, total]

theorem total_cons (m : MsgEntry) (l : List MsgEntry) :
    total (m :: l) = m.data.length + total l := by
  rw [total, List.map_cons, List.sum_cons, total]

/-! ### What a receive does -/

/-- A message is taken out from between those before it and those behind it. -/
theorem eraseIdx_of_getElem? {messages : List MsgEntry} {i : ℕ} {m : MsgEntry}
    (h : messages[i]? = some m) : messages = messages.take i ++ m :: messages.drop (i + 1) ∧
      messages.eraseIdx i = messages.take i ++ messages.drop (i + 1) := by
  obtain ⟨hi, rfl⟩ := List.getElem?_eq_some_iff.mp h
  exact ⟨by rw [List.cons_getElem_drop_succ, List.take_append_drop],
    List.eraseIdx_eq_take_drop_succ messages i⟩

variable {q q' : MsgQueue} {maxSize : ℕ} {msgtype : Int32} {flags : UInt32} {pid : ℕ} {now : ℤ}
  {r : Except Errno (Int32 × Bytes)}

/-- Whether a message may be returned: it fits, or it may be cut off. -/
def Returns (m : MsgEntry) (maxSize : ℕ) (flags : UInt32) : Prop :=
  m.data.length ≤ maxSize ∨ hasFlag flags MSG_NOERROR = true

/-- **What a receive does**: nothing, or it takes the message that is selected. -/
theorem receive_cases (h : q.receive maxSize msgtype flags pid now = (r, q')) :
    ((∃ e, r = .error e) ∧ q' = q ∧
        ∀ i m, select q.messages msgtype (hasFlag flags MSG_EXCEPT) = some i →
          q.messages[i]? = some m → ¬ Returns m maxSize flags) ∨
      ∃ i m, select q.messages msgtype (hasFlag flags MSG_EXCEPT) = some i ∧
        q.messages[i]? = some m ∧ Returns m maxSize flags ∧
        r = .ok (m.mtype, m.data.take maxSize) ∧
        q' = { q with
          messages := q.messages.eraseIdx i
          cbytes := q.cbytes - (m.data.take maxSize).length
          lrpid := pid
          rtime := now } := by
  rw [receive] at h
  rcases hsel : select q.messages msgtype (hasFlag flags MSG_EXCEPT) with _ | i
  · rw [hsel] at h
    cases h
    exact .inl ⟨⟨_, rfl⟩, rfl, fun i m hi => absurd hi (by simp)⟩
  rw [hsel] at h
  rcases hm : q.messages[i]? with _ | m
  · simp only [hm] at h
    cases h
    refine .inl ⟨⟨_, rfl⟩, rfl, fun j m hj hm' => ?_⟩
    cases hj
    rw [hm] at hm'
    cases hm'
  simp only [hm] at h
  split_ifs at h with hbig
  · cases h
    refine .inl ⟨⟨_, rfl⟩, rfl, fun j m' hj hm' => ?_⟩
    cases hj
    cases hm.symm.trans hm'
    rintro (hfits | hcut)
    · omega
    · rw [hbig.2] at hcut
      cases hcut
  cases h
  refine .inr ⟨i, m, rfl, hm, ?_, rfl, rfl⟩
  by_contra hnot
  rw [Returns, not_or, not_le, Bool.not_eq_true] at hnot
  exact hbig hnot

/-- The message that a search selects, with those before it. -/
theorem select_eq_some {messages : List MsgEntry} {exceptType : Bool} {i : ℕ} {m : MsgEntry}
    (h : select messages msgtype exceptType = some i) (hm : messages[i]? = some m) :
    if msgtype = 0 then i = 0 else if 0 < msgtype then
      if exceptType then m.mtype ≠ msgtype ∧ ∀ x ∈ messages.take i, x.mtype = msgtype
      else m.mtype = msgtype ∧ ∀ x ∈ messages.take i, x.mtype ≠ msgtype
    else m.mtype ≤ -msgtype ∧ ∀ x ∈ messages.take i, ¬ x.mtype ≤ -msgtype := by
  have hfind : ∀ p : MsgEntry → Bool, messages.findIdx? p = some i →
      p m = true ∧ ∀ x ∈ messages.take i, p x = false := by
    intro p hp
    obtain ⟨hi, htrue, hbefore⟩ := List.findIdx?_eq_some_iff_getElem.mp hp
    obtain ⟨hi', rfl⟩ := List.getElem?_eq_some_iff.mp hm
    refine ⟨htrue, fun x hx => ?_⟩
    obtain ⟨j, hj, rfl⟩ := List.mem_take_iff_getElem.mp hx
    exact Bool.eq_false_iff.mpr (hbefore j (by omega))
  rw [select] at h
  by_cases hzero : msgtype = 0
  · rw [if_pos hzero] at h ⊢
    split at h
    · cases h
    · exact (Option.some.inj h).symm
  rw [if_neg hzero] at h ⊢
  by_cases hpos : 0 < msgtype
  · rw [if_pos hpos] at h ⊢
    cases exceptType with
    | true => simpa using hfind _ h
    | false => simpa using hfind _ h
  · rw [if_neg hpos] at h ⊢
    simpa using hfind _ h

/-! ### The count -/

/-- The count is right. In particular an empty queue is counted as empty, and there is room in it
for every message of legal size. -/
structure Counted (q : MsgQueue) : Prop where
  exact : q.cbytes = total q.messages
  empty : q.messages = [] → q.cbytes = 0 ∧
    ∀ (m : MsgEntry) (pid : ℕ) (now : ℤ), m.data.length ≤ MSGMAX → (q.send m pid now).1 = .ok ()

/-- The limit of a queue never changes, and the count stays within it. -/
structure Bounded (q : MsgQueue) : Prop where
  qbytes_eq : q.qbytes = MSGMNB
  cbytes_le : q.cbytes ≤ MSGMNB

theorem Bounded.counted (h : q.Bounded) (hexact : q.cbytes = total q.messages) : q.Counted where
  exact := hexact
  empty hempty := by
    have hzero : q.cbytes = 0 := by
      rw [hexact, hempty]
      rfl
    refine ⟨hzero, fun m pid now hsize => ?_⟩
    have hqbytes := h.qbytes_eq
    simp only [MSGMAX, MSGMNB] at hsize hqbytes
    rw [send, if_neg (by simp only [MSGMAX]; omega), if_neg (by omega)]

theorem Bounded.send (h : q.Bounded) (m : MsgEntry) (pid : ℕ) (now : ℤ) :
    (q.send m pid now).2.Bounded := by
  rw [MsgQueue.send]
  split
  · exact h
  split
  · exact h
  next hroom =>
    have hqbytes := h.qbytes_eq
    exact ⟨hqbytes, by simp only; omega⟩

theorem Counted.send (h : q.Counted) (hq : q.Bounded) (m : MsgEntry) (pid : ℕ) (now : ℤ) :
    (q.send m pid now).2.Counted := by
  refine (hq.send m pid now).counted ?_
  have hle := hq.cbytes_le
  rw [MsgQueue.send]
  split
  · exact h.exact
  next hsize =>
    split
    · exact h.exact
    simp only [MSGMAX, MSGMNB] at hsize hle
    simp only
    rw [Nat.mod_eq_of_lt (by omega), h.exact, total_append, total_cons]
    rfl

theorem Bounded.receive (h : q.Bounded) (maxSize : ℕ) (msgtype : Int32) (flags : UInt32) (pid : ℕ)
    (now : ℤ) : (q.receive maxSize msgtype flags pid now).2.Bounded := by
  rcases hres : q.receive maxSize msgtype flags pid now with ⟨r, q'⟩
  have hle := h.cbytes_le
  rcases receive_cases hres with ⟨-, rfl, -⟩ | ⟨i, m, -, -, -, -, rfl⟩
  · exact h
  · exact ⟨h.qbytes_eq, by simp only; omega⟩

/-- The condition on a receive: it does not cut the message off that it takes. -/
def Uncut (q : MsgQueue) (maxSize : ℕ) (msgtype : Int32) (flags : UInt32) : Prop :=
  ∀ i m, select q.messages msgtype (hasFlag flags MSG_EXCEPT) = some i → q.messages[i]? = some m →
    hasFlag flags MSG_NOERROR = true → m.data.length ≤ maxSize

/-- **The count after a receive** is right exactly if nothing was cut off. -/
theorem Counted.receive_iff (h : q.Counted) (hq : q.Bounded) (pid : ℕ) (now : ℤ) :
    (q.receive maxSize msgtype flags pid now).2.Counted ↔ q.Uncut maxSize msgtype flags := by
  have hbounded := hq.receive maxSize msgtype flags pid now
  rcases hres : q.receive maxSize msgtype flags pid now with ⟨r, q'⟩
  rw [hres] at hbounded
  rcases receive_cases hres with ⟨-, rfl, hnone⟩ | ⟨i, m, hsel, hm, hreturns, -, rfl⟩
  · refine iff_of_true h fun i m hsel hm hcut => ?_
    exact absurd (.inr hcut) (hnone i m hsel hm)
  have hexact := h.exact
  obtain ⟨hsplit, herase⟩ := eraseIdx_of_getElem? hm
  rw [hsplit, total_append, total_cons] at hexact
  have hremain : total (q.messages.eraseIdx i) =
      total (q.messages.take i) + total (q.messages.drop (i + 1)) := by
    rw [herase, total_append]
  have hlen : (m.data.take maxSize).length = min maxSize m.data.length := List.length_take
  constructor
  · intro hcounted i' m' hsel' hm' _
    cases hsel.symm.trans hsel'
    cases hm.symm.trans hm'
    have hafter := hcounted.exact
    simp only at hafter
    omega
  intro huncut
  refine hbounded.counted ?_
  have hfits : m.data.length ≤ maxSize := hreturns.elim id (huncut i m hsel hm)
  simp only
  omega

end MsgQueue

/-! ### Runs -/

/-- The calls on message queues. -/
inductive MsgCall
  | get (key : Int32) (flags uid gid : UInt32) (now : ℤ)
  | snd (qid : ℤ) (mtype : Int32) (data : Bytes) (pid : ℕ) (now : ℤ)
  | rcv (qid : ℤ) (maxSize : ℕ) (msgtype : Int32) (flags : UInt32) (pid : ℕ) (now : ℤ)
  | ctl (qid : ℤ) (cmd : Int32) (now : ℤ)
  deriving DecidableEq

namespace IpcTable

/-- The table after a call. -/
def msgNext (t : IpcTable) : MsgCall → IpcTable
  | .get key flags uid gid now => (t.msgget key flags uid gid now).2
  | .snd qid mtype data pid now => (t.msgsnd qid mtype data pid now).2
  | .rcv qid maxSize msgtype flags pid now => (t.msgrcv qid maxSize msgtype flags pid now).2
  | .ctl qid cmd now => (t.msgctl qid cmd now).2

/-- A property of all queues of a table. -/
def AllQueues (P : MsgQueue → Prop) (t : IpcTable) : Prop :=
  ∀ qid q, t.msgQueues.lookup qid = some q → P q

variable {P : MsgQueue → Prop} {t : IpcTable}

theorem allQueues_insert {qid : ℤ} {q : MsgQueue} (h : t.AllQueues P) {t' : IpcTable}
    (ht : t'.msgQueues = t.msgQueues.insert qid q) (hq : P q) : t'.AllQueues P := by
  intro qid' q' hq'
  rw [ht, KeyMap.lookup_insert_eq] at hq'
  split at hq'
  · cases hq'
    exact hq
  · exact h qid' q' hq'

/-- What creating a queue, sending, and control preserve; a receive needs more. -/
theorem allQueues_msgNext (h : t.AllQueues P) {call : MsgCall}
    (hnew : ∀ perm now, P ⟨perm, MSGMNB, [], 0, 0, 0, 0, 0, now⟩)
    (hsnd : ∀ q m pid now, P q → P (q.send m pid now).2)
    (hctl : ∀ q now, P q → P { q with ctime := now })
    (hrcv : ∀ q maxSize msgtype flags pid now,
      (∃ qid, call = .rcv qid maxSize msgtype flags pid now ∧ t.msgQueues.lookup qid = some q) →
      P (q.receive maxSize msgtype flags pid now).2) : (t.msgNext call).AllQueues P := by
  cases call with
  | get =>
    simp only [msgNext, msgget]
    split
    · exact h
    · exact allQueues_insert h rfl (hnew _ _)
  | snd qid =>
    simp only [msgNext, msgsnd]
    split
    · rcases hq : t.msgQueues.lookup qid with _ | q
      · exact h
      · exact allQueues_insert h rfl (hsnd q _ _ _ (h qid q hq))
    · exact h
  | rcv qid =>
    simp only [msgNext, msgrcv]
    rcases hq : t.msgQueues.lookup qid with _ | q
    · exact h
    · exact allQueues_insert h rfl (hrcv q _ _ _ _ _ ⟨qid, rfl, hq⟩)
  | ctl qid cmd now =>
    simp only [msgNext, msgctl]
    rcases hq : t.msgQueues.lookup qid with _ | q
    · exact h
    simp only
    split
    · exact h
    split
    · intro qid' q' hq'
      rw [KeyMap.lookup_erase_eq] at hq'
      split at hq'
      · cases hq'
      · exact h qid' q' hq'
    split
    · exact allQueues_insert h rfl (hctl q now (h qid q hq))
    · exact h

/-- The condition on a call: a receive does not cut a message off. -/
def Uncut (t : IpcTable) : MsgCall → Prop
  | .rcv qid maxSize msgtype flags _ _ =>
    ∀ q, t.msgQueues.lookup qid = some q → q.Uncut maxSize msgtype flags
  | _ => True

/-- What holds of every queue as long as nothing is cut off. -/
abbrev Sound (t : IpcTable) : Prop := t.AllQueues fun q => q.Bounded ∧ q.Counted

theorem sound_msgNext (h : t.Sound) {call : MsgCall} (hcall : t.Uncut call) :
    (t.msgNext call).Sound := by
  refine allQueues_msgNext h (fun perm now => ?_) (fun q m pid now hq => ?_)
    (fun q now hq => ?_) fun q maxSize msgtype flags pid now hrcv => ?_
  · have hnew : MsgQueue.Bounded ⟨perm, MSGMNB, [], 0, 0, 0, 0, 0, now⟩ := ⟨rfl, Nat.zero_le _⟩
    exact ⟨hnew, hnew.counted rfl⟩
  · exact ⟨hq.1.send m pid now, hq.2.send hq.1 m pid now⟩
  · have hsame : MsgQueue.Bounded { q with ctime := now } := ⟨hq.1.qbytes_eq, hq.1.cbytes_le⟩
    exact ⟨hsame, hsame.counted hq.2.exact⟩
  obtain ⟨qid, rfl, hq⟩ := hrcv
  obtain ⟨hqb, hqc⟩ := h qid q hq
  exact ⟨hqb.receive _ _ _ _ _, (hqc.receive_iff hqb pid now).mpr (hcall q hq)⟩

/-- A call after which all counts are right did not cut a message off. -/
theorem uncut_of_counted (h : t.Sound) {call : MsgCall}
    (hafter : (t.msgNext call).AllQueues MsgQueue.Counted) : t.Uncut call := by
  cases call with
  | rcv qid maxSize msgtype flags pid now =>
    intro q hq
    refine ((h qid q hq).2.receive_iff (h qid q hq).1 pid now).mp (hafter qid _ ?_)
    simp only [msgNext, msgrcv, hq]
    rw [KeyMap.lookup_insert_eq, if_pos rfl]
  | get | snd | ctl => trivial

end IpcTable

/-- **The count of a queue** is the sum of the lengths of its messages in every state of a run
exactly if no receive of the run cuts a message off. -/
theorem msgQueue_counts_iff (calls : List MsgCall) :
    (∀ n, ((calls.take n).foldl IpcTable.msgNext .new).AllQueues MsgQueue.Counted) ↔
      Runs IpcTable.msgNext IpcTable.Uncut .new calls :=
  Runs.forall_take_iff (I := IpcTable.Sound) (Runs.of_forall fun _ _ => True.intro)
    (fun _ _ hq => absurd hq (by simp [IpcTable.new])) (fun _ h qid q hq => (h qid q hq).2)
    (fun _ _ h _ huncut => IpcTable.sound_msgNext h huncut)
    fun _ _ h _ hcounted => IpcTable.uncut_of_counted h hcounted

/-- A message of three bytes is received into a buffer of one: two bytes stay counted. -/
theorem msgQueue_count_cut_off :
    (([MsgCall.get 0 0 0 0 0, .snd 0 1 [1, 2, 3] 1 0, .rcv 0 1 0 MSG_NOERROR 1 0].foldl
      IpcTable.msgNext .new).msgQueues.lookup 0).map (fun q => (q.messages, q.cbytes)) =
      some ([], 2) := by
  decide

/-! ### The message that is taken -/

namespace MsgQueue

/-- The message to be taken, between those before it and those behind it: the first one, the
first of a type, the first of another type, or the first of the lowest type up to a bound. -/
def Chosen (msgtype : Int32) (exceptType : Bool) (before : List MsgEntry) (m : MsgEntry)
    (after : List MsgEntry) : Prop :=
  if msgtype = 0 then before = []
  else if 0 < msgtype then
    if exceptType then m.mtype ≠ msgtype ∧ ∀ x ∈ before, x.mtype = msgtype
    else m.mtype = msgtype ∧ ∀ x ∈ before, x.mtype ≠ msgtype
  else
    m.mtype.toInt ≤ |msgtype.toInt| ∧
      (∀ x ∈ before ++ after, x.mtype.toInt ≤ |msgtype.toInt| → m.mtype ≤ x.mtype) ∧
      ∀ x ∈ before, x.mtype ≠ m.mtype

/-- A receive that succeeds takes the message to be taken, and leaves the others in their
order. -/
def TakesChosen (q : MsgQueue) (maxSize : ℕ) (msgtype : Int32) (flags : UInt32) (pid : ℕ)
    (now : ℤ) : Prop :=
  ∀ r q', q.receive maxSize msgtype flags pid now = (.ok r, q') →
    ∃ before m after, q.messages = before ++ m :: after ∧
      Chosen msgtype (hasFlag flags MSG_EXCEPT) before m after ∧
      q'.messages = before ++ after ∧ r = (m.mtype, m.data.take maxSize)

/-- The condition on a receive for a negative type: of the messages whose type is low enough the
first one has the lowest type, or it cannot be returned. -/
def LowestFirst (q : MsgQueue) (maxSize : ℕ) (msgtype : Int32) (flags : UInt32) : Prop :=
  msgtype < 0 → ∀ m, q.messages.find? (fun m => m.mtype ≤ -msgtype) = some m →
    Returns m maxSize flags → ∀ x ∈ q.messages, m.mtype ≤ x.mtype

/-- The negation of a type is at most its absolute value; the least type is its own negation. -/
theorem toInt_neg_le_abs (t : Int32) : (-t).toInt ≤ |t.toInt| := by
  have habs : |t.toInt| = max t.toInt (-t.toInt) := rfl
  rw [Int32.toInt_neg, habs, Int.bmod_def]
  omega

variable {msgtype : Int32}

/-- For a negative type the first message whose type is low enough is selected. -/
theorem find?_eq_some_iff_select {messages : List MsgEntry} {m : MsgEntry} (exceptType : Bool)
    (hneg : msgtype < 0) : messages.find? (fun m => m.mtype ≤ -msgtype) = some m ↔
      ∃ i, select messages msgtype exceptType = some i ∧ messages[i]? = some m := by
  rw [select, if_neg (by rintro rfl; exact absurd hneg (by decide)),
    if_neg (Int32.lt_asymm hneg), List.find?_eq_bind_findIdx?_getElem?]
  exact Option.bind_eq_some_iff

/-- The message that a receive takes is the one to be taken. -/
theorem takesChosen_of_lowestFirst {q : MsgQueue} {maxSize : ℕ} {flags : UInt32} {pid : ℕ}
    {now : ℤ} (h : q.LowestFirst maxSize msgtype flags) :
    q.TakesChosen maxSize msgtype flags pid now := by
  intro r q' hres
  rcases receive_cases hres with ⟨⟨e, he⟩, -⟩ | ⟨i, m, hsel, hm, hreturns, hr, rfl⟩
  · cases he
  obtain ⟨hsplit, herase⟩ := eraseIdx_of_getElem? hm
  refine ⟨_, m, _, hsplit, ?_, herase, Except.ok.inj hr⟩
  have hbefore := select_eq_some hsel hm
  rw [Chosen]
  by_cases hzero : msgtype = 0
  · rw [if_pos hzero] at hbefore ⊢
    rw [hbefore, List.take_zero]
  rw [if_neg hzero] at hbefore ⊢
  by_cases hpos : 0 < msgtype
  · rw [if_pos hpos] at hbefore ⊢
    exact hbefore
  rw [if_neg hpos] at hbefore ⊢
  have hneg : msgtype < 0 := (Int32.lt_or_eq_of_le (Int32.not_lt.mp hpos)).resolve_right hzero
  have hlowest := h hneg m ((find?_eq_some_iff_select _ hneg).mpr ⟨i, hsel, hm⟩) hreturns
  refine ⟨(Int32.le_iff_toInt_le.mp hbefore.1).trans (toInt_neg_le_abs msgtype), fun x hx _ => ?_,
    fun x hx heq => ?_⟩
  · refine hlowest x ?_
    rw [← herase] at hx
    exact List.mem_of_mem_eraseIdx hx
  refine hbefore.2 x hx ?_
  rw [heq]
  exact hbefore.1

/-- If a receive takes the message to be taken, the first one of those whose type is low enough
has the lowest type. -/
theorem lowestFirst_of_takesChosen {q : MsgQueue} {maxSize : ℕ} {flags : UInt32} {pid : ℕ}
    {now : ℤ} (h : q.TakesChosen maxSize msgtype flags pid now) :
    q.LowestFirst maxSize msgtype flags := by
  intro hneg m hfind hreturns x hx
  obtain ⟨i, hsel, hm⟩ := (find?_eq_some_iff_select (hasFlag flags MSG_EXCEPT) hneg).mp hfind
  rcases hres : q.receive maxSize msgtype flags pid now with ⟨r, q'⟩
  rcases receive_cases hres with ⟨-, -, hnone⟩ | ⟨j, m', hsel', hm', -, rfl, rfl⟩
  · exact absurd hreturns (hnone i m hsel hm)
  cases hsel.symm.trans hsel'
  cases hm.symm.trans hm'
  obtain ⟨before, taken, after, hsplit, hchosen, -, hreply⟩ := h _ _ hres
  have htype : m.mtype = taken.mtype := (Prod.mk.inj hreply).1
  rw [Chosen, if_neg (by rintro rfl; exact absurd hneg (by decide)),
    if_neg (Int32.lt_asymm hneg)] at hchosen
  obtain ⟨hbound, hlowest, -⟩ := hchosen
  rw [htype]
  by_cases hlow : x.mtype.toInt ≤ |msgtype.toInt|
  · rw [hsplit, List.mem_append, List.mem_cons] at hx
    rcases hx with hx | rfl | hx
    · exact hlowest x (List.mem_append_left _ hx) hlow
    · exact Int32.le_refl _
    · exact hlowest x (List.mem_append_right _ hx) hlow
  · exact Int32.le_iff_toInt_le.mpr (hbound.trans (not_le.mp hlow).le)

end MsgQueue

/-- **The message that a receive takes** is the one to be taken exactly if, for a negative type,
the first message whose type is low enough has the lowest type. -/
theorem msgrcv_takes_chosen_iff (q : MsgQueue) (maxSize : ℕ) (msgtype : Int32) (flags : UInt32)
    (pid : ℕ) (now : ℤ) :
    q.TakesChosen maxSize msgtype flags pid now ↔ q.LowestFirst maxSize msgtype flags :=
  ⟨MsgQueue.lowestFirst_of_takesChosen, MsgQueue.takesChosen_of_lowestFirst⟩

/-- Messages of the types two and one are sent, and a receive for the lowest type up to two takes
the one of type two. -/
theorem msgrcv_takes_not_lowest :
    (([MsgCall.get 0 0 0 0 0, .snd 0 2 [7] 1 0, .snd 0 1 [8] 1 0].foldl
      IpcTable.msgNext .new).msgrcv 0 4 (-2) 0 1 0).1 = .ok (2, [7]) := by
  decide

end PosixKernel
