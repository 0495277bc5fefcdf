import PosixKernel.Lib.KeyMap
import PosixKernel.Shared

/-!
# Process-Shared Mutexes, Condition Variables and Barriers

The table of the primitives that processes share (`pshared.rs`). A primitive is used under a
number, and numbers are given out in turn for all kinds. The table knows its users by their
process numbers only, whichever thread calls. Instead of waiting a call reports `EAGAIN`, and is
made again.

## Main definitions

* `PSharedMutex.trylock`, `PSharedMutex.unlock` — what happens to a mutex;
* `PSharedCond.begin`, `PSharedCond.signal`, `PSharedCond.broadcast` — and to a condition variable;
* `PSharedBarrier.wait` — and to a barrier;
* `PSharedTable.condWaitBegin`, `PSharedTable.condWaitCheck` — the two halves of a wait;
* `PSharedCall`, `PSharedTable.call` — the calls, by callers that have a process number.
-/

namespace PosixKernel

def MUTEX_TYPE_RECURSIVE : UInt32 := 1
def MUTEX_TYPE_ERRORCHECK : UInt32 := 2

def PTHREAD_BARRIER_SERIAL_THREAD : ℤ := -1

/-! ### Mutexes -/

/-- A mutex. The owner is the number of a process, or 0; the count is that of the locks after the
first one, and has 32 bits. -/
structure PSharedMutex where
  owner : ℕ
  recursiveCount : ℕ
  mtype : UInt32
  deriving DecidableEq

namespace PSharedMutex

/-- Lock a mutex if it can be locked. -/
def trylock (m : PSharedMutex) (pid : ℕ) : Except Errno Unit × PSharedMutex :=
  if m.owner = 0 then (.ok (), { m with owner := pid, recursiveCount := 0 })
  else if m.owner = pid then
    if m.mtype = MUTEX_TYPE_RECURSIVE then
      (.ok (), { m with recursiveCount := min (m.recursiveCount + 1) (2 ^ 32 - 1) })
    else if m.mtype = MUTEX_TYPE_ERRORCHECK then (.error .EDEADLK, m)
    else (.error .EBUSY, m)
  else (.error .EBUSY, m)

/-- A mutex that nobody owns. -/
def release (m : PSharedMutex) : PSharedMutex := { m with owner := 0, recursiveCount := 0 }

def unlock (m : PSharedMutex) (pid : ℕ) : Except Errno Unit × PSharedMutex :=
  if m.owner ≠ pid then (.error .EPERM, m)
  else if m.mtype = MUTEX_TYPE_RECURSIVE ∧ 0 < m.recursiveCount then
    (.ok (), { m with recursiveCount := m.recursiveCount - 1 })
  else (.ok (), m.release)

end PSharedMutex

/-! ### Condition variables -/

structure CondWaiter where
  pid : ℕ
  mutexId : ℕ
  signaled : Bool
  deriving DecidableEq

structure PSharedCond where
  waiters : List CondWaiter
  deriving DecidableEq

namespace PSharedCond

/-- Record a waiter, unless the process has one. -/
def begin (c : PSharedCond) (mutexId pid : ℕ) : PSharedCond :=
  if c.waiters.any (·.pid = pid) then c else ⟨c.waiters ++ [⟨pid, mutexId, false⟩]⟩

/-- The waiters after the oldest one that is not marked has been marked, and its process; 0 if
all are marked. -/
def markFirst : List CondWaiter → ℕ × List CondWaiter
  | [] => (0, [])
  | w :: rest =>
    if w.signaled then ((markFirst rest).1, w :: (markFirst rest).2)
    else (w.pid, { w with signaled := true } :: rest)

def signal (c : PSharedCond) : ℕ × PSharedCond :=
  ((markFirst c.waiters).1, ⟨(markFirst c.waiters).2⟩)

def broadcast (c : PSharedCond) : ℕ × PSharedCond :=
  (c.waiters.countP (!·.signaled), ⟨c.waiters.map fun w => { w with signaled := true }⟩)

/-- Forget the waiters of a process. -/
def forget (c : PSharedCond) (pid : ℕ) : PSharedCond := ⟨c.waiters.filter (·.pid ≠ pid)⟩

end PSharedCond

/-! ### Barriers -/

structure BarrierWaiter where
  pid : ℕ
  isSerial : Bool
  released : Bool
  deriving DecidableEq

/-- A barrier; it is made for one arrival at least. The count has 32 bits. -/
structure PSharedBarrier where
  count : ℕ
  waiters : List BarrierWaiter
  count_pos : 0 < count
  count_lt : count < 2 ^ 32
  deriving DecidableEq

namespace PSharedBarrier

/-- Wait at a barrier. A process that has an entry tries again, and takes the entry when it is
released. The entry that makes the list long enough releases all; it is taken at once. -/
def wait (b : PSharedBarrier) (pid : ℕ) : Except Errno ℤ × PSharedBarrier :=
  match b.waiters.find? (·.pid = pid) with
  | some w =>
    if w.released then
      (.ok (if w.isSerial then PTHREAD_BARRIER_SERIAL_THREAD else 0),
        { b with waiters := b.waiters.eraseP (·.pid = pid) })
    else (.error .EAGAIN, b)
  | none =>
    if (b.waiters.length + 1) % 2 ^ 32 = b.count then
      (.ok PTHREAD_BARRIER_SERIAL_THREAD,
        { b with waiters := b.waiters.map fun w => { w with released := true } })
    else (.error .EAGAIN, { b with waiters := b.waiters ++ [⟨pid, false, false⟩] })

theorem count_wait (b : PSharedBarrier) (pid : ℕ) : (b.wait pid).2.count = b.count := by
  rw [wait]
  split
  · split <;> rfl
  · split <;> rfl

/-- Forget the waiters of a process. -/
def forget (b : PSharedBarrier) (pid : ℕ) : PSharedBarrier :=
  { b with waiters := b.waiters.filter (·.pid ≠ pid) }

end PSharedBarrier

/-! ### The table -/

structure PSharedTable where
  mutexes : KeyMap ℕ PSharedMutex
  conds : KeyMap ℕ PSharedCond
  barriers : KeyMap ℕ PSharedBarrier
  nextId : ℕ

namespace PSharedTable

def new : PSharedTable := ⟨∅, ∅, ∅, 1⟩

/-- The number that comes next; 0 is left out. -/
def afterId (id : ℕ) : ℕ := if (id + 1) % 2 ^ 32 = 0 then 1 else (id + 1) % 2 ^ 32

def mutexInit (t : PSharedTable) (mtype : UInt32) : ℕ × PSharedTable :=
  (t.nextId,
    { t with
      mutexes := t.mutexes.insert t.nextId ⟨0, 0, mtype &&& 0xF⟩
      nextId := afterId t.nextId })

def mutexDestroy (t : PSharedTable) (id : ℕ) : Except Errno Unit × PSharedTable :=
  match t.mutexes.lookup id with
  | none => (.error .EINVAL, t)
  | some m =>
    if m.owner ≠ 0 then (.error .EBUSY, t)
    else (.ok (), { t with mutexes := t.mutexes.erase id })

/-- Do something to a mutex that there is. -/
def onMutex (t : PSharedTable) (id : ℕ) (op : PSharedMutex → Except Errno Unit × PSharedMutex) :
    Except Errno Unit × PSharedTable :=
  match t.mutexes.lookup id with
  | none => (.error .EINVAL, t)
  | some m => ((op m).1, { t with mutexes := t.mutexes.insert id (op m).2 })

def mutexTrylock (t : PSharedTable) (id pid : ℕ) : Except Errno Unit × PSharedTable :=
  t.onMutex id (·.trylock pid)

/-- Lock a mutex; the caller tries again when it is busy. -/
def mutexLock (t : PSharedTable) (id pid : ℕ) : Except Errno Unit × PSharedTable :=
  match t.mutexTrylock id pid with
  | (.error .EBUSY, t') => (.error .EAGAIN, t')
  | r => r

def mutexUnlock (t : PSharedTable) (id pid : ℕ) : Except Errno Unit × PSharedTable :=
  t.onMutex id (·.unlock pid)

def condInit (t : PSharedTable) : ℕ × PSharedTable :=
  (t.nextId, { t with conds := t.conds.insert t.nextId ⟨[]⟩, nextId := afterId t.nextId })

def condDestroy (t : PSharedTable) (id : ℕ) : Except Errno Unit × PSharedTable :=
  match t.conds.lookup id with
  | none => (.error .EINVAL, t)
  | some c =>
    if c.waiters ≠ [] then (.error .EBUSY, t)
    else (.ok (), { t with conds := t.conds.erase id })

/-- Begin to wait on a condition variable. The mutex is released first, also if there is no such
condition variable. -/
def condWaitBegin (t : PSharedTable) (condId mutexId pid : ℕ) : Except Errno Unit × PSharedTable :=
  match t.mutexes.lookup mutexId with
  | none => (.error .EINVAL, t)
  | some m =>
    if m.owner ≠ pid then (.error .EPERM, t)
    else
      let t := { t with mutexes := t.mutexes.insert mutexId m.release }
      match t.conds.lookup condId with
      | none => (.error .EINVAL, t)
      | some c => (.ok (), { t with conds := t.conds.insert condId (c.begin mutexId pid) })

/-- See whether a wait is over: the waiter is marked and the mutex can be had. -/
def condWaitCheck (t : PSharedTable) (condId mutexId pid : ℕ) : Except Errno Unit × PSharedTable :=
  match t.conds.lookup condId with
  | none => (.error .EINVAL, t)
  | some c =>
    match c.waiters.find? (·.pid = pid) with
    | none => (.error .EINVAL, t)
    | some w =>
      if w.mutexId ≠ mutexId then (.error .EINVAL, t)
      else if w.signaled = false then (.error .EAGAIN, t)
      else
        match t.mutexes.lookup mutexId with
        | none => (.error .EINVAL, t)
        | some m =>
          if m.owner ≠ 0 ∧ m.owner ≠ pid then (.error .EAGAIN, t)
          else
            (.ok (),
              { t with
                mutexes := t.mutexes.insert mutexId { m with owner := pid, recursiveCount := 0 }
                conds := t.conds.insert condId ⟨c.waiters.eraseP (·.pid = pid)⟩ })

def condWaitAbort (t : PSharedTable) (condId pid : ℕ) : PSharedTable :=
  match t.conds.lookup condId with
  | none => t
  | some c => { t with conds := t.conds.insert condId (c.forget pid) }

def condSignal (t : PSharedTable) (condId : ℕ) : Except Errno ℕ × PSharedTable :=
  match t.conds.lookup condId with
  | none => (.error .EINVAL, t)
  | some c => (.ok c.signal.1, { t with conds := t.conds.insert condId c.signal.2 })

def condBroadcast (t : PSharedTable) (condId : ℕ) : Except Errno ℕ × PSharedTable :=
  match t.conds.lookup condId with
  | none => (.error .EINVAL, t)
  | some c => (.ok c.broadcast.1, { t with conds := t.conds.insert condId c.broadcast.2 })

def barrierInit (t : PSharedTable) (count : UInt32) : Except Errno ℕ × PSharedTable :=
  if h : count.toNat = 0 then (.error .EINVAL, t)
  else
    (.ok t.nextId,
      { t with
        barriers := t.barriers.insert t.nextId
          ⟨count.toNat, [], Nat.pos_of_ne_zero h, count.toNat_lt⟩
        nextId := afterId t.nextId })

def barrierDestroy (t : PSharedTable) (id : ℕ) : Except Errno Unit × PSharedTable :=
  match t.barriers.lookup id with
  | none => (.error .EINVAL, t)
  | some b =>
    if b.waiters ≠ [] then (.error .EBUSY, t)
    else (.ok (), { t with barriers := t.barriers.erase id })

def barrierWait (t : PSharedTable) (id pid : ℕ) : Except Errno ℤ × PSharedTable :=
  match t.barriers.lookup id with
  | none => (.error .EINVAL, t)
  | some b => ((b.wait pid).1, { t with barriers := t.barriers.insert id (b.wait pid).2 })

/-- Forget a process that is removed. -/
def cleanupProcess (t : PSharedTable) (pid : ℕ) : PSharedTable :=
  { t with
    mutexes := t.mutexes.mapValues fun m => if m.owner = pid then m.release else m
    conds := t.conds.mapValues (·.forget pid)
    barriers := t.barriers.mapValues (·.forget pid) }

end PSharedTable

/-! ### What the calls on a wait do -/

/-- Of entries that are of different processes, one is taken out. -/
theorem eraseP_eq_filter {β : Type} {pidOf : β → ℕ} {ws : List β}
    (h : ws.Pairwise fun v w => pidOf v ≠ pidOf w) (pid : ℕ) :
    ws.eraseP (pidOf · = pid) = ws.filter (pidOf · ≠ pid) := by
  induction ws with
  | nil => rfl
  | cons w ws ih =>
    obtain ⟨hw, hrest⟩ := List.pairwise_cons.mp h
    by_cases hpid : pidOf w = pid
    · have hothers : ws.filter (pidOf · ≠ pid) = ws :=
        List.filter_eq_self.mpr fun v hv => by simpa using fun heq => hw v hv (hpid.trans heq.symm)
      rw [List.eraseP_cons_of_pos (by simpa using hpid),
        List.filter_cons_of_neg (by simpa using hpid), hothers]
    · rw [List.eraseP_cons_of_neg (by simpa using hpid),
        List.filter_cons_of_pos (by simpa using hpid), ih hrest]

/-- Of entries that are of different processes, the one of a process is found. -/
theorem find?_eq_of_mem {β : Type} {pidOf : β → ℕ} {ws : List β}
    (h : ws.Pairwise fun v w => pidOf v ≠ pidOf w) {w : β} (hw : w ∈ ws) :
    ws.find? (pidOf · = pidOf w) = some w := by
  induction ws with
  | nil => cases hw
  | cons v ws ih =>
    obtain ⟨hv, hrest⟩ := List.pairwise_cons.mp h
    rcases List.mem_cons.mp hw with rfl | hw
    · exact List.find?_cons_of_pos (by simp)
    · rw [List.find?_cons_of_neg (by simpa using hv w hw)]
      exact ih hrest hw

namespace PSharedTable

/-- A lock that is tried again does what one that is not does. -/
theorem mutexLock_eq (t : PSharedTable) (id pid : ℕ) :
    (t.mutexLock id pid).2 = (t.mutexTrylock id pid).2 ∧
      (t.mutexLock id pid).1.isOk = (t.mutexTrylock id pid).1.isOk := by
  rw [mutexLock]
  split
  next h => rw [h]; exact ⟨rfl, rfl⟩
  · exact ⟨rfl, rfl⟩

/-- **The beginning of a wait**: nothing happens, or the mutex is released. -/
theorem condWaitBegin_cases (t : PSharedTable) (condId mutexId pid : ℕ) :
    (t.condWaitBegin condId mutexId pid = (.error .EINVAL, t) ∧ t.mutexes.lookup mutexId = none) ∨
      t.condWaitBegin condId mutexId pid = (.error .EPERM, t) ∨
      ∃ m, t.mutexes.lookup mutexId = some m ∧ m.owner = pid ∧
        ((t.conds.lookup condId = none ∧ t.condWaitBegin condId mutexId pid =
            (.error .EINVAL, { t with mutexes := t.mutexes.insert mutexId m.release })) ∨
          ∃ c, t.conds.lookup condId = some c ∧ t.condWaitBegin condId mutexId pid =
            (.ok (),
              { t with
                mutexes := t.mutexes.insert mutexId m.release
                conds := t.conds.insert condId (c.begin mutexId pid) })) := by
  rw [condWaitBegin]
  rcases t.mutexes.lookup mutexId with _ | m
  · exact .inl ⟨rfl, rfl⟩
  by_cases howner : m.owner = pid
  · refine .inr (.inr ⟨m, rfl, howner, ?_⟩)
    simp only [howner, ne_eq, not_true, if_false]
    rcases t.conds.lookup condId with _ | c
    · exact .inl ⟨rfl, rfl⟩
    · exact .inr ⟨c, rfl, rfl⟩
  · exact .inr (.inl (by simp only [ne_eq, howner, not_false_eq_true, if_true]))

/-- A wait is over: the waiter of the process is marked, and the mutex can be had. -/
def Wakes (t : PSharedTable) (condId mutexId pid : ℕ) : Prop :=
  ∃ c w m, t.conds.lookup condId = some c ∧ c.waiters.find? (·.pid = pid) = some w ∧
    w.mutexId = mutexId ∧ w.signaled = true ∧ t.mutexes.lookup mutexId = some m ∧
    (m.owner = 0 ∨ m.owner = pid)

/-- **The check of a wait**: nothing happens, or the wait is over. -/
theorem condWaitCheck_cases (t : PSharedTable) (condId mutexId pid : ℕ) :
    (∃ e, t.condWaitCheck condId mutexId pid = (.error e, t)) ∨
      ∃ c w m, t.conds.lookup condId = some c ∧ c.waiters.find? (·.pid = pid) = some w ∧
        w.mutexId = mutexId ∧ w.signaled = true ∧ t.mutexes.lookup mutexId = some m ∧
        (m.owner = 0 ∨ m.owner = pid) ∧ t.condWaitCheck condId mutexId pid =
          (.ok (),
            { t with
              mutexes := t.mutexes.insert mutexId { m with owner := pid, recursiveCount := 0 }
              conds := t.conds.insert condId ⟨c.waiters.eraseP (·.pid = pid)⟩ }) := by
  rw [condWaitCheck]
  rcases t.conds.lookup condId with _ | c
  · exact .inl ⟨_, rfl⟩
  dsimp only
  split
  · exact .inl ⟨_, rfl⟩
  next w hw =>
    by_cases hmutex : w.mutexId = mutexId
    · rw [if_neg (not_not.mpr hmutex)]
      cases hsignaled : w.signaled with
      | false => exact .inl ⟨_, rfl⟩
      | true =>
        rw [if_neg (by simp)]
        rcases t.mutexes.lookup mutexId with _ | m
        · exact .inl ⟨_, rfl⟩
        dsimp only
        split_ifs with howner
        · exact .inl ⟨_, rfl⟩
        refine .inr ⟨c, w, m, rfl, hw, hmutex, hsignaled, rfl, ?_, rfl⟩
        by_contra hnot
        exact howner (not_or.mp hnot)
    · rw [if_pos hmutex]
      exact .inl ⟨_, rfl⟩

end PSharedTable

/-! ### The calls -/

/-- Callers have the number of a process, which is not 0. -/
class Caller (α : Type) where
  pid : α → ℕ
  pid_pos : ∀ a, 0 < pid a

/-- The calls on shared primitives, and the removal of a process. -/
inductive PSharedCall (α : Type)
  | mutexInit (mtype : UInt32)
  | mutexLock (a : α) (id : ℕ)
  | mutexTrylock (a : α) (id : ℕ)
  | mutexUnlock (a : α) (id : ℕ)
  | mutexDestroy (id : ℕ)
  | condInit
  | condWaitBegin (a : α) (condId mutexId : ℕ)
  | condWaitCheck (a : α) (condId mutexId : ℕ)
  | condSignal (condId : ℕ)
  | condBroadcast (condId : ℕ)
  | condDestroy (id : ℕ)
  | barrierInit (count : UInt32)
  | barrierWait (a : α) (id : ℕ)
  | barrierDestroy (id : ℕ)
  | condWaitAbort (a : α) (condId : ℕ)
  | removeProcess (pid : ℕ)
  deriving DecidableEq

@[simp] theorem isOk_ok {ε β : Type} (x : β) : (Except.ok x : Except ε β).isOk = true := rfl

@[simp] theorem isOk_error {ε β : Type} (e : ε) : (Except.error e : Except ε β).isOk = false := rfl

namespace PSharedTable

variable {α : Type} [Caller α]

/-- The answer to a call that reports success only. -/
def zero (r : Except Errno Unit × PSharedTable) : Except Errno ℤ × PSharedTable :=
  (r.1.map fun _ => 0, r.2)

@[simp] theorem isOk_zero (r : Except Errno Unit × PSharedTable) : (zero r).1.isOk = r.1.isOk := by
  rcases r with ⟨_ | _, t⟩ <;> rfl

/-- Make a call. Who was signalled, and how many, is not reported. -/
def call (t : PSharedTable) : PSharedCall α → Except Errno ℤ × PSharedTable
  | .mutexInit mtype => (.ok (t.mutexInit mtype).1, (t.mutexInit mtype).2)
  | .mutexLock a id => zero (t.mutexLock id (Caller.pid a))
  | .mutexTrylock a id => zero (t.mutexTrylock id (Caller.pid a))
  | .mutexUnlock a id => zero (t.mutexUnlock id (Caller.pid a))
  | .mutexDestroy id => zero (t.mutexDestroy id)
  | .condInit => (.ok t.condInit.1, t.condInit.2)
  | .condWaitBegin a condId mutexId => zero (t.condWaitBegin condId mutexId (Caller.pid a))
  | .condWaitCheck a condId mutexId => zero (t.condWaitCheck condId mutexId (Caller.pid a))
  | .condSignal condId => ((t.condSignal condId).1.map fun _ => 0, (t.condSignal condId).2)
  | .condBroadcast condId => ((t.condBroadcast condId).1.map fun _ => 0, (t.condBroadcast condId).2)
  | .condDestroy id => zero (t.condDestroy id)
  | .barrierInit count => ((t.barrierInit count).1.map fun id => (id : ℤ), (t.barrierInit count).2)
  | .barrierWait a id => t.barrierWait id (Caller.pid a)
  | .barrierDestroy id => zero (t.barrierDestroy id)
  | .condWaitAbort a condId => (.ok 0, t.condWaitAbort condId (Caller.pid a))
  | .removeProcess pid => (.ok 0, t.cleanupProcess pid)

end PSharedTable

/-! ### What a call leaves alone -/

/-- What a call is about. -/
inductive PSharedKind
  | mutex | cond | wait | barrier | removal
  deriving DecidableEq

/-- The calls that make a primitive. -/
def PSharedCall.creates {α : Type} : PSharedCall α → Bool
  | .mutexInit _ => true
  | .condInit => true
  | .barrierInit count => count.toNat ≠ 0
  | _ => false

def PSharedCall.kind {α : Type} : PSharedCall α → PSharedKind
  | .mutexInit _ | .mutexLock .. | .mutexTrylock .. | .mutexUnlock .. | .mutexDestroy _ => .mutex
  | .condInit | .condSignal _ | .condBroadcast _ | .condDestroy _ | .condWaitAbort .. => .cond
  | .condWaitBegin .. | .condWaitCheck .. => .wait
  | .barrierInit _ | .barrierWait .. | .barrierDestroy _ => .barrier
  | .removeProcess _ => .removal

def PSharedKind.sparesMutexes (k : PSharedKind) : Bool := k = .cond ∨ k = .barrier
def PSharedKind.sparesConds (k : PSharedKind) : Bool := k = .mutex ∨ k = .barrier
def PSharedKind.sparesBarriers (k : PSharedKind) : Bool := k ≠ .barrier ∧ k ≠ .removal

namespace PSharedTable

/-- What a call leaves alone, and the next number after it. -/
structure Frame {α : Type} (call : PSharedCall α) (t t' : PSharedTable) : Prop where
  mutexes : call.kind.sparesMutexes = true → t'.mutexes = t.mutexes
  conds : call.kind.sparesConds = true → t'.conds = t.conds
  barriers : call.kind.sparesBarriers = true → t'.barriers = t.barriers
  nextId : t'.nextId = if call.creates then afterId t.nextId else t.nextId

/-- **What a call leaves alone.** -/
theorem frame_call {α : Type} [Caller α] (t : PSharedTable) (call : PSharedCall α) :
    Frame call t (t.call call).2 := by
  have hlock := fun id pid => (t.mutexLock_eq id pid).1
  cases call <;> simp only [call, zero, hlock, mutexInit, mutexTrylock, mutexUnlock, onMutex,
    mutexDestroy, condInit, condWaitBegin, condWaitCheck, condSignal, condBroadcast, condDestroy,
    condWaitAbort, barrierInit, barrierWait, barrierDestroy, cleanupProcess] <;> repeat' split
  -- each branch writes the table that the call is about
  all_goals constructor
  all_goals simp_all [PSharedCall.kind, PSharedCall.creates, PSharedKind.sparesMutexes,
    PSharedKind.sparesConds, PSharedKind.sparesBarriers]

end PSharedTable

/-! ### Calls that fail -/

theorem PSharedMutex.trylock_failed {m : PSharedMutex} {pid : ℕ}
    (h : (m.trylock pid).1.isOk = false) : (m.trylock pid).2 = m := by
  rw [trylock] at h ⊢
  split_ifs at h ⊢ <;> first | rfl | cases h

theorem PSharedMutex.unlock_failed {m : PSharedMutex} {pid : ℕ}
    (h : (m.unlock pid).1.isOk = false) : (m.unlock pid).2 = m := by
  rw [unlock] at h ⊢
  split_ifs at h ⊢ <;> first | rfl | cases h

theorem PSharedBarrier.wait_error {b : PSharedBarrier} {pid : ℕ} {e : Errno}
    (h : (b.wait pid).1 = .error e) : e = .EAGAIN := by
  rw [wait] at h
  split at h <;> split_ifs at h <;> cases h <;> rfl

namespace PSharedTable

/-- The same primitives under the same numbers. -/
structure Same (t t' : PSharedTable) : Prop where
  mutexes : ∀ id, t'.mutexes.lookup id = t.mutexes.lookup id
  conds : ∀ id, t'.conds.lookup id = t.conds.lookup id
  barriers : ∀ id, t'.barriers.lookup id = t.barriers.lookup id
  nextId : t'.nextId = t.nextId

theorem Same.refl (t : PSharedTable) : Same t t := ⟨fun _ => rfl, fun _ => rfl, fun _ => rfl, rfl⟩

theorem same_onMutex {t : PSharedTable} {id : ℕ}
    {op : PSharedMutex → Except Errno Unit × PSharedMutex}
    (hop : ∀ m, (op m).1.isOk = false → (op m).2 = m) (h : (t.onMutex id op).1.isOk = false) :
    Same t (t.onMutex id op).2 := by
  rw [onMutex] at h ⊢
  cases hm : t.mutexes.lookup id with
  | none => exact .refl t
  | some m =>
    rw [hm] at h
    refine ⟨fun id' => ?_, fun _ => rfl, fun _ => rfl, rfl⟩
    simp only [hop m h, KeyMap.lookup_insert_eq]
    split_ifs with hid
    · rw [hid, hm]
    · rfl

variable {α : Type} [Caller α]

/-- The owner of a mutex begins to wait on a condition variable that there is not. -/
def WaitsInVain (t : PSharedTable) : PSharedCall α → Prop
  | .condWaitBegin a condId mutexId =>
    (∃ m, t.mutexes.lookup mutexId = some m ∧ m.owner = Caller.pid a) ∧
      t.conds.lookup condId = none
  | _ => False

theorem same_of_failed {t : PSharedTable} {call : PSharedCall α} {e : Errno}
    (hcall : ¬ t.WaitsInVain call) (he : (t.call call).1 = .error e) (hretry : e ≠ .EAGAIN) :
    Same t (t.call call).2 := by
  have hfail : (t.call call).1.isOk = false := by
    rw [he]
    rfl
  cases call with
  | mutexLock a id =>
    have hlock := t.mutexLock_eq id (Caller.pid a)
    rw [PSharedTable.call, isOk_zero, hlock.2] at hfail
    rw [PSharedTable.call, zero, hlock.1]
    exact same_onMutex (fun _ => PSharedMutex.trylock_failed) hfail
  | mutexTrylock =>
    rw [PSharedTable.call, isOk_zero] at hfail
    exact same_onMutex (fun _ => PSharedMutex.trylock_failed) hfail
  | mutexUnlock =>
    rw [PSharedTable.call, isOk_zero] at hfail
    exact same_onMutex (fun _ => PSharedMutex.unlock_failed) hfail
  | condWaitBegin a condId mutexId =>
    rw [PSharedTable.call, isOk_zero] at hfail
    rw [PSharedTable.call, zero]
    rcases t.condWaitBegin_cases condId mutexId (Caller.pid a) with
      ⟨h, -⟩ | h | ⟨m, hm, howner, ⟨hnone, -⟩ | ⟨c, -, h⟩⟩
    · rw [h]
      exact .refl t
    · rw [h]
      exact .refl t
    · exact absurd ⟨⟨m, hm, howner⟩, hnone⟩ hcall
    · rw [h] at hfail
      cases hfail
  | condWaitCheck a condId mutexId =>
    rw [PSharedTable.call, isOk_zero] at hfail
    rw [PSharedTable.call, zero]
    rcases t.condWaitCheck_cases condId mutexId (Caller.pid a) with
      ⟨_, h⟩ | ⟨c, w, m, -, -, -, -, -, -, h⟩
    · rw [h]
      exact .refl t
    · rw [h] at hfail
      cases hfail
  | barrierWait a id =>
    rw [PSharedTable.call, barrierWait] at he ⊢
    cases hb : t.barriers.lookup id with
    | none => exact .refl t
    | some b =>
      rw [hb] at he
      exact absurd (PSharedBarrier.wait_error he) hretry
  | mutexInit | condInit | condWaitAbort | removeProcess => cases hfail
  | mutexDestroy | condDestroy | barrierDestroy | condSignal | condBroadcast | barrierInit =>
    simp only [PSharedTable.call, zero, mutexDestroy, condDestroy, barrierDestroy, condSignal,
      condBroadcast, barrierInit] at hfail ⊢
    repeat' split at hfail
    all_goals simp_all [Except.map, Same.refl]

/-- **Calls that fail** leave the table as it was, apart from the beginning of a wait on a
condition variable that there is not, which gives the mutex up. -/
theorem same_of_error_iff (t : PSharedTable) (call : PSharedCall α) :
    (∀ e, (t.call call).1 = .error e → e ≠ .EAGAIN → Same t (t.call call).2) ↔
      ¬ t.WaitsInVain call := by
  refine ⟨fun h hvain => ?_, fun hcall _ => same_of_failed hcall⟩
  cases call with
  | condWaitBegin a condId mutexId =>
    obtain ⟨⟨m, hm, howner⟩, hnone⟩ := hvain
    have hbegin : t.condWaitBegin condId mutexId (Caller.pid a) =
        (.error .EINVAL, { t with mutexes := t.mutexes.insert mutexId m.release }) := by
      simp [condWaitBegin, hm, howner, hnone]
    rw [PSharedTable.call, hbegin] at h
    have hmutex := (h .EINVAL rfl (by decide)).mutexes mutexId
    rw [hm] at hmutex
    have hfree : m.release = m :=
      Option.some.inj ((AList.lookup_insert t.mutexes).symm.trans hmutex)
    have hzero : m.owner = 0 := by
      rw [← hfree]
      rfl
    exact (Caller.pid_pos a).ne' (howner.symm.trans hzero)
  | _ => exact hvain

/-- Process 7 holds mutex 1 and begins to wait on a condition variable that there is not: the
call fails, and the mutex is free. -/
theorem condWaitBegin_releases :
    let t := ((PSharedTable.new.mutexInit 0).2.mutexLock 1 7).2
    (t.condWaitBegin 5 1 7).1 = .error .EINVAL ∧
      (t.mutexes.lookup 1).map (·.owner) = some 7 ∧
      ((t.condWaitBegin 5 1 7).2.mutexes.lookup 1).map (·.owner) = some 0 := by
  decide

end PSharedTable

end PosixKernel
