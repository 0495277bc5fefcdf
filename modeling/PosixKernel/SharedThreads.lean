import PosixKernel.SharedBarriers
import PosixKernel.SharedConds

/-!
# Threads that Share Primitives

The table of shared primitives knows processes only. What it guarantees to processes of one thread
it guarantees to threads as long as two threads of one process do not use a primitive at the same
time.

## Main definitions

* `ThreadLog` — the observer of all primitives, thread by thread;
* `ThreadGuarantee` — what threads may expect;
* `NoClash` — the condition on a call.

## Main results

* `ThreadSound.next` — one call keeps the agreement with the table;
* `sharedThreads_guarantee` — the guarantee for threads.
-/

namespace PosixKernel

open PSharedTable

/-- A thread of a process. -/
@[ext]
structure ProcessThread where
  pid : ℕ
  tid : ℕ
  pid_pos : 0 < pid

instance : DecidableEq ProcessThread := fun _ _ => decidable_of_iff _ ProcessThread.ext_iff.symm

instance : Caller ProcessThread := ⟨ProcessThread.pid, ProcessThread.pid_pos⟩

/-! ### The observer -/

/-- A barrier as threads may expect it. -/
structure Meeting where
  count : ℕ
  barrier : CyclicBarrier ProcessThread

/-- What the observer knows: how often each thread holds each mutex, who waits on each condition
variable, and who is at each barrier. -/
structure ThreadLog where
  depths : Depths ProcessThread
  conds : ℕ → CondLog ProcessThread
  meetings : ℕ → Meeting

/-- The observer of barriers: every thread that arrives counts. -/
def recordMeeting (meetings : ℕ → Meeting) (call : PSharedCall ProcessThread)
    (r : Except Errno ℤ) : ℕ → Meeting :=
  match call with
  | .barrierInit count =>
    match r with
    | .ok new => fun id => if (id : ℤ) = new then ⟨count.toNat, .empty⟩ else meetings id
    | .error _ => meetings
  | .barrierWait a id =>
    Function.update meetings id
      { meetings id with barrier := ((meetings id).barrier.wait (meetings id).count a).2 }
  | .removeProcess pid => fun id =>
    { meetings id with barrier := (meetings id).barrier.remove (Caller.pid · = pid) }
  | _ => meetings

/-- The observer of all primitives. -/
def ThreadLog.record (log : ThreadLog) (call : PSharedCall ProcessThread) (r : Except Errno ℤ) :
    ThreadLog :=
  ⟨recordDepth log.depths call r, fun condId => recordWaits condId (log.conds condId) call r,
    recordMeeting log.meetings call r⟩

def ThreadLog.start : ThreadLog := ⟨fun _ _ => 0, fun _ => .start, fun _ => ⟨0, .empty⟩⟩

/-- A call, with the observer beside. -/
abbrev threadNext : PSharedTable × ThreadLog → PSharedCall ProcessThread →
    PSharedTable × ThreadLog :=
  Runs.observed PSharedTable.call ThreadLog.record

/-! ### What threads may expect -/

/-- **The guarantee.** Two threads do not hold the same mutex. A thread that waits on a condition
variable that was broadcast since, with a mutex that is free, succeeds when it asks. A thread at a
barrier is answered as at a barrier where every thread that arrives counts once. -/
structure ThreadGuarantee (t : PSharedTable) (log : ThreadLog) (call : PSharedCall ProcessThread) :
    Prop where
  alone : ∀ m a b, 0 < log.depths m a → 0 < log.depths m b → a = b
  woken : ∀ condId, ∀ x ∈ (log.conds condId).waits, x.since < (log.conds condId).broadcast →
    t.Owns x.mutex 0 → (t.call (.condWaitCheck x.agent condId x.mutex)).1 = .ok 0
  counted : ∀ a id b, call = .barrierWait a id → t.barriers.lookup id = some b →
    barrierAnswer (t.call call).1 =
      some ((log.meetings id).barrier.wait (log.meetings id).count a).1

/-- **The condition on a call**: no mutex is locked too often in a row, no other thread of the same
process holds the mutex, waits on the condition variable or is at the barrier, and a thread that
fills the list of a barrier finds no entry of an earlier round in it. -/
structure NoClash (s : PSharedTable × ThreadLog) (call : PSharedCall ProcessThread) : Prop where
  shallow : Shallow s.2.depths call
  mutex : MutexClear s.1 s.2.depths call
  cond : ∀ condId, CondClear s.1 condId (s.2.conds condId) call
  barrier : ∀ a id b, call = .barrierWait a id → s.1.barriers.lookup id = some b →
    BarrierClear (s.2.meetings id).barrier a ∧ b.Timely (Caller.pid a)

/-- The observer and the table agree. -/
structure ThreadSound (s : PSharedTable × ThreadLog) : Prop where
  mutexes : AgreesAll s.1 s.2.depths
  conds : ∀ condId, Tracks (s.2.conds condId) (s.1.waiters condId)
  barriers : ∀ id b, s.1.barriers.lookup id = some b →
    (s.2.meetings id).count = b.count ∧ Meets b (s.2.meetings id).barrier

theorem Meets.remove {b : PSharedBarrier} {c : CyclicBarrier ProcessThread} (h : Meets b c)
    (pid : ℕ) : Meets (b.forget pid) (c.remove (Caller.pid · = pid)) where
  waiters_eq := by
    show b.waiters.filter (·.pid ≠ pid) = _
    rw [h.filter_waiters]
    simp [CyclicBarrier.remove]
  distinct := by
    have hsub : (c.remove (Caller.pid · = pid)).freed ++ (c.remove (Caller.pid · = pid)).waiting
        = (c.freed ++ c.waiting).filter fun x => !decide (Caller.pid x = pid) := by
      rw [List.filter_append]
      rfl
    rw [hsub]
    exact h.distinct.filter _
  short := List.filter_sublist.length_le.trans_lt h.short

variable {call : PSharedCall ProcessThread}

theorem meetings_call {t : PSharedTable} {meetings : ℕ → Meeting}
    (h : ∀ id b, t.barriers.lookup id = some b →
      (meetings id).count = b.count ∧ Meets b (meetings id).barrier)
    (hclear : ∀ a id b, call = .barrierWait a id → t.barriers.lookup id = some b →
      BarrierClear (meetings id).barrier a ∧ b.Timely (Caller.pid a)) (id : ℕ) (b : PSharedBarrier)
    (hb : (t.call call).2.barriers.lookup id = some b) :
    (recordMeeting meetings call (t.call call).1 id).count = b.count ∧
      Meets b (recordMeeting meetings call (t.call call).1 id).barrier := by
  rw [lookup_barrier_call] at hb
  cases call with
  | barrierInit count =>
    simp only [barrierAfter] at hb
    by_cases hzero : count.toNat = 0
    · have hreply : (t.call (.barrierInit count : PSharedCall ProcessThread)).1 =
          .error .EINVAL := by
        simp [PSharedTable.call, barrierInit, hzero, Except.map]
      rw [dif_neg (by omega)] at hb
      rw [hreply]
      exact h id b hb
    have hreply : (t.call (.barrierInit count : PSharedCall ProcessThread)).1 =
        .ok (t.nextId : ℤ) := by
      simp [PSharedTable.call, barrierInit, hzero, Except.map]
    rw [dif_pos (Nat.pos_of_ne_zero hzero)] at hb
    rw [hreply]
    simp only [recordMeeting]
    split_ifs at hb with hid
    · cases hb
      rw [if_pos (by rw [hid])]
      exact ⟨rfl, rfl, .nil, Nat.pos_of_ne_zero hzero⟩
    rw [if_neg fun heq => hid (Nat.cast_inj.mp heq).symm]
    exact h id b hb
  | barrierWait a id' =>
    simp only [barrierAfter] at hb
    simp only [recordMeeting]
    by_cases hid : id' = id
    · subst hid
      rw [if_pos rfl] at hb
      obtain ⟨b', hb', rfl⟩ := Option.map_eq_some_iff.mp hb
      obtain ⟨hcount, hmeets⟩ := h id' b' hb'
      obtain ⟨hfree, htimely⟩ := hclear a id' b' rfl hb'
      rw [Function.update_self, hcount]
      exact ⟨(PSharedBarrier.count_wait ..).symm, (hmeets.wait hfree htimely).2⟩
    rw [if_neg hid] at hb
    rw [Function.update_of_ne (Ne.symm hid)]
    exact h id b hb
  | barrierDestroy =>
    simp only [barrierAfter] at hb
    split at hb
    · exact h id b (Option.filter_eq_some_iff.mp hb).1
    · exact h id b hb
  | removeProcess pid =>
    obtain ⟨b', hb', rfl⟩ := Option.map_eq_some_iff.mp hb
    obtain ⟨hcount, hmeets⟩ := h id b' hb'
    exact ⟨hcount, hmeets.remove pid⟩
  | _ => exact h id b hb

/-- **One call keeps the agreement.** -/
theorem ThreadSound.next {s : PSharedTable × ThreadLog} (h : ThreadSound s)
    (hclash : NoClash s call) : ThreadSound (threadNext s call) where
  mutexes := agrees_call h.mutexes hclash.shallow hclash.mutex
  conds condId := tracks_call (h.conds condId) (hclash.cond condId)
  barriers := meetings_call h.barriers hclash.barrier

/-- **Agreement gives the guarantee.** -/
theorem ThreadSound.guarantee {s : PSharedTable × ThreadLog} (h : ThreadSound s)
    (hclash : NoClash s call) : ThreadGuarantee s.1 s.2 call where
  alone m a b ha hb := by
    obtain ⟨-, -, -, -, hothers, -⟩ := (h.mutexes m).of_pos ha
    by_contra hne
    exact hb.ne' (hothers b (Ne.symm hne))
  woken condId x hx hbroadcast howns := by
    obtain ⟨w, hw, hstands⟩ := (h.conds condId).exists_waiter hx
    obtain ⟨m, hm, hfree⟩ := howns
    rcases hc : s.1.conds.lookup condId with _ | c
    · rw [waiters_of_none hc] at hw
      cases hw
    have hdistinct := (h.conds condId).waiters_distinct
    rw [waiters_of_lookup hc] at hw hdistinct
    have hfound := find?_eq_of_mem hdistinct hw
    rw [hstands.pid_eq] at hfound
    have hmarked := hstands.broadcast hbroadcast
    simp only [PSharedTable.call, PSharedTable.condWaitCheck, hc, hfound, hstands.mutex_eq,
      ne_eq, not_true, if_false, hmarked, Bool.true_eq_false, hm, hfree, false_and]
    rfl
  counted a id b hcall hb := by
    subst hcall
    obtain ⟨hcount, hmeets⟩ := h.barriers id b hb
    obtain ⟨hfree, htimely⟩ := hclash.barrier a id b rfl hb
    have hreply : (s.1.call (.barrierWait a id)).1 = (b.wait (Caller.pid a)).1 := by
      simp [PSharedTable.call, barrierWait, hb]
    rw [hreply, hcount]
    exact (hmeets.wait hfree htimely).1

/-- **Threads that share primitives.** In every run in which every call meets the condition, every
call respects the guarantee. -/
theorem sharedThreads_guarantee (calls : List (PSharedCall ProcessThread))
    (hrun : Runs threadNext NoClash (.new, .start) calls)
    (earlier later : List (PSharedCall ProcessThread)) (call : PSharedCall ProcessThread)
    (hcalls : calls = earlier ++ call :: later) :
    ThreadGuarantee (earlier.foldl threadNext (.new, .start)).1
      (earlier.foldl threadNext (.new, .start)).2 call := by
  subst hcalls
  obtain ⟨hsound, hclash⟩ := Runs.invariant_at (I := ThreadSound) hrun
    ⟨fun _ => .missing fun _ => rfl, fun _ => tracks_start,
      fun _ _ hb => absurd hb (by simp [new])⟩
    fun s call h hc => h.next hc
  exact hsound.guarantee hclash

theorem sharedThreads_guarantee_two :
    let a : ProcessThread := ⟨1, 1, by decide⟩
    let b : ProcessThread := ⟨1, 2, by decide⟩
    let calls : List (PSharedCall ProcessThread) := [.mutexInit 0, .mutexLock a 1, .mutexLock b 1]
    ThreadGuarantee ((calls.take 2).foldl threadNext (.new, .start)).1
      ((calls.take 2).foldl threadNext (.new, .start)).2 (.mutexLock b 1) := by
  intro a b calls
  refine sharedThreads_guarantee calls ⟨⟨trivial, trivial, fun _ => trivial, ?_⟩,
    ⟨by decide, fun m hm hrec => ?_, fun _ => trivial, ?_⟩,
    ⟨by decide, fun m hm hrec => ?_, fun _ => trivial, ?_⟩, trivial⟩ (calls.take 2) [] _ rfl
  · exact fun _ _ _ h => absurd h (by simp)
  · cases hm
    cases hrec
  · exact fun _ _ _ h => absurd h (by simp)
  · cases hm
    cases hrec
  · exact fun _ _ _ h => absurd h (by simp)

/-- Two threads of a process hold a recursive mutex; one of two threads of a process that waited on
a condition variable fails after a broadcast; and two threads of a process at a barrier for two both
wait. -/
theorem sharedThreads_clash :
    let a : ProcessThread := ⟨1, 1, by decide⟩
    let b : ProcessThread := ⟨1, 2, by decide⟩
    let run := fun calls : List (PSharedCall ProcessThread) =>
      calls.foldl threadNext (.new, .start)
    ((run [.mutexInit 1, .mutexLock a 1, .mutexLock b 1]).2.depths 1 a = 1 ∧
      (run [.mutexInit 1, .mutexLock a 1, .mutexLock b 1]).2.depths 1 b = 1) ∧
    ((run [.mutexInit 0, .condInit, .mutexLock a 1, .condWaitBegin a 2 1, .mutexLock b 1,
      .condWaitBegin b 2 1, .condBroadcast 2, .condWaitCheck a 2 1, .mutexUnlock a 1]).1.call
        (.condWaitCheck b 2 1)).1 = .error .EINVAL ∧
    ((run [.barrierInit 2, .barrierWait a 1]).1.call (.barrierWait b 1)).1 = .error .EAGAIN := by
  decide

end PosixKernel
