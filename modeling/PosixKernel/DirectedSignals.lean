import PosixKernel.Lib.SwapRemove
import PosixKernel.SignalCalls

/-!
# Signals Directed at a Thread

A signal that `tkill` directs at a thread with a record of its own waits in the record, and
no call of another thread touches it there. A signal directed at the main thread, which has
no record, waits with the signals of the process, and any thread may take it.

## Main results

* `ThreadedProcess.acts_run` — what one call can do to the signals of its process;
* `ThreadedProcess.Act.keeps` — what it does to those directed at another thread;
* `tkill_taken_by_target_only` — a signal directed at a thread with a record stays there
  through any calls of the other threads, from any state;
* `tkill_main_taken_by_other` — a signal directed at the main thread is handed to another
  one.
-/

namespace PosixKernel

/-! ### Pending signals that stay -/

/-- Nothing that was pending is lost: a pending signal still is, and of a real-time signal
every instance is still queued, in its order. -/
def PendingSignals.Keeps (w w' : PendingSignals) : Prop :=
  ∀ sig, (w.has sig = true → w'.has sig = true) ∧
    (SIGRTMIN ≤ sig → w.queued sig <+: w'.queued sig)

namespace PendingSignals.Keeps

variable {w w' w'' : PendingSignals}

/-- What is pending is kept by doing nothing. -/
theorem refl (w : PendingSignals) : w.Keeps w := fun _ => ⟨id, fun _ => List.prefix_rfl⟩

/-- Keeping composes. -/
theorem trans (h : w.Keeps w') (h' : w'.Keeps w'') : w.Keeps w'' := fun sig =>
  ⟨fun hw => (h' sig).1 ((h sig).1 hw), fun hrt => ((h sig).2 hrt).trans ((h' sig).2 hrt)⟩

/-- Raising a signal keeps the others. -/
theorem raiseInternal (w : PendingSignals) (sig : ℕ) (siValue siCode : ℤ) :
    w.Keeps (w.raiseInternal sig siValue siCode) := by
  refine fun n => ⟨fun hw => ?_, fun hrt => ?_⟩
  · rw [has_raiseInternal, hw, Bool.true_or]
  · rw [queued_raiseInternal hrt]
    exact List.prefix_append _ _

end PendingSignals.Keeps

namespace ThreadedProcess

/-! ### Numbers of threads -/

/-- Threads have different numbers, all given out before. -/
structure Numbered (p : ThreadedProcess) : Prop where
  nodup : (p.threads.map ThreadInfo.tid).Nodup
  below : ∀ n ∈ p.threads.map ThreadInfo.tid, n < p.nextTid

namespace Numbered

variable {p q : ThreadedProcess}

/-- Numbering only depends on the numbers. -/
theorem congr (h : p.Numbered) (htids : q.threads.map ThreadInfo.tid = p.threads.map ThreadInfo.tid)
    (hnext : q.nextTid = p.nextTid) : q.Numbered := by
  refine ⟨?_, ?_⟩
  · rw [htids]
    exact h.nodup
  · rw [htids, hnext]
    exact h.below

/-- Pending signals do not matter for it. -/
theorem sameButPending (h : p.Numbered) (hsame : p.SameButPending q) : q.Numbered :=
  h.congr hsame.tids hsame.nextTid

/-- Nor do masks. -/
theorem samePending (h : p.Numbered) (hsame : p.SamePending q) : q.Numbered :=
  h.congr hsame.tids hsame.nextTid

/-- A process of one thread is numbered. -/
theorem single (p : Process) : (ThreadedProcess.mk p .single).Numbered :=
  ⟨List.nodup_nil, fun _ hn => absurd hn List.not_mem_nil⟩

end Numbered

/-- A thread leaves; the others keep their records. -/
theorem removeThread_cases (p : ThreadedProcess) (tid : ℕ) :
    (p.removeThread tid = p ∧ ∀ t ∈ p.threads, t.tid ≠ tid) ∨
      ∃ x ts, x.tid = tid ∧ (x :: ts).Perm p.threads ∧
        p.removeThread tid = { p with threads := ts } := by
  rw [removeThread]
  rcases hidx : p.threads.findIdx? (fun t => t.tid = tid) with _ | i
  · refine .inl ⟨by rw [hidx], fun t ht htid => ?_⟩
    rw [List.findIdx?_eq_none_iff] at hidx
    exact absurd (hidx t ht) (by simp [htid])
  rcases hlast : p.threads.getLast? with _ | last
  · rw [List.getLast?_eq_none_iff] at hlast
    rw [hlast] at hidx
    cases hidx
  obtain ⟨hi, htid, -⟩ := List.findIdx?_eq_some_iff_getElem.mp hidx
  refine .inr ⟨p.threads[i], (p.threads.set i last).dropLast, by simpa using htid, ?_,
    by rw [hidx]⟩
  exact SwapRemove.perm_swapRemove (List.getElem?_eq_getElem hi) hlast

/-- A thread that leaves changes nothing but the list of threads. -/
theorem removeThread_eq (p : ThreadedProcess) (tid : ℕ) :
    p.removeThread tid = { p with threads := (p.removeThread tid).threads } := by
  rcases p.removeThread_cases tid with ⟨heq, -⟩ | ⟨x, ts, -, -, heq⟩
  · rw [heq]
  · rw [heq]

/-- It stays so when a thread leaves. -/
theorem Numbered.removeThread {p : ThreadedProcess} (h : p.Numbered) (tid : ℕ) :
    (p.removeThread tid).Numbered := by
  rcases p.removeThread_cases tid with ⟨heq, -⟩ | ⟨x, ts, -, hperm, heq⟩
  · rwa [heq]
  rw [heq]
  have htids := hperm.map ThreadInfo.tid
  refine ⟨(htids.nodup_iff.mpr h.nodup).of_cons, fun n hn => h.below n ?_⟩
  exact htids.mem_iff.mp (List.mem_cons_of_mem _ hn)

/-- And when one joins with a new number. -/
theorem Numbered.join {p : ThreadedProcess} (h : p.Numbered) {t : ThreadInfo}
    (hnew : p.nextTid ≤ t.tid) :
    Numbered { p with nextTid := t.tid + 1, threads := p.threads ++ [t] } := by
  have hfresh : t.tid ∉ p.threads.map ThreadInfo.tid :=
    fun hmem => absurd (h.below _ hmem) (Nat.not_lt.mpr hnew)
  refine ⟨?_, fun n hn => ?_⟩
  · rw [List.map_append, List.map_singleton, List.nodup_append]
    exact ⟨h.nodup, List.nodup_singleton _, fun a ha b hb => by
      rw [List.mem_singleton.mp hb]
      exact fun hab => hfresh (hab ▸ ha)⟩
  rw [List.map_append, List.map_singleton, List.mem_append, List.mem_singleton] at hn
  rcases hn with hn | rfl
  · exact Nat.lt_succ_of_le ((h.below n hn).le.trans hnew)
  · exact Nat.lt_succ_self _

/-- The other threads stay when one leaves. -/
theorem Numbered.getThread_removeThread {p : ThreadedProcess} (h : p.Numbered) {tid t : ℕ}
    (ht : t ≠ tid) : (p.removeThread tid).getThread t = p.getThread t := by
  rcases p.removeThread_cases tid with ⟨heq, -⟩ | ⟨x, ts, hx, hperm, heq⟩
  · rw [heq]
  · rw [heq]
    exact SwapRemove.find?_swapRemove h.nodup hperm fun htx => ht (htx.trans hx)

/-- So do the other workers. -/
theorem Numbered.worker_removeThread {p : ThreadedProcess} (h : p.Numbered) {tid t : ℕ}
    (ht : t ≠ tid) : (p.removeThread tid).worker t = p.worker t := by
  have hmain : (p.removeThread tid).isMainThread t = p.isMainThread t := by
    rw [removeThread_eq]
    rfl
  rw [worker, worker, hmain, h.getThread_removeThread ht]

/-- The one that leaves is gone. -/
theorem Numbered.getThread_removeThread_self {p : ThreadedProcess} (h : p.Numbered) (tid : ℕ) :
    (p.removeThread tid).getThread tid = none := by
  rw [getThread, List.find?_eq_none]
  intro t ht htid
  rw [decide_eq_true_iff] at htid
  rcases p.removeThread_cases tid with ⟨heq, hnone⟩ | ⟨x, ts, hx, hperm, heq⟩
  · rw [heq] at ht
    exact hnone t ht htid
  rw [heq] at ht
  have hnodup := (hperm.map ThreadInfo.tid).nodup_iff.mpr h.nodup
  rw [List.map_cons, List.nodup_cons] at hnodup
  exact hnodup.1 (hx ▸ htid ▸ List.mem_map_of_mem ht)

/-- A thread that leaves takes its pending signals with it, and no others. -/
theorem Numbered.pendingAt_removeThread {p : ThreadedProcess} (h : p.Numbered) {tid : ℕ}
    {k : Target} (hk : k ≠ .thread tid) : (p.removeThread tid).pendingAt k = p.pendingAt k := by
  cases k with
  | process =>
    rw [removeThread_eq]
    rfl
  | thread =>
    rw [pendingAt, pendingAt, h.worker_removeThread fun ht => hk (congrArg Target.thread ht)]

/-- The thread of a number after one joined. -/
theorem getThread_join (p : ThreadedProcess) (u : ThreadInfo) (t : ℕ) :
    ThreadedProcess.getThread { p with nextTid := u.tid + 1, threads := p.threads ++ [u] } t =
      (p.getThread t).or (if u.tid = t then some u else none) := by
  rw [getThread, List.find?_append, List.find?_singleton]
  simp only [decide_eq_true_eq]
  rfl

/-- A new thread has nothing pending, and changes nothing for the others. -/
theorem pendingAt_join (p : ThreadedProcess) (u : ThreadInfo)
    (hempty : u.signals.toPendingSignals = .empty) (k : Target) :
    ThreadedProcess.pendingAt { p with nextTid := u.tid + 1, threads := p.threads ++ [u] } k =
      p.pendingAt k := by
  cases k with
  | process => rfl
  | thread t =>
    have hmain : ThreadedProcess.isMainThread
        { p with nextTid := u.tid + 1, threads := p.threads ++ [u] } t = p.isMainThread t := rfl
    rw [pendingAt, pendingAt, worker, worker, hmain, getThread_join]
    cases p.isMainThread t with
    | true => rfl
    | false =>
      rcases p.getThread t with _ | v
      · by_cases hu : u.tid = t
        · simp [hu, hempty]
        · simp [hu]
      · rfl

/-! ### What a call can do -/

/-- What a thread can do to the signals of its process in one go. -/
inductive Act (tid : ℕ) (p : ThreadedProcess) : ThreadedProcess → Prop
  | same {q : ThreadedProcess} (h : p.SamePending q) : Act tid p q
  | update (f : SignalState → SignalState) : Act tid p (p.updSignals f)
  | raise {k : Target} (hk : p.knows k = true) (sig : ℕ) (siValue siCode : ℤ) :
      Act tid p (p.raiseAt k sig siValue siCode)
  | take (signum : ℕ) : Act tid p (p.dequeueSignalFor tid signum).2
  | drain {q : ThreadedProcess} (h : Drains tid p q) : Act tid p q
  | join {t : ThreadInfo} (hempty : t.signals.toPendingSignals = .empty)
      (hnew : p.nextTid ≤ t.tid) :
      Act tid p { p with nextTid := t.tid + 1, threads := p.threads ++ [t] }
  | leave : Act tid p (p.removeThread tid)

/-- Sequences of such steps. -/
abbrev Acts (tid : ℕ) : ThreadedProcess → ThreadedProcess → Prop := Relation.ReflTransGen (Act tid)

variable {tid : ℕ} {p q : ThreadedProcess}

/-- A dequeue is some acts of the thread. -/
theorem acts_kernelDequeueSignal (tid : ℕ) (p : ThreadedProcess) :
    Acts tid p (kernelDequeueSignal tid p).2 := by
  obtain ⟨mid, hdrains, ⟨-, hq, -⟩ | ⟨signum, -, -, ⟨idx, -, -, hq⟩ | ⟨-, -, -, hq⟩⟩⟩ :=
    kernelDequeueSignal_cases tid p
  · rw [hq]
    exact .single (.drain hdrains)
  · rw [hq]
    refine ((Relation.ReflTransGen.single (.drain hdrains)).tail (.take signum)).tail (.same ?_)
    exact .startHandler mid tid signum idx _
  rw [hq]
  refine ((Relation.ReflTransGen.single (.drain hdrains)).tail (.take signum)).tail (.same ?_)
  exact (SamePending.dropSavedMasks _).trans (.exited _ _ _)

/-- **What a call can do** to the signals of its process. -/
theorem acts_run (op : SignalOp) (tid : ℕ) (p : ThreadedProcess) : Acts tid p (op.run tid p).2 := by
  have heffect : ∀ q, SignalEffect tid p q → Acts tid p q := by
    rintro q (_ | ⟨hk, sig, siValue, siCode⟩ | ⟨sig, action⟩ | mask | mask | ⟨polled, mask⟩ |
      signum | signum | a)
    · exact .refl
    · exact .single (.raise hk sig siValue siCode)
    · exact .single (.update fun s => s.setAction sig action)
    · exact .single (.same (.setBlockedFor p tid _))
    · exact .single (.same (.installMask p tid mask))
    · exact .single (.same (.maskedPoll p tid polled mask))
    · exact .single (.take signum)
    · exact .single (.update fun s => s.clearPending signum)
    · exact .single (.same (.altStack p a))
  refine run_rule op tid p (fun q hq =>
    ⟨heffect q hq, (heffect q hq).tail (.drain (deliverPendingSignals_drains tid q).1)⟩)
    (fun t hnew hnext => .single (.join ?_ hnext)) (.single .leave)
    fun _ => acts_kernelDequeueSignal tid p
  rw [hnew]

/-! ### What other threads leave alone -/

variable (h : p.Numbered)

include h

/-- An act keeps the numbering. -/
theorem Act.numbered (hact : Act tid p q) : q.Numbered := by
  cases hact with
  | same hsame => exact h.samePending hsame
  | update => exact h.congr rfl rfl
  | raise hk sig siValue siCode => exact h.sameButPending (.raiseAt p _ sig siValue siCode)
  | take signum => exact h.sameButPending (.dequeueSignalFor p tid signum)
  | drain hdrains => exact h.sameButPending hdrains.same
  | join hempty hnew => exact h.join hnew
  | leave => exact h.removeThread tid

/-- So do acts. -/
theorem Acts.numbered (hacts : Acts tid p q) : q.Numbered := by
  induction hacts with
  | refl => exact h
  | tail _ hact ih => exact hact.numbered ih

/-- **What a thread does to the signals directed at another one**: it takes none. -/
theorem Act.keeps {t : ℕ} (ht : t ≠ tid) (hact : Act tid p q) :
    (p.pendingAt (.thread t)).Keeps (q.pendingAt (.thread t)) := by
  have hsame : q.pendingAt (.thread t) = p.pendingAt (.thread t) →
      (p.pendingAt (.thread t)).Keeps (q.pendingAt (.thread t)) := by
    intro heq
    rw [heq]
    exact .refl _
  cases hact with
  | same hs => exact hsame (hs.places _)
  | update => exact hsame rfl
  | raise hk sig siValue siCode =>
    rw [pendingAt_raiseAt p hk]
    split
    next heq =>
      rw [← heq]
      exact .raiseInternal _ sig siValue siCode
    next => exact .refl _
  | take signum => exact hsame (pendingAt_dequeueSignalFor_of_ne p ht signum)
  | drain hdrains => exact hsame (hdrains.others t ht)
  | join hempty => exact hsame (p.pendingAt_join _ hempty (.thread t))
  | leave => exact hsame (h.pendingAt_removeThread fun heq => ht (Target.thread.inj heq))

/-- Acts of one thread keep what is pending for another. -/
theorem Acts.keeps {t : ℕ} (ht : t ≠ tid) (hacts : Acts tid p q) :
    (p.pendingAt (.thread t)).Keeps (q.pendingAt (.thread t)) := by
  induction hacts with
  | refl => exact .refl _
  | tail hacts hact ih => exact ih.trans (hact.keeps (Acts.numbered h hacts) ht)

/-! ### Runs -/

/-- A run keeps the numbering. -/
theorem numbered_perform (ops : List (ℕ × SignalOp)) : (p.perform ops).Numbered := by
  induction ops generalizing p with
  | nil => exact h
  | cons o ops ih => exact ih (Acts.numbered h (acts_run o.2 o.1 p))

/-- Calls of the other threads take nothing that is directed at a thread. -/
theorem keeps_perform {t : ℕ} (ops : List (ℕ × SignalOp)) (hothers : ∀ o ∈ ops, o.1 ≠ t) :
    (p.pendingAt (.thread t)).Keeps ((p.perform ops).pendingAt (.thread t)) := by
  induction ops generalizing p with
  | nil => exact .refl _
  | cons o ops ih =>
    have hacts := acts_run o.2 o.1 p
    have hstep := Acts.keeps h (hothers o List.mem_cons_self).symm hacts
    exact hstep.trans (ih (Acts.numbered h hacts) fun o' ho' => hothers o' (.tail o ho'))

omit h

/-- A signal directed at a thread with a record is in the record, and nowhere else. -/
theorem pendingAt_sysTkill {target sig : ℕ} (hworker : (p.worker target).isSome = true)
    (hsig : validSignal sig = true) (siValue siCode : ℤ) :
    ((p.sysTkill target sig siValue siCode).2.pendingAt (.thread target)).has sig = true ∧
      (SIGRTMIN ≤ sig →
        ∃ e ∈ ((p.sysTkill target sig siValue siCode).2.pendingAt (.thread target)).queued sig,
          e.siValue = siValue) ∧
      ∀ k, k ≠ .thread target →
        (p.sysTkill target sig siValue siCode).2.pendingAt k = p.pendingAt k := by
  have hhome : p.homeOf target = .thread target := by
    obtain ⟨t, ht⟩ := Option.isSome_iff_exists.mp hworker
    rw [homeOf, ht]
  have hraised : ∀ v c, ((p.raiseAt (p.homeOf target) sig v c).pendingAt
      (.thread target)).has sig = true ∧ (SIGRTMIN ≤ sig →
        ∃ e ∈ ((p.raiseAt (p.homeOf target) sig v c).pendingAt (.thread target)).queued sig,
          e.siValue = v) ∧
      ∀ k, k ≠ .thread target → (p.raiseAt (p.homeOf target) sig v c).pendingAt k =
        p.pendingAt k := by
    intro v c
    rw [pendingAt_raiseAt p (p.knows_homeOf target), if_pos hhome.symm,
      PendingSignals.has_raiseInternal, hsig]
    refine ⟨by simp, fun hrt => ?_, fun k hk => ?_⟩
    · rw [PendingSignals.queued_raiseInternal hrt, if_pos ⟨hsig, rfl⟩]
      exact ⟨_, List.mem_append_right _ List.mem_cons_self, rfl⟩
    · rw [pendingAt_raiseAt p (p.knows_homeOf target), hhome, if_neg hk]
  obtain ⟨hpos, hle⟩ := validSignal_iff.mp hsig
  rw [sysTkill, if_neg (by simp only [NSIG]; omega), if_neg (by omega)]
  split
  · exact hraised siValue (-1)
  next hplain =>
    rw [not_or, not_not, not_not] at hplain
    rw [hplain.2]
    exact hraised 0 0

end ThreadedProcess

open ThreadedProcess in
/-- **Signals directed at a thread.** In any run of a process that started with its main
thread only, any thread directs a signal with `tkill` at a thread with a record of its own.
The signal is then pending in that record and nowhere else; the delivery that ends the call
takes it only if the thread called itself; and in every state that any calls of any threads
lead to from there, no calls of the other threads take anything out of the record, whatever
they do and whatever their masks. -/
theorem tkill_taken_by_target_only (p₀ : Process) (before : List (ℕ × SignalOp))
    (target sig : ℕ) (siValue siCode : ℤ) (hsig : validSignal sig = true)
    (hworker : (((ThreadedProcess.mk p₀ .single).perform before).worker target).isSome = true) :
    let p := (ThreadedProcess.mk p₀ .single).perform before
    let sent := (p.sysTkill target sig siValue siCode).2
    ((sent.pendingAt (.thread target)).has sig = true ∧
      (SIGRTMIN ≤ sig → ∃ e ∈ (sent.pendingAt (.thread target)).queued sig, e.siValue = siValue) ∧
      ∀ k, k ≠ .thread target → sent.pendingAt k = p.pendingAt k) ∧
    ∀ caller, let q := ((SignalOp.tkill target sig siValue siCode).run caller p).2
      (caller ≠ target → q.pendingAt (.thread target) = sent.pendingAt (.thread target)) ∧
      ∀ after others, (∀ o ∈ others, o.1 ≠ target) →
        ((q.perform after).pendingAt (.thread target)).Keeps
          (((q.perform after).perform others).pendingAt (.thread target)) := by
  intro p sent
  have hnumbered : p.Numbered := numbered_perform (.single p₀) before
  refine ⟨pendingAt_sysTkill hworker hsig siValue siCode, fun caller => ⟨fun hcaller => ?_,
    fun after others hothers => keeps_perform (numbered_perform ?_ after) others hothers⟩⟩
  · exact (deliverPendingSignals_drains caller _).1.others target hcaller.symm
  · exact Acts.numbered hnumbered (acts_run (.tkill target sig siValue siCode) caller p)

/-- A thread that blocks a signal queues a value of it for itself and makes a further call; the
value outlives the calls of the main thread that would take any signal it can. -/
theorem tkill_taken_by_target_only_worker :
    let p := (ThreadedProcess.new 10).perform
      [(0, .clone (CLONE_VM ||| CLONE_THREAD)), (11, .sigprocmask SIG_BLOCK (sigBit 40))]
    let q := (((SignalOp.tkill 11 40 5 (-1)).run 11 p).2).perform [(11, .dequeue)]
    (q.pendingAt (.thread 11)).has 40 = true ∧ (q.pendingAt (.thread 11)).Keeps
      ((q.perform [(0, .sigtimedwait (~~~0)), (0, .dequeue)]).pendingAt (.thread 11)) :=
  ⟨by decide +kernel, ((tkill_taken_by_target_only (Process.new 10)
    [(0, .clone (CLONE_VM ||| CLONE_THREAD)), (11, .sigprocmask SIG_BLOCK (sigBit 40))] 11 40 5 (-1)
    (by decide) (by decide +kernel)).2 11).2 [(11, .dequeue)]
    [(0, .sigtimedwait (~~~0)), (0, .dequeue)] (by decide)⟩

/-- The main thread directs a signal at itself while it blocks it; another thread takes it,
by waiting for it or by running its handler. -/
theorem tkill_main_taken_by_other :
    let p := (ThreadedProcess.new 10).perform
      [(0, .clone (CLONE_VM ||| CLONE_THREAD)), (0, .sigaction 10 7 0 0),
        (0, .sigprocmask SIG_BLOCK (sigBit 10)), (0, .tkill 10 10 0 0)]
    ((SignalOp.sigtimedwait (sigBit 10)).run 11 p).1 = .ok (.taken 10 0 0) ∧
      (ThreadedProcess.kernelDequeueSignal 11 p).1.map (fun d => (d.signum, d.handlerIdx)) =
        some (10, 7) := by
  decide +kernel

end PosixKernel
