import PosixKernel.DirectedSignals

/-!
# The Masks of Threads

What the functions that change masks do to the masks of every thread of a process. A thread
has a mask in force and possibly one that a wait set aside; both live in the place of the
thread, so a change for one thread shows for another only if both have the same place.

## Main results

* `ThreadedProcess.blockedFor_setBlockedFor` — the masks after one is replaced;
* `ThreadedProcess.blockedFor_restoreMask`, `ThreadedProcess.sigsuspendSavedMaskFor_restoreMask`
  — a mask that was set aside comes back;
* `ThreadedProcess.dequeue_deliver` — what the host is told after the kernel delivered what
  has no handler;
* `ThreadedProcess.maskStep_run` — what one call can do to the masks of its process;
* `ThreadedProcess.MaskStep.masksIn` — what follows for all masks together.
-/

namespace PosixKernel

open SignalState

/-- A mask that blocks neither `SIGKILL` nor `SIGSTOP`. -/
def Permitted (mask : UInt64) : Prop := mask &&& sigGuard = 0

instance (mask : UInt64) : Decidable (Permitted mask) := by unfold Permitted; infer_instance

/-- The guard is the set of SIGKILL and SIGSTOP. -/
theorem inMask_sigGuard (signum : ℕ) :
    inMask sigGuard signum = (decide (signum = SIGKILL) || decide (signum = SIGSTOP)) := by
  have hkill : validSignal SIGKILL = true := by decide
  have hstop : validSignal SIGSTOP = true := by decide
  rw [sigGuard, inMask_or, inMask_sigBit, inMask_sigBit, hkill, hstop, Bool.true_and,
    Bool.true_and]

/-- A permitted mask blocks neither SIGKILL nor SIGSTOP. -/
theorem permitted_iff {mask : UInt64} :
    Permitted mask ↔ inMask mask SIGKILL = false ∧ inMask mask SIGSTOP = false := by
  rw [Permitted, mask_eq_zero_iff]
  constructor
  · intro h
    constructor
    · simpa [inMask_sigGuard] using h SIGKILL
    · simpa [inMask_sigGuard] using h SIGSTOP
  rintro ⟨hkill, hstop⟩ signum
  rw [inMask_and, inMask_sigGuard]
  by_cases h : signum = SIGKILL
  · rw [h, hkill, Bool.false_and]
  by_cases h' : signum = SIGSTOP
  · rw [h', hstop, Bool.false_and]
  · simp [h, h']

/-- A mask without the guard is permitted. -/
theorem permitted_strip (mask : UInt64) : Permitted (mask &&& ~~~sigGuard) := by
  rw [permitted_iff]
  simp [inMask_sigGuard]

/-- Stripping the two signals changes nothing exactly if the mask is permitted. -/
theorem strip_eq_self_iff {mask : UInt64} : mask &&& ~~~sigGuard = mask ↔ Permitted mask := by
  refine ⟨fun h => h ▸ permitted_strip mask, fun h => BitSet.ext fun i hi => ?_⟩
  have hbit : BitSet.mem (mask &&& sigGuard) i = false := by
    rw [h]
    exact BitSet.mem_zero i
  rw [BitSet.mem_and] at hbit
  rw [BitSet.mem_and, BitSet.mem_not]
  cases hmask : BitSet.mem mask i with
  | false => rfl
  | true =>
    rw [hmask, Bool.true_and] at hbit
    simp [hbit, hi]

/-- A union is permitted when both masks are. -/
theorem permitted_or {a b : UInt64} : Permitted (a ||| b) ↔ Permitted a ∧ Permitted b := by
  simp only [permitted_iff, inMask_or, Bool.or_eq_false_iff]
  exact and_and_and_comm

namespace ThreadedProcess

variable {p q : ThreadedProcess} {tid u t : ℕ}

/-! ### Threads that are there -/

/-- Whether a thread is there: the main one, or one with a record. -/
def HasThread (p : ThreadedProcess) (tid : ℕ) : Prop :=
  p.isMainThread tid = true ∨ tid ∈ p.threads.map ThreadInfo.tid

instance (p : ThreadedProcess) (tid : ℕ) : Decidable (p.HasThread tid) := by
  unfold HasThread
  infer_instance

/-- Processes with the same thread numbers have the same threads. -/
theorem HasThread.congr (h : p.HasThread tid) (hpid : q.pid = p.pid)
    (htids : q.threads.map ThreadInfo.tid = p.threads.map ThreadInfo.tid) : q.HasThread tid := by
  rwa [HasThread, isMainThread, hpid, htids]

/-- A worker is found by its number when it is in the list. -/
theorem isSome_getThread_iff :
    (p.getThread tid).isSome = true ↔ tid ∈ p.threads.map ThreadInfo.tid := by
  rw [getThread, List.find?_isSome, List.mem_map]
  simp

/-- The place of a thread depends on the numbers of the threads only. -/
theorem homeOf_eq (p : ThreadedProcess) (tid : ℕ) :
    p.homeOf tid = if p.isMainThread tid = false ∧ tid ∈ p.threads.map ThreadInfo.tid then
      .thread tid else .process := by
  rw [homeOf, worker]
  cases hmain : p.isMainThread tid with
  | true => simp
  | false =>
    have hiff := @isSome_getThread_iff p tid
    rcases hget : p.getThread tid with _ | t
    · rw [hget] at hiff
      have hnot : tid ∉ p.threads.map ThreadInfo.tid := by simpa using hiff
      simp only [Bool.false_eq_true, if_false]
      rw [if_neg fun h => hnot h.2]
    rw [hget] at hiff
    simp only [Bool.false_eq_true, if_false]
    rw [if_pos ⟨trivial, hiff.mp rfl⟩]

/-- The same numbers keep their signals at the same place. -/
theorem homeOf_congr (hpid : q.pid = p.pid)
    (htids : q.threads.map ThreadInfo.tid = p.threads.map ThreadInfo.tid) (tid : ℕ) :
    q.homeOf tid = p.homeOf tid := by
  rw [homeOf_eq, homeOf_eq, isMainThread, isMainThread, hpid, htids]

/-! ### One mask replaced -/

/-- **The masks after one is replaced**: those of the threads with the same place change. -/
theorem blockedFor_setBlockedFor (p : ThreadedProcess) (u : ℕ) (mask : UInt64) (t : ℕ) :
    (p.setBlockedFor u mask).blockedFor t =
      if p.homeOf t = p.homeOf u then mask else p.blockedFor t := by
  rw [setBlockedFor, homeOf, homeOf]
  rcases hu : p.worker u with _ | info
  · rw [blockedFor, blockedFor, worker_updSignals]
    rcases p.worker t with _ | info'
    · rw [if_pos rfl]
      rfl
    · rw [if_neg Target.noConfusion]
  rw [blockedFor, blockedFor, worker_updThread]
  by_cases ht : t = u
  · rw [ht, hu, if_pos rfl, if_pos rfl]
    rfl
  rw [if_neg ht]
  rcases p.worker t with _ | info'
  · rw [if_neg Target.noConfusion]
    rfl
  · rw [if_neg fun h => ht (Target.thread.inj h)]

/-- A thread reads back the mask it set. -/
@[simp] theorem blockedFor_setBlockedFor_self (p : ThreadedProcess) (tid : ℕ) (mask : UInt64) :
    (p.setBlockedFor tid mask).blockedFor tid = mask := by
  rw [blockedFor_setBlockedFor, if_pos rfl]

/-- Setting a mask saves none. -/
@[simp] theorem sigsuspendSavedMaskFor_setBlockedFor (p : ThreadedProcess) (u : ℕ)
    (mask : UInt64) (t : ℕ) :
    (p.setBlockedFor u mask).sigsuspendSavedMaskFor t = p.sigsuspendSavedMaskFor t := by
  rw [setBlockedFor]
  rcases p.worker u with _ | info
  · rfl
  · exact p.sigsuspendSavedMaskFor_updThread u (f := fun s => { s with blocked := mask })
      (fun _ => rfl) t

/-- Saving a mask blocks nothing. -/
@[simp] theorem blockedFor_setSigsuspendSavedMaskFor (p : ThreadedProcess) (u : ℕ)
    (val : Option UInt64) (t : ℕ) :
    (p.setSigsuspendSavedMaskFor u val).blockedFor t = p.blockedFor t := by
  rw [setSigsuspendSavedMaskFor]
  split
  · rfl
  · exact p.blockedFor_updThread u (f := fun s => { s with sigsuspendSavedMask := val })
      (fun _ => rfl) t

/-- A thread of the process reads back the mask it saved. -/
theorem sigsuspendSavedMaskFor_set_self (h : p.HasThread tid) (val : Option UInt64) :
    (p.setSigsuspendSavedMaskFor tid val).sigsuspendSavedMaskFor tid = val := by
  rw [setSigsuspendSavedMaskFor]
  cases hmain : p.isMainThread tid with
  | true =>
    rw [if_pos rfl, sigsuspendSavedMaskFor]
    exact if_pos hmain
  | false =>
    obtain ⟨t, ht⟩ := Option.isSome_iff_exists.mp
      (isSome_getThread_iff.mpr (h.resolve_left (by rw [hmain]; exact Bool.false_ne_true)))
    have hmain' : (p.updThread tid fun s => { s with sigsuspendSavedMask := val }).isMainThread
        tid = false := hmain
    rw [if_neg Bool.false_ne_true, sigsuspendSavedMaskFor, hmain', if_neg Bool.false_ne_true,
      getThread_updThread, if_pos rfl, ht]
    rfl

/-- A mask set aside for one thread is set aside for no other, and not at all for a thread
that is not there. -/
theorem sigsuspendSavedMaskFor_set_cases (p : ThreadedProcess) (u : ℕ) (val : Option UInt64)
    (t : ℕ) :
    (p.setSigsuspendSavedMaskFor u val).sigsuspendSavedMaskFor t = p.sigsuspendSavedMaskFor t ∨
      p.homeOf t = p.homeOf u ∧
        (p.setSigsuspendSavedMaskFor u val).sigsuspendSavedMaskFor t = val := by
  have hprocess : ∀ {n}, p.isMainThread n = true → p.homeOf n = .process := fun h => by
    rw [homeOf, worker, if_pos h]
  rw [setSigsuspendSavedMaskFor]
  cases hu : p.isMainThread u with
  | true =>
    rw [if_pos rfl, sigsuspendSavedMaskFor, sigsuspendSavedMaskFor]
    cases ht : p.isMainThread t with
    | true => exact .inr ⟨(hprocess ht).trans (hprocess hu).symm, if_pos ht⟩
    | false => exact .inl (if_neg (by rw [← Bool.not_eq_true] at ht; exact ht))
  | false =>
    have hmain : (p.updThread u fun s => { s with sigsuspendSavedMask := val }).isMainThread t =
        p.isMainThread t := rfl
    rw [if_neg Bool.false_ne_true, sigsuspendSavedMaskFor, sigsuspendSavedMaskFor, hmain,
      getThread_updThread]
    by_cases ht : t = u
    · subst ht
      rw [hu, if_pos rfl]
      rcases p.getThread t with _ | info
      · exact .inl rfl
      · exact .inr ⟨rfl, rfl⟩
    · rw [if_neg ht]
      exact .inl rfl

/-- Once it is cleared no mask is saved, whatever the number. -/
@[simp] theorem sigsuspendSavedMaskFor_set_none (p : ThreadedProcess) (tid : ℕ) :
    (p.setSigsuspendSavedMaskFor tid none).sigsuspendSavedMaskFor tid = none := by
  by_cases h : p.HasThread tid
  · exact sigsuspendSavedMaskFor_set_self h none
  rcases p.sigsuspendSavedMaskFor_set_cases tid none tid with heq | ⟨-, heq⟩
  · rw [heq, sigsuspendSavedMaskFor, if_neg fun hmain => h (.inl hmain)]
    rcases hget : p.getThread tid with _ | info
    · rfl
    · exact absurd (.inr (isSome_getThread_iff.mp (by rw [hget]; rfl))) h
  · exact heq

/-! ### Waits -/

/-- **A mask that was set aside comes back.** -/
theorem blockedFor_restoreMask (p : ThreadedProcess) (tid : ℕ) :
    (p.restoreMask tid).blockedFor tid =
      (p.sigsuspendSavedMaskFor tid).getD (p.blockedFor tid) := by
  rw [restoreMask, takeSigsuspendSavedMaskFor]
  rcases p.sigsuspendSavedMaskFor tid with _ | saved
  · exact p.blockedFor_setSigsuspendSavedMaskFor tid none tid
  · exact blockedFor_setBlockedFor_self _ tid saved

/-- After a restore no mask is saved. -/
theorem sigsuspendSavedMaskFor_restoreMask (p : ThreadedProcess) (tid : ℕ) :
    (p.restoreMask tid).sigsuspendSavedMaskFor tid = none := by
  rw [restoreMask, takeSigsuspendSavedMaskFor]
  rcases p.sigsuspendSavedMaskFor tid with _ | saved
  · exact p.sigsuspendSavedMaskFor_set_none tid
  · exact (sigsuspendSavedMaskFor_setBlockedFor _ tid saved tid).trans
      (p.sigsuspendSavedMaskFor_set_none tid)

/-- A call made again over a saved mask installs nothing. -/
theorem installMask_of_saved {mask saved : UInt64} (h : p.sigsuspendSavedMaskFor tid = some saved) :
    p.installMask tid mask = p := by
  rw [installMask, h]

/-- An installed mask blocks all it names but the guard. -/
theorem blockedFor_installMask (h : p.sigsuspendSavedMaskFor tid = none) (mask : UInt64) :
    (p.installMask tid mask).blockedFor tid = mask &&& ~~~sigGuard := by
  rw [installMask, h]
  exact blockedFor_setBlockedFor_self _ tid _

/-- The mask in force is set aside, once. -/
theorem sigsuspendSavedMaskFor_installMask (hthread : p.HasThread tid) (mask : UInt64) :
    (p.installMask tid mask).sigsuspendSavedMaskFor tid =
      some ((p.sigsuspendSavedMaskFor tid).getD (p.blockedFor tid)) := by
  rcases hsaved : p.sigsuspendSavedMaskFor tid with _ | saved
  · rw [installMask, hsaved]
    exact (sigsuspendSavedMaskFor_setBlockedFor _ tid _ tid).trans
      (sigsuspendSavedMaskFor_set_self hthread _)
  · rw [installMask_of_saved hsaved, hsaved]
    rfl

/-! ### Handlers -/

/-- The mask that comes back when a handler returns. -/
theorem oldMask_startHandler (p : ThreadedProcess) (tid signum : ℕ) (idx : UInt32)
    (action : SignalAction) : (p.startHandler tid signum idx action).1.oldMask =
      (p.sigsuspendSavedMaskFor tid).getD (p.blockedFor tid) := by
  have hsame := SameButPending.dequeueSignalFor p tid signum
  simp only [startHandler]
  rw [blockedFor_restoreMask, hsame.saved, hsame.blocked]

/-- A handler runs under the restored mask with its own added. -/
theorem masks_startHandler (p : ThreadedProcess) (tid signum : ℕ) (idx : UInt32)
    (action : SignalAction) (t : ℕ) :
    let q := (p.dequeueSignalFor tid signum).2.restoreMask tid
    (p.startHandler tid signum idx action).2.blockedFor t =
        (q.setBlockedFor tid (q.blockedFor tid ||| action.mask ||| sigBit signum)).blockedFor t ∧
      (p.startHandler tid signum idx action).2.sigsuspendSavedMaskFor t =
        q.sigsuspendSavedMaskFor t := by
  simp only [startHandler]
  split
  · exact ⟨rfl, sigsuspendSavedMaskFor_setBlockedFor _ tid _ t⟩
  · exact ⟨rfl, sigsuspendSavedMaskFor_setBlockedFor _ tid _ t⟩

/-- A handler starts with no mask saved. -/
theorem sigsuspendSavedMaskFor_startHandler (p : ThreadedProcess) (tid signum : ℕ) (idx : UInt32)
    (action : SignalAction) :
    (p.startHandler tid signum idx action).2.sigsuspendSavedMaskFor tid = none :=
  (p.masks_startHandler tid signum idx action tid).2.trans
    (sigsuspendSavedMaskFor_restoreMask _ tid)

/-- Whether a signal with a handler can be delivered to a thread. -/
def hasCaught (p : ThreadedProcess) (tid : ℕ) : Bool :=
  (List.range NSIG).any fun n => inMask (p.deliverableFor tid) n && p.signals.isCaught n

/-- A thread has a caught signal when one that can be delivered has a handler. -/
theorem hasCaught_iff : p.hasCaught tid = true ↔
    ∃ n, inMask (p.deliverableFor tid) n = true ∧ p.signals.isCaught n = true := by
  simp only [hasCaught, List.any_eq_true, List.mem_range, Bool.and_eq_true]
  refine ⟨fun ⟨n, _, h⟩ => ⟨n, h⟩, fun ⟨n, hmem, hcaught⟩ => ⟨n, ?_, hmem, hcaught⟩⟩
  have := validSignal_iff.mp (validSignal_of_inMask hmem)
  simp only [NSIG]
  omega

/-- With nothing to deliver a dequeue does nothing. -/
theorem kernelDequeueSignal_of_none (h : p.deliverableFor tid = 0) :
    kernelDequeueSignal tid p = (none, p) := by
  simp only [kernelDequeueSignal, dequeueLoop]
  rw [if_pos h]
  rfl

/-- A signal with a handler that comes first is the answer. -/
theorem kernelDequeueSignal_of_caught (hne : p.deliverableFor tid ≠ 0)
    (hcaught : p.signals.isCaught (lowestSignal (p.deliverableFor tid)) = true) :
    ∃ idx action, kernelDequeueSignal tid p =
      (some (p.startHandler tid (lowestSignal (p.deliverableFor tid)) idx action).1,
        (p.startHandler tid (lowestSignal (p.deliverableFor tid)) idx action).2) := by
  have hvalid := validSignal_iff.mp (validSignal_of_inMask (lowestSignal_spec hne).1)
  simp only [kernelDequeueSignal, dequeueLoop]
  rw [if_neg hne, if_neg (by simp only [NSIG]; omega)]
  rw [isCaught] at hcaught
  rcases haction : (p.signals.getAction (lowestSignal (p.deliverableFor tid))).handler with
    _ | _ | idx
  · rw [haction] at hcaught
    cases hcaught
  · rw [haction] at hcaught
    cases hcaught
  · exact ⟨idx, p.signals.getAction (lowestSignal (p.deliverableFor tid)), rfl⟩

/-- **What the host is told at the end of a call**: if a signal with a handler could be
delivered, its handler is started; otherwise nothing more happens. -/
theorem dequeue_deliver (p : ThreadedProcess) (tid : ℕ)
    (halive : (deliverPendingSignals tid p).state ≠ .Exited) :
    let q := deliverPendingSignals tid p
    (p.hasCaught tid = true ∧ ∃ signum idx action, kernelDequeueSignal tid q =
        (some (q.startHandler tid signum idx action).1,
          (q.startHandler tid signum idx action).2)) ∨
      p.hasCaught tid = false ∧ kernelDequeueSignal tid q = (none, q) := by
  obtain ⟨hdrains, hsettled⟩ := deliverPendingSignals_drains tid p
  rcases hsettled.resolve_left halive with hzero | ⟨hne, hcaught⟩
  · refine .inr ⟨Bool.eq_false_iff.mpr fun hsome => ?_, kernelDequeueSignal_of_none hzero⟩
    obtain ⟨n, hmem, hc⟩ := hasCaught_iff.mp hsome
    have hkept := hdrains.caught hmem hc
    rw [hzero, inMask_zero] at hkept
    cases hkept
  obtain ⟨idx, action, heq⟩ := kernelDequeueSignal_of_caught hne hcaught
  refine .inl ⟨hasCaught_iff.mpr ⟨_, hdrains.deliverable (lowestSignal_spec hne).1, ?_⟩,
    _, idx, action, heq⟩
  rwa [← hdrains.isCaught]

/-! ### What a call can do to masks -/

/-- Two states of a process with the same masks. -/
structure SameMasks (p q : ThreadedProcess) : Prop where
  pid : q.pid = p.pid
  blocked : ∀ tid, q.blockedFor tid = p.blockedFor tid
  saved : ∀ tid, q.sigsuspendSavedMaskFor tid = p.sigsuspendSavedMaskFor tid
  tids : q.threads.map ThreadInfo.tid = p.threads.map ThreadInfo.tid
  nextTid : q.nextTid = p.nextTid

/-- What only touches pending signals leaves the masks. -/
theorem SameButPending.sameMasks (h : p.SameButPending q) : p.SameMasks q :=
  ⟨h.pid, h.blocked, h.saved, h.tids, h.nextTid⟩

/-- A change of the signals of the process that leaves its mask alone. -/
theorem SameMasks.updSignals (p : ThreadedProcess) {f : SignalState → SignalState}
    (hf : (f p.signals).blocked = p.signals.blocked) : p.SameMasks (p.updSignals f) := by
  refine ⟨rfl, fun tid => ?_, fun _ => rfl, rfl, rfl⟩
  rw [blockedFor, blockedFor, worker_updSignals]
  rcases p.worker tid with _ | info
  · exact hf
  · rfl

/-- So does a change of the alternate stack. -/
theorem SameMasks.altStack (p : ThreadedProcess) (a : AltStack) :
    p.SameMasks { p with altStack := a } :=
  ⟨rfl, fun _ => rfl, fun _ => rfl, rfl, rfl⟩

/-- What a call of a thread can do to the masks of its process in one go, where the masks it
puts in force or sets aside have a property. -/
inductive MaskAct (ok : UInt64 → Prop) (u : ℕ) (p : ThreadedProcess) : ThreadedProcess → Prop
  | same {q : ThreadedProcess} (h : p.SameMasks q) : MaskAct ok u p q
  | block {mask : UInt64} (h : ok mask) : MaskAct ok u p (p.setBlockedFor u mask)
  | aside {val : Option UInt64} (h : ∀ m ∈ val, ok m) :
      MaskAct ok u p (p.setSigsuspendSavedMaskFor u val)
  | join {t : ThreadInfo} (hblocked : t.signals.blocked = p.blockedFor u)
      (hsaved : t.signals.sigsuspendSavedMask = none) (hnew : p.nextTid ≤ t.tid) :
      MaskAct ok u p { p with nextTid := t.tid + 1, threads := p.threads ++ [t] }

/-- Sequences of such steps. -/
abbrev MaskActs (ok : UInt64 → Prop) (u : ℕ) : ThreadedProcess → ThreadedProcess → Prop :=
  Relation.ReflTransGen (MaskAct ok u)

/-- What a call of a thread can do to the masks of its process: such steps, after which the
process may die, or the thread leaves. -/
inductive MaskStep (ok : UInt64 → Prop) (u : ℕ) (p : ThreadedProcess) : ThreadedProcess → Prop
  | acts {q : ThreadedProcess} (h : MaskActs ok u p q) : MaskStep ok u p q
  | leave : MaskStep ok u p (p.removeThread u)
  | die {q : ThreadedProcess} (h : MaskActs ok u p q) (status : ℤ) :
      MaskStep ok u p { q.dropSavedMasks with state := .Exited, exitStatus := status }

/-- Every mask of a process, in force or set aside, has a property. -/
structure MasksIn (ok : UInt64 → Prop) (p : ThreadedProcess) : Prop where
  blocked : ∀ tid, ok (p.blockedFor tid)
  saved : ∀ tid, ∀ m ∈ p.sigsuspendSavedMaskFor tid, ok m

variable {ok : UInt64 → Prop}

/-- The masks in the same process stay as they were allowed to be. -/
theorem MasksIn.sameMasks (h : p.MasksIn ok) (hsame : p.SameMasks q) : q.MasksIn ok := by
  refine ⟨fun tid => ?_, fun tid => ?_⟩
  · rw [hsame.blocked]
    exact h.blocked tid
  · rw [hsame.saved]
    exact h.saved tid

/-- An allowed mask may be set. -/
theorem MasksIn.setBlockedFor (h : p.MasksIn ok) {mask : UInt64} (hmask : ok mask) (u : ℕ) :
    (p.setBlockedFor u mask).MasksIn ok := by
  refine ⟨fun tid => ?_, fun tid => ?_⟩
  · rw [blockedFor_setBlockedFor]
    split
    · exact hmask
    · exact h.blocked tid
  · rw [sigsuspendSavedMaskFor_setBlockedFor]
    exact h.saved tid

/-- An allowed mask may be saved. -/
theorem MasksIn.setSigsuspendSavedMaskFor (h : p.MasksIn ok) {val : Option UInt64}
    (hval : ∀ m ∈ val, ok m) (u : ℕ) : (p.setSigsuspendSavedMaskFor u val).MasksIn ok := by
  refine ⟨fun tid => ?_, fun tid => ?_⟩
  · rw [blockedFor_setSigsuspendSavedMaskFor]
    exact h.blocked tid
  rcases p.sigsuspendSavedMaskFor_set_cases u val tid with heq | ⟨-, heq⟩
  · rw [heq]
    exact h.saved tid
  · rwa [heq]

/-! ### Threads that join and leave -/

/-- The worker of a number after a thread joined. -/
theorem worker_join (p : ThreadedProcess) (info : ThreadInfo) (t : ℕ) :
    ThreadedProcess.worker { p with nextTid := info.tid + 1, threads := p.threads ++ [info] } t =
      (p.worker t).or (if p.isMainThread t = false ∧ info.tid = t then some info else none) := by
  have hmain : ThreadedProcess.isMainThread
      { p with nextTid := info.tid + 1, threads := p.threads ++ [info] } t = p.isMainThread t := rfl
  rw [worker, worker, hmain, getThread_join]
  cases p.isMainThread t with
  | true => rfl
  | false => simp

/-- A thread that joins brings its own mask. -/
theorem blockedFor_join (p : ThreadedProcess) (info : ThreadInfo) (t : ℕ) :
    ThreadedProcess.blockedFor
        { p with nextTid := info.tid + 1, threads := p.threads ++ [info] } t =
      if p.worker t = none ∧ p.isMainThread t = false ∧ info.tid = t then info.signals.blocked
      else p.blockedFor t := by
  rw [blockedFor, blockedFor, worker_join]
  rcases p.worker t with _ | v
  · by_cases hnew : p.isMainThread t = false ∧ info.tid = t
    · rw [if_pos hnew, if_pos ⟨rfl, hnew⟩]
      rfl
    · rw [if_neg hnew, if_neg fun h => hnew h.2]
      rfl
  · rw [Option.some_or, if_neg fun h => Option.some_ne_none v h.1]

/-- A thread that joins brings no saved mask. -/
theorem sigsuspendSavedMaskFor_join (p : ThreadedProcess) (info : ThreadInfo)
    (hsaved : info.signals.sigsuspendSavedMask = none) (t : ℕ) :
    ThreadedProcess.sigsuspendSavedMaskFor
        { p with nextTid := info.tid + 1, threads := p.threads ++ [info] } t =
      p.sigsuspendSavedMaskFor t := by
  have hmain : ThreadedProcess.isMainThread
      { p with nextTid := info.tid + 1, threads := p.threads ++ [info] } t = p.isMainThread t := rfl
  rw [sigsuspendSavedMaskFor, sigsuspendSavedMaskFor, hmain, getThread_join]
  split
  · rfl
  rcases p.getThread t with _ | v
  · by_cases ht : info.tid = t
    · rwa [if_pos ht]
    · rw [if_neg ht]
      rfl
  · rfl

/-- A thread that leaves takes nothing of the main thread's. -/
theorem signals_removeThread (p : ThreadedProcess) (u : ℕ) :
    (p.removeThread u).signals = p.signals := by
  rw [removeThread_eq]

/-- The masks when a thread has left: its number now stands for the process. -/
theorem Numbered.masks_removeThread (h : p.Numbered) (u t : ℕ) :
    ((p.removeThread u).blockedFor t = p.blockedFor t ∨
        t = u ∧ (p.removeThread u).blockedFor t = p.signals.blocked) ∧
      ((p.removeThread u).sigsuspendSavedMaskFor t = p.sigsuspendSavedMaskFor t ∨
        t = u ∧ (p.removeThread u).sigsuspendSavedMaskFor t = none) := by
  have hmain : (p.removeThread u).isMainThread t = p.isMainThread t := by
    rw [removeThread_eq]
    rfl
  have haside : (p.removeThread u).sigsuspendSavedMask = p.sigsuspendSavedMask := by
    rw [removeThread_eq]
  by_cases ht : t = u
  · subst ht
    have hgone := h.getThread_removeThread_self t
    constructor
    · refine .inr ⟨rfl, ?_⟩
      rw [blockedFor, worker, hgone, ite_self]
      exact congrArg SignalState.blocked (p.signals_removeThread t)
    rw [sigsuspendSavedMaskFor, sigsuspendSavedMaskFor, hmain, haside, hgone]
    split
    · exact .inl rfl
    · exact .inr ⟨rfl, rfl⟩
  constructor
  · rw [blockedFor, blockedFor, h.worker_removeThread ht, signals_removeThread]
    exact .inl rfl
  rw [sigsuspendSavedMaskFor, sigsuspendSavedMaskFor, hmain, haside,
    h.getThread_removeThread ht]
  exact .inl rfl

/-! ### What a call can do to all masks -/

/-- Dropping the saved masks leaves what is blocked. -/
theorem masks_dropSavedMasks (p : ThreadedProcess) (t : ℕ) :
    p.dropSavedMasks.blockedFor t = p.blockedFor t ∧
      p.dropSavedMasks.sigsuspendSavedMaskFor t = none := by
  have hmain : p.dropSavedMasks.isMainThread t = p.isMainThread t := rfl
  have hget := p.getThread_dropSavedMasks t
  constructor
  · rw [blockedFor, blockedFor, worker, worker, hmain, hget]
    cases p.isMainThread t with
    | true => rfl
    | false => rcases p.getThread t with _ | info <;> rfl
  rw [sigsuspendSavedMaskFor, hmain, hget]
  split
  · rfl
  · rcases p.getThread t with _ | info <;> rfl

/-- No act gives a thread another's number. -/
theorem MaskAct.numbered (h : p.Numbered) (hact : MaskAct ok u p q) : q.Numbered := by
  cases hact with
  | same hsame => exact h.congr hsame.tids hsame.nextTid
  | block => exact h.samePending (.setBlockedFor p u _)
  | aside => exact h.samePending (.setSigsuspendSavedMaskFor p u _)
  | join hblocked hsaved hnew => exact h.join hnew

/-- **What one step does to the masks**: if the masks it puts in have a property, every mask
keeps it. -/
theorem MaskAct.masksIn (h : p.MasksIn ok) (hact : MaskAct ok u p q) : q.MasksIn ok := by
  cases hact with
  | same hsame => exact h.sameMasks hsame
  | block hmask => exact h.setBlockedFor hmask u
  | aside hval => exact h.setSigsuspendSavedMaskFor hval u
  | @join info hblocked hsaved =>
    refine ⟨fun tid => ?_, fun tid => ?_⟩
    · rw [blockedFor_join, hblocked]
      split
      · exact h.blocked u
      · exact h.blocked tid
    · rw [sigsuspendSavedMaskFor_join p info hsaved]
      exact h.saved tid

/-- Acts with allowed masks leave allowed masks. -/
theorem MaskActs.masksIn (h : p.MasksIn ok) (hacts : MaskActs ok u p q) : q.MasksIn ok := by
  induction hacts with
  | refl => exact h
  | tail _ hact ih => exact hact.masksIn ih

/-- **What a call does to the masks** of its process. -/
theorem MaskStep.masksIn (hnumbered : p.Numbered) (h : p.MasksIn ok) (hstep : MaskStep ok u p q) :
    q.MasksIn ok := by
  cases hstep with
  | acts hacts => exact hacts.masksIn h
  | leave =>
    refine ⟨fun tid => ?_, fun tid => ?_⟩
    · rcases (hnumbered.masks_removeThread u tid).1 with heq | ⟨-, heq⟩
      · rw [heq]
        exact h.blocked tid
      · rw [heq]
        exact h.blocked 0
    rcases (hnumbered.masks_removeThread u tid).2 with heq | ⟨-, heq⟩
    · rw [heq]
      exact h.saved tid
    · rw [heq]
      exact fun m hm => absurd hm (Option.not_mem_none m)
  | @die mid hacts =>
    refine ⟨fun tid => ?_, fun tid m hm => ?_⟩
    · exact (mid.masks_dropSavedMasks tid).1 ▸ (hacts.masksIn h).blocked tid
    · have hnone := (mid.masks_dropSavedMasks tid).2
      exact absurd (hnone ▸ hm : m ∈ (none : Option UInt64)) (Option.not_mem_none m)

/-- The masks that the functions about masks put in force and set aside. -/
theorem maskActs_installMask (hstrip : ∀ m, ok (m &&& ~~~sigGuard)) (h : p.MasksIn ok)
    (mask : UInt64) : MaskActs ok u p (p.installMask u mask) := by
  rw [installMask]
  rcases p.sigsuspendSavedMaskFor u with _ | saved
  · refine (Relation.ReflTransGen.single (.aside fun m hm => ?_)).tail (.block (hstrip mask))
    rw [← Option.some.inj hm]
    exact h.blocked u
  · exact .refl

/-- A restore is one act, or none. -/
theorem maskActs_restoreMask (h : p.MasksIn ok) : MaskActs ok u p (p.restoreMask u) := by
  have hdrop : MaskAct ok u p (p.setSigsuspendSavedMaskFor u none) :=
    .aside fun m hm => absurd hm (Option.not_mem_none m)
  rw [restoreMask, takeSigsuspendSavedMaskFor]
  rcases hsaved : p.sigsuspendSavedMaskFor u with _ | saved
  · exact .single hdrop
  · exact (Relation.ReflTransGen.single hdrop).tail (.block (h.saved u saved hsaved))

/-- A poll under a mask installs it and restores it by acts. -/
theorem maskActs_maskedPoll (hstrip : ∀ m, ok (m &&& ~~~sigGuard)) (h : p.MasksIn ok)
    (polled : Except Errno ℤ) (mask : Option UInt64) :
    MaskActs ok u p (p.maskedPoll u polled mask).2 := by
  have hafter : ∀ q : ThreadedProcess, q.MasksIn ok → MaskActs ok u q (q.afterPoll u polled).2 := by
    intro q hq
    unfold afterPoll
    split
    · exact .refl
    split
    · exact maskActs_restoreMask hq
    · exact .refl
  rcases mask with _ | mask
  · exact hafter p h
  have hinstall := maskActs_installMask (u := u) hstrip h mask
  simp only [maskedPoll]
  split
  · exact hinstall
  · exact hinstall.trans (hafter _ (hinstall.masksIn h))

/-- Starting a handler is a restore and an act. -/
theorem maskActs_startHandler (h : p.MasksIn ok) {signum : ℕ} {action : SignalAction}
    (hhandler : ∀ mask, ok mask → ok (mask ||| action.mask ||| sigBit signum)) (idx : UInt32) :
    MaskActs ok u p (p.startHandler u signum idx action).2 := by
  have htaken : MaskAct ok u p (p.dequeueSignalFor u signum).2 :=
    .same (SameButPending.dequeueSignalFor p u signum).sameMasks
  have hq := htaken.masksIn h
  have hrestore := maskActs_restoreMask (u := u) hq
  have hmasked := ((Relation.ReflTransGen.single htaken).trans hrestore).tail
    (.block (hhandler _ ((hrestore.masksIn hq).blocked u)))
  simp only [startHandler]
  split
  · exact hmasked.tail (.same (.altStack _ _))
  · exact hmasked

/-- Whatever the action of the first signal with a handler adds to a mask keeps a property of
the mask. -/
def HandlerKeeps (ok : UInt64 → Prop) (u : ℕ) (p : ThreadedProcess) : Prop :=
  ∀ signum, inMask (p.deliverableFor u) signum = true → p.signals.isCaught signum = true →
    (∀ n < signum, inMask (p.deliverableFor u) n = true → p.signals.isCaught n = false) →
      ∀ mask, ok mask → ok (mask ||| (p.signals.getAction signum).mask ||| sigBit signum)

/-- A dequeue is a step on the masks. -/
theorem maskStep_kernelDequeueSignal (h : p.MasksIn ok) (hhandler : p.HandlerKeeps ok u) :
    MaskStep ok u p (kernelDequeueSignal u p).2 := by
  obtain ⟨mid, hdrains, hend⟩ := kernelDequeueSignal_cases u p
  have hsame : MaskAct ok u p mid := .same hdrains.same.sameMasks
  rcases hend with ⟨-, hq, -⟩ | ⟨signum, hmem, hlow, ⟨idx, haction, -, hq⟩ | ⟨-, -, -, hq⟩⟩
  · rw [hq]
    exact .acts (.single hsame)
  · have hgot : mid.signals.getAction signum = p.signals.getAction signum := by
      rw [getAction, getAction, hdrains.same.actions]
    have hcaught : p.signals.isCaught signum = true := by
      rw [isCaught, ← hgot, haction]
    have hfirst : ∀ n < signum, inMask (p.deliverableFor u) n = true →
        p.signals.isCaught n = false := fun n hn hmemn => Bool.eq_false_iff.mpr fun hc => by
      have hstill := hdrains.caught hmemn hc
      rw [hlow n hn] at hstill
      cases hstill
    rw [hq]
    refine .acts ((Relation.ReflTransGen.single hsame).trans
      (maskActs_startHandler (hsame.masksIn h) ?_ idx))
    rw [hgot]
    exact hhandler signum (hdrains.deliverable hmem) hcaught hfirst
  rw [hq]
  exact .die ((Relation.ReflTransGen.single hsame).tail
    (.same (SameButPending.dequeueSignalFor mid u signum).sameMasks)) _

/-- Clearing a pending signal leaves the mask. -/
theorem blocked_clearPending (s : SignalState) (signum : ℕ) :
    (s.clearPending signum).blocked = s.blocked := by
  rw [clearPending_eq]
  rfl

/-- So does setting an action. -/
theorem blocked_setAction (s : SignalState) (signum : ℕ) (action : SignalAction) :
    (s.setAction signum action).blocked = s.blocked := by
  rw [setAction]
  split
  · rfl
  split
  · exact blocked_clearPending _ signum
  · rfl

/-- A signal received leaves the masks. -/
theorem sameMasks_receive (p : ThreadedProcess) (sig : ℕ) (siValue siCode : ℤ) :
    p.SameMasks (p.receive sig siValue siCode) := by
  refine .updSignals p ?_
  rw [raiseInternal_eq]
  rfl

/-- **What a call can do** to the masks of its process. -/
theorem maskStep_run (op : SignalOp) (hstrip : ∀ m, ok (m &&& ~~~sigGuard)) (h : p.MasksIn ok)
    (hhandler : op = .dequeue → p.HandlerKeeps ok u) : MaskStep ok u p (op.run u p).2 := by
  have heffect : ∀ q, SignalEffect u p q → MaskActs ok u p q := by
    rintro q (_ | ⟨hk, sig, siValue, siCode⟩ | ⟨sig, action⟩ | mask | mask | ⟨polled, mask⟩ |
      signum | signum | a)
    · exact .refl
    · exact .single (.same (SameButPending.raiseAt p _ sig siValue siCode).sameMasks)
    · exact .single (.same (.updSignals p (blocked_setAction _ sig action)))
    · exact .single (.block (hstrip mask))
    · exact maskActs_installMask hstrip h mask
    · exact maskActs_maskedPoll hstrip h polled mask
    · exact .single (.same (SameButPending.dequeueSignalFor p u signum).sameMasks)
    · exact .single (.same (.updSignals p (blocked_clearPending _ signum)))
    · exact .single (.same (.altStack p a))
  refine run_rule op u p (fun q hq => ⟨.acts (heffect q hq), .acts ((heffect q hq).tail
      (.same (deliverPendingSignals_drains u q).1.same.sameMasks))⟩)
    (fun t hnew hnext => .acts (.single (.join ?_ ?_ hnext))) .leave
    fun hop => maskStep_kernelDequeueSignal h (hhandler hop)
  · rw [hnew]
  · rw [hnew]

end ThreadedProcess

end PosixKernel
