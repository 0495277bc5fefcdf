import PosixKernel.Masks

/-!
# Waits with a Mask of their Own

A `sigsuspend`, `ppoll` or `pselect6` with a mask sets the mask of the thread aside and
puts its own in force. As long as it has nothing to report, the host repeats it; the mask
stays in force between the attempts, while other threads and processes go on. The wait ends
when an attempt reports something, or when the host completes it by itself: the time is up,
or the thread is cancelled. After every attempt the kernel delivers pending signals that have
no handler, and the host asks for one that has.

The mask that was set aside comes back in two places only: in an attempt that finds nothing
to deliver, and when a handler is started. A wait that is interrupted by signals without
handlers, and one that the host completes, therefore leave the mask of the wait in force;
and the next wait takes the mask it finds set aside for its own doing and installs none.

## Main results

* `ThreadedProcess.Waiting.entry` — what holds between the attempts;
* `mask_restored_iff` — when the mask comes back;
* `sigsuspend_ignored_keeps_mask` — a wait interrupted by an ignored signal.
-/

namespace PosixKernel

/-- The calls that wait with a mask of their own. -/
inductive MaskedWait
  | sigsuspend (mask : UInt64)
  | ppoll (mask : Option UInt64)
  | pselect6 (mask : Option UInt64)
  deriving DecidableEq

namespace MaskedWait

/-- The mask of a wait, if it has one. -/
def mask : MaskedWait → Option UInt64
  | sigsuspend mask => some mask
  | ppoll mask => mask
  | pselect6 mask => mask

/-- One attempt as a call; `polled` is what the descriptors answer. -/
def op (polled : Except Errno ℤ) : MaskedWait → SignalOp
  | sigsuspend mask => .sigsuspend mask
  | ppoll mask => .ppoll polled mask
  | pselect6 mask => .pselect6 polled mask

/-- Whether the host completes the wait when its time is up; a `sigsuspend` has none. (A thread that
is cancelled is woken from any wait, and exits.) -/
def timed : MaskedWait → Bool
  | sigsuspend _ => false
  | ppoll _ => true
  | pselect6 _ => true

end MaskedWait

namespace ThreadedProcess

/-! ### A wait and its attempts -/

/-- One attempt of a wait: the call, and what the host is told after it. -/
def attempt (tid : ℕ) (w : MaskedWait) (polled : Except Errno ℤ) (p : ThreadedProcess) :
    Except Errno SignalReply × Option SignalDelivery × ThreadedProcess :=
  let r := (w.op polled).run tid p
  (r.1, kernelDequeueSignal tid r.2)

/-- What happens elsewhere: the masks of the thread stay. -/
structure Elsewhere (tid : ℕ) (p q : ThreadedProcess) : Prop where
  thread : p.HasThread tid → q.HasThread tid
  blocked : q.blockedFor tid = p.blockedFor tid
  saved : q.sigsuspendSavedMaskFor tid = p.sigsuspendSavedMaskFor tid

/-- A wait that began in a process and has made a number of attempts, with the signal whose
handler the thread will run when the wait is over. -/
inductive Waiting (tid : ℕ) (w : MaskedWait) (p : ThreadedProcess) :
    ℕ → Option SignalDelivery → ThreadedProcess → Prop
  | start : Waiting tid w p 0 none p
  | again {n : ℕ} {d : Option SignalDelivery} {q : ThreadedProcess} (polled : Except Errno ℤ)
      (h : Waiting tid w p n d q) (hagain : (attempt tid w polled q).1 = .error .EAGAIN)
      (halive : ((w.op polled).run tid q).2.state ≠ .Exited) :
      Waiting tid w p (n + 1) (attempt tid w polled q).2.1 (attempt tid w polled q).2.2
  | others {n : ℕ} {d : Option SignalDelivery} {q r : ThreadedProcess}
      (h : Waiting tid w p n d q) (helse : Elsewhere tid q r) : Waiting tid w p n d r

/-- How a wait ends: an attempt is answered, or the host completes it. -/
inductive WaitEnd
  | answered (polled : Except Errno ℤ)
  | completed
  deriving DecidableEq

namespace WaitEnd

/-- Whether a wait can end so, with the process alive. -/
def Possible (tid : ℕ) (w : MaskedWait) (n : ℕ) (q : ThreadedProcess) : WaitEnd → Prop
  | answered polled =>
    (attempt tid w polled q).1 ≠ .error .EAGAIN ∧
      ((w.op polled).run tid q).2.state ≠ .Exited
  | completed => 0 < n ∧ w.timed = true

/-- What is left when the wait ends so. -/
def outcome (tid : ℕ) (w : MaskedWait) (d : Option SignalDelivery) (q : ThreadedProcess) :
    WaitEnd → Option SignalDelivery × ThreadedProcess
  | answered polled => (attempt tid w polled q).2
  | completed => (d, q)

end WaitEnd

/-- The thread runs the handler it was told of, and puts the old mask back. -/
def afterHandler (tid : ℕ) : Option SignalDelivery × ThreadedProcess → ThreadedProcess
  | (none, p) => p
  | (some d, p) => (p.sysSigreturn.sysSigprocmask tid SIG_SETMASK d.oldMask).2

/-- The wait has left no trace: the mask from before is in force, and the next wait installs
its own. -/
def Restored (tid : ℕ) (mask : UInt64) (p : ThreadedProcess) : Prop :=
  p.blockedFor tid = mask ∧
    ∀ next, (p.installMask tid next).blockedFor tid = next &&& ~~~sigGuard

/-- When a wait leaves no trace. One with a mask must be answered. If signals can be
delivered under its mask, one of them must have a handler. A handler puts the mask back
without `SIGKILL` and `SIGSTOP`. One without a mask must find the old mask still in force. -/
def WaitEnd.Undoes (tid : ℕ) (w : MaskedWait) (mask : UInt64) (d : Option SignalDelivery)
    (q : ThreadedProcess) : WaitEnd → Prop
  | answered _ =>
    match w.mask with
    | some own =>
      let t := q.installMask tid own
      if t.deliverableFor tid = 0 then
        (t.restoreMask tid).hasCaught tid = true → Permitted mask
      else t.hasCaught tid = true ∧ Permitted mask
    | none =>
      if q.hasCaught tid then q.blockedFor tid &&& ~~~sigGuard = mask else q.blockedFor tid = mask
  | completed =>
    match w.mask, d with
    | some _, _ => False
    | none, some d => d.oldMask &&& ~~~sigGuard = mask
    | none, none => q.blockedFor tid = mask

variable {tid : ℕ} {w : MaskedWait} {p q : ThreadedProcess} {n : ℕ} {d : Option SignalDelivery}

/-! ### One attempt -/

/-- Renaming what a call returns does not hide that it must be repeated. -/
theorem map_eq_again_iff {α : Type} {f : α → SignalReply} {r : Except Errno α} :
    r.map f = .error .EAGAIN ↔ r = .error .EAGAIN := by
  rcases r with e | x
  · exact ⟨fun h => congrArg _ (Except.error.inj h), fun h => congrArg _ (Except.error.inj h)⟩
  · simp [Except.map]

/-- What an attempt with a mask leaves once it is installed: it is interrupted, repeated, or
answered with nothing to deliver. -/
def AttemptLeaves (tid : ℕ) (t : ThreadedProcess) (again : Prop) (q : ThreadedProcess) : Prop :=
  (t.deliverableFor tid ≠ 0 ∧ ¬ again ∧ q = deliverPendingSignals tid t) ∨
    (t.deliverableFor tid = 0 ∧ again ∧ q = deliverPendingSignals tid t) ∨
    t.deliverableFor tid = 0 ∧ ¬ again ∧ q = deliverPendingSignals tid (t.restoreMask tid)

theorem attemptLeaves_maskedPoll (own : UInt64) (polled : Except Errno ℤ) :
    AttemptLeaves tid (q.installMask tid own)
      ((q.maskedPoll tid polled (some own)).1.map SignalReply.num = .error .EAGAIN)
      (deliverPendingSignals tid (q.maskedPoll tid polled (some own)).2) := by
  simp only [maskedPoll, map_eq_again_iff]
  generalize q.installMask tid own = t
  by_cases hzero : t.deliverableFor tid = 0
  · rw [if_neg (not_not_intro hzero)]
    by_cases hagain : polled = .error .EAGAIN
    · rw [hagain]
      exact .inr (.inl ⟨hzero, rfl, rfl⟩)
    have hpoll : t.afterPoll tid polled = (polled, t.restoreMask tid) := by
      unfold afterPoll
      split
      · contradiction
      · rw [if_pos hzero]
    rw [hpoll]
    exact .inr (.inr ⟨hzero, hagain, rfl⟩)
  · rw [if_pos hzero]
    exact .inl ⟨hzero, fun h => Errno.noConfusion (Except.error.inj h), rfl⟩

/-- An attempt with a mask. -/
theorem run_op_mask {own : UInt64} (hw : w.mask = some own) (polled : Except Errno ℤ) :
    AttemptLeaves tid (q.installMask tid own) (((w.op polled).run tid q).1 = .error .EAGAIN)
      ((w.op polled).run tid q).2 := by
  rcases w with own' | m | m
  · obtain rfl := Option.some.inj hw
    simp only [MaskedWait.op, SignalOp.run, sysSigsuspend]
    by_cases hzero : (q.installMask tid own').deliverableFor tid = 0
    · rw [if_neg (not_not_intro hzero)]
      exact .inr (.inl ⟨hzero, rfl, rfl⟩)
    · rw [if_pos hzero]
      exact .inl ⟨hzero, by simp [Except.map], rfl⟩
  · obtain rfl : m = some own := hw
    exact attemptLeaves_maskedPoll own polled
  · obtain rfl : m = some own := hw
    exact attemptLeaves_maskedPoll own polled

/-- What can be delivered depends on what is pending and on the mask in force. -/
theorem hasCaught_congr (hsame : p.SamePending q) (hblocked : q.blockedFor tid = p.blockedFor tid) :
    q.hasCaught tid = p.hasCaught tid := by
  have hiff : ∀ n, inMask (q.deliverableFor tid) n = inMask (p.deliverableFor tid) n := fun n => by
    rw [inMask_deliverableFor, inMask_deliverableFor, inMask_pendingFor, inMask_pendingFor,
      hsame.places, hsame.places, hblocked]
  have hcaught : ∀ n, q.signals.isCaught n = p.signals.isCaught n := fun n => by
    rw [SignalState.isCaught, SignalState.isCaught, SignalState.getAction, SignalState.getAction,
      hsame.actions]
  simp [hasCaught, hiff, hcaught]

/-- An attempt without a mask, and with none set aside, changes no mask. -/
theorem run_op_none (hw : w.mask = none) (hsaved : q.sigsuspendSavedMaskFor tid = none)
    (polled : Except Errno ℤ) : ∃ t, ((w.op polled).run tid q).2 = deliverPendingSignals tid t ∧
      q.SamePending t ∧ t.blockedFor tid = q.blockedFor tid ∧
      t.sigsuspendSavedMaskFor tid = none := by
  have hpoll : let t := (q.maskedPoll tid polled none).2
      q.SamePending t ∧ t.blockedFor tid = q.blockedFor tid ∧
        t.sigsuspendSavedMaskFor tid = none := by
    refine ⟨.maskedPoll q tid polled none, ?_⟩
    simp only [maskedPoll]
    unfold afterPoll
    split
    · exact ⟨rfl, hsaved⟩
    split
    · refine ⟨?_, sigsuspendSavedMaskFor_restoreMask q tid⟩
      rw [blockedFor_restoreMask, hsaved]
      rfl
    · exact ⟨rfl, hsaved⟩
  rcases w with own | m | m
  · cases hw
  · obtain rfl : m = none := hw
    exact ⟨_, rfl, hpoll⟩
  · obtain rfl : m = none := hw
    exact ⟨_, rfl, hpoll⟩

/-! ### Delivery after an attempt -/

/-- The mask that is in force once the handler has run. -/
theorem blockedFor_afterHandler_some (d : SignalDelivery) (p : ThreadedProcess) (tid : ℕ) :
    (afterHandler tid (some d, p)).blockedFor tid = d.oldMask &&& ~~~sigGuard :=
  blockedFor_setBlockedFor_self _ tid _

theorem sigsuspendSavedMaskFor_afterHandler (d : Option SignalDelivery) (p : ThreadedProcess)
    (tid : ℕ) :
    (afterHandler tid (d, p)).sigsuspendSavedMaskFor tid = p.sigsuspendSavedMaskFor tid := by
  rcases d with _ | d
  · rfl
  refine (sigsuspendSavedMaskFor_setBlockedFor _ tid _ tid).trans ?_
  rw [sysSigreturn]
  split <;> rfl

/-- The next wait installs its own mask exactly if none is set aside. -/
theorem restored_iff {mask : UInt64} :
    Restored tid mask p ↔ p.blockedFor tid = mask ∧ p.sigsuspendSavedMaskFor tid = none := by
  refine and_congr_right fun _ => ⟨fun h => ?_, fun h next => blockedFor_installMask h next⟩
  rcases hsaved : p.sigsuspendSavedMaskFor tid with _ | saved
  · rfl
  -- a mask that is set aside keeps any two waits at the same mask
  have hall := fun next => (congrArg (·.blockedFor tid) (installMask_of_saved hsaved)).symm.trans
    (h next)
  cases (hall 0).symm.trans (hall 1)

/-- The thread is still there after an attempt, and no mask comes to be set aside by it. -/
theorem thread_deliver (t : ThreadedProcess) (tid : ℕ)
    (halive : (deliverPendingSignals tid t).state ≠ .Exited) :
    let r := kernelDequeueSignal tid (deliverPendingSignals tid t)
    (t.HasThread tid → r.2.HasThread tid) ∧
      (t.sigsuspendSavedMaskFor tid = none → r.2.sigsuspendSavedMaskFor tid = none) := by
  have hsame := (deliverPendingSignals_drains tid t).1.same
  rcases dequeue_deliver t tid halive with ⟨-, signum, idx, action, heq⟩ | ⟨-, heq⟩
  · rw [heq]
    have htaken := SameButPending.dequeueSignalFor (deliverPendingSignals tid t) tid signum
    have hstarted := SamePending.startHandler (deliverPendingSignals tid t) tid signum idx action
    refine ⟨fun h => h.congr ?_ ?_, fun _ => ?_⟩
    · exact hstarted.pid.trans (htaken.pid.trans hsame.pid)
    · exact hstarted.tids.trans (htaken.tids.trans hsame.tids)
    · exact sigsuspendSavedMaskFor_startHandler _ tid signum idx action
  · rw [heq]
    exact ⟨fun h => h.congr hsame.pid hsame.tids, fun h => (hsame.saved tid).trans h⟩

/-- What an attempt leaves, in terms of the process before the delivery: if a signal with a
handler can be delivered, the mask that was set aside comes back, and otherwise nothing
does. -/
theorem restored_deliver {mask : UInt64} (t : ThreadedProcess) (tid : ℕ)
    (halive : (deliverPendingSignals tid t).state ≠ .Exited) : Restored tid mask
        (afterHandler tid (kernelDequeueSignal tid (deliverPendingSignals tid t))) ↔
      if t.hasCaught tid = true then
        (t.sigsuspendSavedMaskFor tid).getD (t.blockedFor tid) &&& ~~~sigGuard = mask
      else t.blockedFor tid = mask ∧ t.sigsuspendSavedMaskFor tid = none := by
  have hsame := (deliverPendingSignals_drains tid t).1.same
  rw [restored_iff]
  rcases dequeue_deliver t tid halive with ⟨hcaught, signum, idx, action, heq⟩ | ⟨hnone, heq⟩
  · rw [heq, if_pos hcaught, blockedFor_afterHandler_some, oldMask_startHandler, hsame.saved,
      hsame.blocked, sigsuspendSavedMaskFor_afterHandler, sigsuspendSavedMaskFor_startHandler]
    exact and_iff_left rfl
  · rw [heq, if_neg (by rw [hnone]; exact Bool.false_ne_true), afterHandler, hsame.blocked,
      hsame.saved]

/-! ### Between the attempts -/

/-- What holds between the attempts of a wait that began with a mask in force. A wait with a
mask has set it aside, from the first attempt on; a wait without one has set none aside. -/
structure Entry (tid : ℕ) (w : MaskedWait) (mask : UInt64) (n : ℕ) (d : Option SignalDelivery)
    (q : ThreadedProcess) : Prop where
  thread : q.HasThread tid
  own : w.mask ≠ none → (q.sigsuspendSavedMaskFor tid).getD (q.blockedFor tid) = mask
  aside : w.mask ≠ none → 0 < n → q.sigsuspendSavedMaskFor tid = some mask
  quiet : w.mask ≠ none → d = none
  plain : w.mask = none → q.sigsuspendSavedMaskFor tid = none

/-- **Between the attempts of a wait.** -/
theorem Waiting.entry (h : Waiting tid w p n d q) (hthread : p.HasThread tid)
    (hfirst : p.sigsuspendSavedMaskFor tid = none) : Entry tid w (p.blockedFor tid) n d q := by
  induction h with
  | start =>
    refine ⟨hthread, fun _ => ?_, fun _ hn => absurd hn (Nat.lt_irrefl 0), fun _ => rfl,
      fun _ => hfirst⟩
    rw [hfirst]
    rfl
  | @again n d q polled h hagain halive ih =>
    rcases hw : w.mask with _ | own
    · obtain ⟨t, hrun, hsame, -, hsaved⟩ := run_op_none hw (ih.plain hw) polled
      rw [hrun] at halive
      obtain ⟨hkept, hnone⟩ := thread_deliver t tid halive
      have hnot : ¬ w.mask ≠ none := not_not_intro hw
      simp only [attempt, hrun]
      exact ⟨hkept (ih.thread.congr hsame.pid hsame.tids), fun h => absurd h hnot,
        fun h => absurd h hnot, fun h => absurd h hnot, fun _ => hnone hsaved⟩
    -- nothing could be delivered, so the host was told nothing and no mask moved
    have hsome : w.mask ≠ none := by rw [hw]; exact Option.some_ne_none own
    rcases run_op_mask hw polled with ⟨-, hnot, -⟩ | ⟨hzero, -, hrun⟩ | ⟨-, hnot, -⟩
    · exact absurd hagain hnot
    · have hdrains := (deliverPendingSignals_drains tid (q.installMask tid own)).1
      have hdone : (deliverPendingSignals tid (q.installMask tid own)).deliverableFor tid = 0 :=
        mask_eq_zero_iff.mpr fun n => Bool.eq_false_iff.mpr fun hn => by
          have hbefore := hdrains.deliverable hn
          rw [hzero, inMask_zero] at hbefore
          cases hbefore
      have hinstalled := SamePending.installMask q tid own
      have hsaved : (deliverPendingSignals tid (q.installMask tid own)).sigsuspendSavedMaskFor
          tid = some (p.blockedFor tid) := by
        rw [hdrains.same.saved, sigsuspendSavedMaskFor_installMask ih.thread, ih.own hsome]
      simp only [attempt, hrun, kernelDequeueSignal_of_none hdone]
      refine ⟨ih.thread.congr ?_ ?_, fun _ => ?_, fun _ _ => hsaved, fun _ => rfl,
        fun h => absurd h hsome⟩
      · exact hdrains.same.pid.trans hinstalled.pid
      · exact hdrains.same.tids.trans hinstalled.tids
      · rw [hsaved]
        rfl
    · exact absurd hagain hnot
  | others h helse ih =>
    refine ⟨helse.thread ih.thread, fun hw => ?_, fun hw hn => ?_, ih.quiet, fun hw => ?_⟩
    · rw [helse.saved, helse.blocked]
      exact ih.own hw
    · rw [helse.saved]
      exact ih.aside hw hn
    · rw [helse.saved]
      exact ih.plain hw

/-! ### What other threads do meanwhile -/

theorem SameMasks.elsewhere (h : p.SameMasks q) : Elsewhere tid p q :=
  ⟨fun hthread => hthread.congr h.pid h.tids, h.blocked tid, h.saved tid⟩

theorem Elsewhere.trans {r : ThreadedProcess} (h : Elsewhere tid p q) (h' : Elsewhere tid q r) :
    Elsewhere tid p r :=
  ⟨fun hp => h'.thread (h.thread hp), h'.blocked.trans h.blocked, h'.saved.trans h.saved⟩

variable {ok : UInt64 → Prop} {u : ℕ}

/-- A step of a thread with another place. -/
theorem MaskAct.elsewhere (hnumbered : p.Numbered) (hthread : p.HasThread tid)
    (hhome : p.homeOf tid ≠ p.homeOf u) (hact : MaskAct ok u p q) :
    Elsewhere tid p q ∧ q.homeOf tid ≠ q.homeOf u := by
  cases hact with
  | same h =>
    refine ⟨h.elsewhere, ?_⟩
    rwa [homeOf_congr h.pid h.tids, homeOf_congr h.pid h.tids]
  | @block mask _ =>
    have hsame := SamePending.setBlockedFor p u mask
    refine ⟨⟨fun h => h.congr hsame.pid hsame.tids, ?_,
      sigsuspendSavedMaskFor_setBlockedFor p u mask tid⟩, ?_⟩
    · rw [blockedFor_setBlockedFor, if_neg hhome]
    · rwa [homeOf_congr hsame.pid hsame.tids, homeOf_congr hsame.pid hsame.tids]
  | @aside val _ =>
    have hsame := SamePending.setSigsuspendSavedMaskFor p u val
    refine ⟨⟨fun h => h.congr hsame.pid hsame.tids,
      blockedFor_setSigsuspendSavedMaskFor p u val tid, ?_⟩, ?_⟩
    · rcases p.sigsuspendSavedMaskFor_set_cases u val tid with heq | ⟨heq, -⟩
      · exact heq
      · exact absurd heq hhome
    · rwa [homeOf_congr hsame.pid hsame.tids, homeOf_congr hsame.pid hsame.tids]
  | @join info hblocked hsaved =>
    -- the new number is not in use, so it is not the thread's
    have hother : p.isMainThread tid = true ∨ info.tid ≠ tid := hthread.imp_right fun hmem heq =>
      absurd (hnumbered.below tid hmem) (by rw [← heq]; omega)
    refine ⟨⟨fun h => h.imp_right fun hmem => ?_, ?_,
      sigsuspendSavedMaskFor_join p info hsaved tid⟩,
      ?_⟩
    · rw [List.map_append]
      exact List.mem_append_left _ hmem
    · rw [blockedFor_join, if_neg]
      rintro ⟨-, hmain, htid⟩
      rcases hother with h | h
      · rw [hmain] at h
        cases h
      · exact h htid
    have hmain : ∀ t, ThreadedProcess.isMainThread
        { p with nextTid := info.tid + 1, threads := p.threads ++ [info] } t =
          p.isMainThread t := fun _ => rfl
    rw [homeOf_eq, homeOf_eq] at hhome ⊢
    grind

theorem MaskActs.elsewhere (hnumbered : p.Numbered) (hthread : p.HasThread tid)
    (hhome : p.homeOf tid ≠ p.homeOf u) (hacts : MaskActs ok u p q) : Elsewhere tid p q := by
  have hall : Elsewhere tid p q ∧ q.Numbered ∧ q.homeOf tid ≠ q.homeOf u := by
    induction hacts with
    | refl => exact ⟨⟨id, rfl, rfl⟩, hnumbered, hhome⟩
    | tail _ hact ih =>
      obtain ⟨helse, hnum, hne⟩ := ih
      obtain ⟨hstep, hne'⟩ := hact.elsewhere hnum (helse.thread hthread) hne
      exact ⟨helse.trans hstep, hact.numbered hnum, hne'⟩
  exact hall.1

/-- **Calls of other threads happen elsewhere**, as long as the process lives. -/
theorem elsewhere_run (op : SignalOp) (hnumbered : p.Numbered) (hthread : p.HasThread tid)
    (hhome : p.homeOf tid ≠ p.homeOf u) (halive : (op.run u p).2.state ≠ .Exited) :
    Elsewhere tid p (op.run u p).2 := by
  have hstep := @maskStep_run p u (fun _ => True) op (fun _ => trivial)
    ⟨fun _ => trivial, fun _ _ _ => trivial⟩ (fun _ _ _ _ _ _ _ => trivial)
  generalize (op.run u p).2 = q at halive hstep
  cases hstep with
  | acts hacts => exact hacts.elsewhere hnumbered hthread hhome
  | leave =>
    have hne : tid ≠ u := fun h => hhome (congrArg p.homeOf h)
    obtain ⟨hblocked, hsaved⟩ := hnumbered.masks_removeThread u tid
    refine ⟨fun h => ?_, hblocked.resolve_right fun h => hne h.1,
      hsaved.resolve_right fun h => hne h.1⟩
    rcases h with hmain | hmem
    · refine .inl ?_
      rwa [removeThread_eq]
    · rw [← isSome_getThread_iff, ← hnumbered.getThread_removeThread hne] at hmem
      exact .inr (isSome_getThread_iff.mp hmem)
  | die => contradiction

/-- A second thread waits with a mask of its own; the mask of the first stays empty. -/
theorem elsewhere_run_second :
    let p := (ThreadedProcess.new 10).perform [(0, .clone (CLONE_VM ||| CLONE_THREAD))]
    Elsewhere 0 p (SignalOp.run 11 p (.sigsuspend (sigBit 10))).2 :=
  elsewhere_run _ (numbered_perform (.single _) _) (by decide +kernel) (by decide +kernel)
    (by decide +kernel)

end ThreadedProcess

open ThreadedProcess in
/-- **When a wait leaves no trace.** A thread makes a `sigsuspend`, `ppoll` or `pselect6`
with no mask set aside, and the wait ends in one of the ways in which it can, after any
number of attempts and whatever happens elsewhere in between. When the handler that the
thread was told of has run, the mask from before the wait is in force again and the next
wait installs its own, exactly if the wait undoes its change. -/
theorem mask_restored_iff (tid : ℕ) (w : MaskedWait) (p q : ThreadedProcess) (n : ℕ)
    (d : Option SignalDelivery) (e : WaitEnd) (hthread : p.HasThread tid)
    (hfirst : p.sigsuspendSavedMaskFor tid = none) (hwait : Waiting tid w p n d q)
    (hend : e.Possible tid w n q) :
    Restored tid (p.blockedFor tid) (afterHandler tid (e.outcome tid w d q)) ↔
      e.Undoes tid w (p.blockedFor tid) d q := by
  have hentry := hwait.entry hthread hfirst
  cases e with
  | completed =>
    unfold WaitEnd.Undoes
    rw [WaitEnd.outcome, restored_iff, sigsuspendSavedMaskFor_afterHandler]
    rcases hw : w.mask with _ | own
    · rw [hentry.plain hw]
      rcases d with _ | d
      · exact and_iff_left rfl
      · rw [blockedFor_afterHandler_some]
        exact and_iff_left rfl
    · rw [hentry.aside (by rw [hw]; exact Option.some_ne_none own) hend.1]
      exact iff_of_false (fun h => Option.some_ne_none _ h.2) id
  | answered polled =>
    obtain ⟨hagain, halive⟩ := hend
    rw [WaitEnd.outcome, WaitEnd.Undoes, attempt]
    rcases hw : w.mask with _ | own
    · obtain ⟨t, hrun, hsame, hblocked, hsaved⟩ := run_op_none hw (hentry.plain hw) polled
      rw [hrun] at halive
      simp only [hrun]
      rw [restored_deliver t tid halive, hasCaught_congr hsame hblocked, hsaved, hblocked]
      simp
    have hmask := hentry.own (by rw [hw]; exact Option.some_ne_none own)
    have haside := sigsuspendSavedMaskFor_installMask hentry.thread own
    rw [hmask] at haside
    simp only
    rcases run_op_mask hw polled with ⟨hne, -, hrun⟩ | ⟨-, hnot, -⟩ | ⟨hzero, -, hrun⟩
    · rw [hrun] at halive
      rw [hrun, restored_deliver _ tid halive, if_neg hne, haside]
      cases (q.installMask tid own).hasCaught tid with
      | true => exact strip_eq_self_iff.trans (and_iff_right rfl).symm
      | false =>
        exact iff_of_false (fun h => Option.some_ne_none _ h.2)
          (fun h => Bool.false_ne_true h.1)
    · exact absurd hnot hagain
    rw [hrun] at halive
    rw [hrun, restored_deliver _ tid halive, if_pos hzero,
      sigsuspendSavedMaskFor_restoreMask, blockedFor_restoreMask, haside]
    cases ((q.installMask tid own).restoreMask tid).hasCaught tid with
    | true => exact strip_eq_self_iff.trans ⟨fun h _ => h, fun h => h rfl⟩
    | false =>
      exact iff_of_true ⟨rfl, rfl⟩ fun h => absurd h Bool.false_ne_true

instance (tid : ℕ) (w : MaskedWait) (mask : UInt64) (d : Option SignalDelivery)
    (q : ThreadedProcess) (e : ThreadedProcess.WaitEnd) : Decidable (e.Undoes tid w mask d q) := by
  unfold ThreadedProcess.WaitEnd.Undoes
  cases e with
  | answered polled =>
      rcases w.mask with _ | own
      · infer_instance
      · infer_instance
  | completed => rcases w.mask with _ | own <;> rcases d with _ | d <;> simp only <;> infer_instance

/-- A process that has a handler for a signal and blocks it. -/
def blocksHandled : ThreadedProcess :=
  (ThreadedProcess.new 10).perform
    [(0, .sigaction 10 7 0 0), (0, .sigprocmask SIG_BLOCK (sigBit 10))]

open ThreadedProcess in
/-- It waits for the signal, which arrives from outside; the handler is started and the mask
is the old one again. -/
theorem mask_restored_handled :
    let q := (attempt 0 (.sigsuspend 0) (.ok 0) blocksHandled).2.2.receive 10 0 0
    Restored 0 (sigBit 10) (afterHandler 0 (attempt 0 (.sigsuspend 0) (.ok 0) q).2) :=
  (mask_restored_iff 0 (.sigsuspend 0) blocksHandled _ 1 _ (.answered (.ok 0)) (by decide +kernel)
    (by decide +kernel)
    (.others (.again (.ok 0) .start (by decide +kernel) (by decide +kernel))
      (sameMasks_receive _ 10 0 0).elsewhere)
    ⟨by decide +kernel, by decide +kernel⟩).mpr (by decide +kernel)

open ThreadedProcess in
/-- A process blocks `SIGCHLD`, which it ignores by default, and waits for it with an empty
mask. The wait ends with nothing to handle, the empty mask stays in force, and the next wait
keeps it instead of installing its own. The same is left by a `ppoll` that the host ends
because the time is up. -/
theorem sigsuspend_ignored_keeps_mask :
    let p := (ThreadedProcess.new 10).perform [(0, .sigprocmask SIG_BLOCK (sigBit SIGCHLD))]
    let r := attempt 0 (.sigsuspend 0) (.ok 0) (p.receive SIGCHLD 0 0)
    let t := attempt 0 (.ppoll (some 0)) (.error .EAGAIN) p
    p.blockedFor 0 = sigBit SIGCHLD ∧
      (r.1 = .error .EINTR ∧ r.2.1 = none ∧ r.2.2.blockedFor 0 = 0 ∧
        (r.2.2.installMask 0 (sigBit 10)).blockedFor 0 = 0) ∧
      (t.1 = .error .EAGAIN ∧ t.2.1 = none ∧ t.2.2.blockedFor 0 = 0 ∧
        (t.2.2.installMask 0 (sigBit 10)).blockedFor 0 = 0) := by
  decide +kernel

end PosixKernel
