import PosixKernel.SignalCalls

/-!
# Ignoring a Signal

Setting the action of a signal to ignore, or to a default that ignores it, discards the
pending instances of the signal that the process holds. Those directed at a thread stay in
the record of the thread, and a handler that is installed later is run for them.

## Main results

* `ignored_not_pending_iff` — nothing is pending any more exactly when no thread held an
  instance;
* `ignored_then_handled` — a handler is run for a signal that was ignored in between.
-/

namespace PosixKernel

/-- Whether an instance of a signal is pending in a place. -/
def PendingSignals.holds (w : PendingSignals) (signum : ℕ) : Bool :=
  w.has signum || !(w.queued signum).isEmpty

/-- Whether an instance of a signal is pending anywhere in a process. -/
def ThreadedProcess.anyPending (p : ThreadedProcess) (signum : ℕ) : Bool :=
  p.signals.shared.holds signum || p.threads.any fun t => t.signals.holds signum

theorem PendingSignals.holds_clearPending (w : PendingSignals) {signum : ℕ}
    (h : validSignal signum = true) : (w.clearPending signum).holds signum = false := by
  rw [holds, has_clearPending w signum signum h, queued_clearPending w signum signum h, if_pos rfl]
  simp

namespace ThreadedProcess

/-- What is pending when the process itself holds no instance of a signal. -/
theorem anyPending_updSignals (p : ThreadedProcess) {f : SignalState → SignalState} {signum : ℕ}
    (hvalid : validSignal signum = true)
    (hf : (f p.signals).shared = p.signals.shared.clearPending signum) :
    (p.updSignals f).anyPending signum = false ↔
      ∀ t ∈ p.threads, t.signals.holds signum = false := by
  have hshared : (p.updSignals f).signals.shared = p.signals.shared.clearPending signum := hf
  rw [anyPending, hshared, PendingSignals.holds_clearPending _ hvalid, Bool.false_or,
    List.any_eq_false]
  exact forall₂_congr fun t _ => Bool.not_eq_true _ ▸ Iff.rfl

end ThreadedProcess

open ThreadedProcess in
/-- **Ignoring a signal.** Whether the action of a signal is set by `sigaction` or by
`signal`: when the new action ignores the signal, nothing of it is pending afterwards, in
the process or in a thread, exactly if no thread held an instance directed at it. -/
theorem ignored_not_pending_iff (p : ThreadedProcess) (sig : ℕ) (handlerVal flags : UInt32)
    (mask : UInt64) (hsettable : SignalState.settable sig = true)
    (hignored : SignalState.shouldDiscardPending sig (.ofVal handlerVal) = true) :
    ((p.sysSigaction sig handlerVal flags mask).2.anyPending sig = false ↔
      ∀ t ∈ p.threads, t.signals.holds sig = false) ∧
    ((p.sysSignal sig handlerVal).2.anyPending sig = false ↔
      ∀ t ∈ p.threads, t.signals.holds sig = false) := by
  have hvalid := (SignalState.settable_iff.mp hsettable).1
  constructor
  · rw [sysSigaction_snd]
    refine p.anyPending_updSignals hvalid ?_
    rw [SignalState.shared_setAction, hsettable, hignored]
    rfl
  rw [sysSignal_snd]
  refine p.anyPending_updSignals hvalid ?_
  rw [SignalState.setHandler_eq, SignalState.shared_setAction, hsettable, hignored]
  rfl

/-- A process with a thread, and a signal sent to the process that both block. -/
def blockedBoth : ThreadedProcess :=
  (ThreadedProcess.new 10).perform
    [(0, .sigprocmask SIG_BLOCK (sigBit 10)), (0, .clone (CLONE_VM ||| CLONE_THREAD)),
      (0, .receive 10 0 0)]

/-- A signal pending for the process only is discarded. -/
theorem ignored_not_pending_shared : blockedBoth.anyPending 10 = true ∧
      (blockedBoth.sysSigaction 10 SIG_IGN 0 0).2.anyPending 10 = false ∧
      (blockedBoth.sysSignal 10 SIG_IGN).2.anyPending 10 = false := by
  have hiff := ignored_not_pending_iff blockedBoth 10 SIG_IGN 0 0 (by decide) (by decide)
  have hthreads : ∀ t ∈ blockedBoth.threads, t.signals.holds 10 = false := by decide +kernel
  exact ⟨by decide +kernel, hiff.1.mpr hthreads, hiff.2.mpr hthreads⟩

/-- A signal directed at a thread that blocks it is still pending after its action is set to
ignore; a handler installed afterwards is run for it as soon as the thread unblocks it. -/
theorem ignored_then_handled :
    let p := (ThreadedProcess.new 10).perform
      [(0, .clone (CLONE_VM ||| CLONE_THREAD)), (11, .sigprocmask SIG_BLOCK (sigBit 10)),
        (0, .tkill 11 10 0 0)]
    let q := (p.sysSigaction 10 SIG_IGN 0 0).2
    let r := q.perform
      [(0, .sigaction 10 7 0 0), (11, .sigprocmask SIG_UNBLOCK (sigBit 10))]
    q.anyPending 10 = true ∧
      (ThreadedProcess.kernelDequeueSignal 11 r).1.map (fun d => (d.signum, d.handlerIdx)) =
        some (10, 7) := by
  decide +kernel

end PosixKernel
