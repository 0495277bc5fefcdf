import PosixKernel.ExecSignals
import PosixKernel.Masks
import PosixKernel.ThreadedSystem

/-!
# Masks in Every Run

What the masks of all threads of all processes hold in the runs of the system. `SIGKILL`
and `SIGSTOP` are stripped from a mask wherever a thread asks for one, but two other writers
take a mask as it is given: the start of a handler adds the mask of its action, and a spawn
with a mask among its attributes installs it in the child.

## Main results

* `ThreadedProcess.Guarded.run` — what a call keeps;
* `ThreadedSystem.Guarded.next` — what a step of the system keeps;
* `blocked_spares_guard` — in every run in which the two writers are given no such mask, no
  mask ever holds one of the two signals;
* `handler_mask_blocks_kill` — a run in which a handler blocks `SIGKILL`.
-/

namespace PosixKernel

/-! ### Handlers of the two signals -/

/-- The two signals that cannot be caught have no handler. -/
def SignalState.GuardUncaught (s : SignalState) : Prop :=
  ∀ n, n = SIGKILL ∨ n = SIGSTOP → s.isCaught n = false

namespace SignalState

variable {s s' : SignalState}

/-- What is caught is read from the action. -/
theorem isCaught_congr {n : ℕ} (h : s'.getAction n = s.getAction n) :
    s'.isCaught n = s.isCaught n := by
  rw [isCaught, isCaught, h]

/-- And so is that the guard is not. -/
theorem GuardUncaught.congr (h : s.GuardUncaught) (hactions : s'.actions = s.actions) :
    s'.GuardUncaught := fun n hn => by
  rw [isCaught_congr (s := s) (by rw [getAction, getAction, hactions])]
  exact h n hn

/-- Clearing leaves the actions. -/
theorem actions_clearPending (s : SignalState) (signum : ℕ) :
    (s.clearPending signum).actions = s.actions := by
  rw [clearPending_eq]
  rfl

/-- A new action is that of a signal that may be caught. -/
theorem GuardUncaught.update (h : s.GuardUncaught) {signum : ℕ} (hset : settable signum = true)
    {action : SignalAction} (hactions : s'.actions = Function.update s.actions signum action) :
    s'.GuardUncaught := fun n hn => by
  have hne : n ≠ signum := by
    obtain ⟨-, hkill, hstop⟩ := settable_iff.mp hset
    rintro rfl
    exact hn.elim hkill hstop
  rw [isCaught_congr (s := s) (by rw [getAction, getAction, hactions, Function.update_of_ne hne])]
  exact h n hn

/-- The guard cannot be given a handler. -/
theorem GuardUncaught.setAction (h : s.GuardUncaught) (signum : ℕ) (action : SignalAction) :
    (s.setAction signum action).GuardUncaught := by
  rw [SignalState.setAction]
  cases hset : settable signum with
  | false => exact h
  | true =>
    simp only [Bool.not_true, Bool.false_eq_true, if_false]
    split
    · exact h.update hset (actions_clearPending _ signum)
    · exact h.update hset rfl

end SignalState

/-! ### One process -/

namespace ThreadedProcess

variable {p q : ThreadedProcess} {u : ℕ}

/-- What holds of every process in a run: its threads have different numbers, no mask holds
one of the two signals, and neither has a handler. -/
structure Guarded (p : ThreadedProcess) : Prop where
  numbered : p.Numbered
  masks : p.MasksIn Permitted
  uncaught : p.signals.GuardUncaught

/-- The mask of the action of the first signal with a handler holds neither of the two
signals. -/
def HandlerMasked (u : ℕ) (p : ThreadedProcess) : Prop :=
  ∀ signum < NSIG, inMask (p.deliverableFor u) signum = true → p.signals.isCaught signum = true →
    (∀ n < signum, inMask (p.deliverableFor u) n = true → p.signals.isCaught n = false) →
      Permitted (p.signals.getAction signum).mask

instance (u : ℕ) (p : ThreadedProcess) : Decidable (p.HandlerMasked u) := by
  unfold HandlerMasked
  infer_instance

/-- A handler masks no guarded signal. -/
theorem Guarded.handlerKeeps (h : p.Guarded) (hmasked : p.HandlerMasked u) :
    p.HandlerKeeps Permitted u := by
  intro signum hmem hcaught hfirst mask hmask
  have hvalid := validSignal_iff.mp (validSignal_of_inMask hmem)
  have haction := hmasked signum (by simp only [NSIG]; omega) hmem hcaught hfirst
  refine permitted_or.mpr ⟨permitted_or.mpr ⟨hmask, haction⟩, permitted_iff.mpr ?_⟩
  have hne : ∀ n, n = SIGKILL ∨ n = SIGSTOP → inMask (sigBit signum) n = false := by
    intro n hn
    rw [inMask_sigBit, Bool.and_eq_false_imp]
    rintro -
    rw [decide_eq_false_iff_not]
    rintro rfl
    rw [h.uncaught n hn] at hcaught
    cases hcaught
  exact ⟨hne _ (.inl rfl), hne _ (.inr rfl)⟩

/-- A dequeue leaves the actions. -/
theorem actions_kernelDequeueSignal (tid : ℕ) (p : ThreadedProcess) :
    (kernelDequeueSignal tid p).2.signals.actions = p.signals.actions := by
  obtain ⟨mid, hdrains, hend⟩ := kernelDequeueSignal_cases tid p
  rcases hend with ⟨-, hq, -⟩ | ⟨signum, -, -, ⟨idx, -, -, hq⟩ | ⟨-, -, -, hq⟩⟩
  · rw [hq]
    exact hdrains.same.actions
  · rw [hq, (SamePending.startHandler mid tid signum idx _).actions,
      (SameButPending.dequeueSignalFor mid tid signum).actions]
    exact hdrains.same.actions
  · rw [hq]
    exact (SameButPending.dequeueSignalFor mid tid signum).actions.trans hdrains.same.actions

/-- No call gives one of the two signals a handler. -/
theorem guardUncaught_run (op : SignalOp) (tid : ℕ) (h : p.signals.GuardUncaught) :
    (op.run tid p).2.signals.GuardUncaught := by
  have heffect : ∀ q, SignalEffect tid p q → q.signals.GuardUncaught := by
    rintro q (_ | ⟨hk, sig, siValue, siCode⟩ | ⟨sig, action⟩ | mask | mask | ⟨polled, mask⟩ |
      signum | signum | a)
    · exact h
    · exact h.congr (SameButPending.raiseAt p _ sig siValue siCode).actions
    · exact h.setAction sig action
    · exact h.congr (SamePending.setBlockedFor p tid _).actions
    · exact h.congr (SamePending.installMask p tid mask).actions
    · exact h.congr (SamePending.maskedPoll p tid polled mask).actions
    · exact h.congr (SameButPending.dequeueSignalFor p tid signum).actions
    · exact h.congr (SignalState.actions_clearPending _ signum)
    · exact h
  refine run_rule (P := fun q => q.signals.GuardUncaught) op tid p
    (fun q hq => ⟨heffect q hq,
      (heffect q hq).congr (deliverPendingSignals_drains tid q).1.same.actions⟩)
    (fun _ _ _ => h) ?_ fun _ => h.congr (actions_kernelDequeueSignal tid p)
  rwa [signals_removeThread]

/-- **What a call keeps**, if the handler it may start is given no such mask. -/
theorem Guarded.run (h : p.Guarded) (op : SignalOp) (tid : ℕ)
    (hmasked : op = .dequeue → p.HandlerMasked tid) : (op.run tid p).2.Guarded := by
  have hstep := maskStep_run op (u := tid) permitted_strip h.masks
    fun hop => h.handlerKeeps (hmasked hop)
  exact ⟨Acts.numbered h.numbered (acts_run op tid p), hstep.masksIn h.numbered h.masks,
    guardUncaught_run op tid h.uncaught⟩

/-- A reset mask guards. -/
theorem Guarded.resetSignalMask (h : p.Guarded) : p.resetSignalMask.Guarded := by
  have hzero : Permitted 0 := by decide
  refine ⟨h.numbered.congr rfl rfl, ⟨fun tid => ?_, fun tid m hm => ?_⟩, h.uncaught.congr rfl⟩
  · have hworker : p.resetSignalMask.worker tid = p.worker tid := rfl
    have hblocked := h.masks.blocked tid
    rw [blockedFor] at hblocked
    rw [blockedFor, hworker]
    rcases hw : p.worker tid with _ | info
    · exact hzero
    · rwa [hw] at hblocked
  have hsaved := h.masks.saved tid
  rw [sigsuspendSavedMaskFor] at hsaved hm
  have hmain : p.resetSignalMask.isMainThread tid = p.isMainThread tid := rfl
  rw [hmain] at hm
  split at hm
  · exact absurd hm (Option.not_mem_none m)
  next hnot =>
    rw [if_neg hnot] at hsaved
    exact hsaved m hm

/-- A process of one thread guards when its mask does. -/
theorem guarded_single {p : Process} (hblocked : Permitted p.signals.blocked)
    (huncaught : p.signals.GuardUncaught) : (ThreadedProcess.mk p .single).Guarded := by
  refine ⟨.single p, ⟨fun tid => ?_, fun tid m hm => ?_⟩, huncaught⟩
  · rw [blockedFor, worker]
    split
    next heq =>
      split at heq
      · cases heq
      · cases heq
    next => exact hblocked
  · rw [sigsuspendSavedMaskFor] at hm
    split at hm <;> exact absurd hm (Option.not_mem_none m)

/-- A process whose record changed, but not its number and signals. -/
theorem Guarded.standing {p' : Process} (h : p.Guarded) (hpid : p'.pid = p.pid)
    (hsignals : p'.signals = p.signals) : (ThreadedProcess.mk p' p.toThreadRecord).Guarded := by
  have hmain : ∀ tid, (ThreadedProcess.mk p' p.toThreadRecord).isMainThread tid =
      p.isMainThread tid := fun tid => by
    rw [isMainThread, isMainThread, hpid]
  refine ⟨h.numbered.congr rfl rfl, h.masks.sameMasks
    ⟨hpid, fun tid => ?_, fun tid => ?_, rfl, rfl⟩,
    h.uncaught.congr (congrArg SignalState.actions hsignals)⟩
  · rw [blockedFor, blockedFor, worker, worker, hmain, hsignals]
    rfl
  · rw [sigsuspendSavedMaskFor, sigsuspendSavedMaskFor, hmain]
    rfl

end ThreadedProcess

/-! ### All processes -/

namespace ThreadedSystem

/-- The steps in which no writer is given a mask with one of the two signals: neither the
action of a handler that is started has one, nor a spawn that sets the mask of the child. -/
def CleanStep (s : ThreadedSystem) : ThreadedAction → Prop
  | .signal pid tid .dequeue => ∀ p ∈ s.process pid, p.HandlerMasked tid
  | .kernel (.spawn _ _ _ _ attrs) =>
    hasFlag attrs.flags SETSIGMASK = true → Permitted attrs.sigmask
  | _ => True

/-- The invariant: every process is guarded. -/
def Guarded (s : ThreadedSystem) : Prop := ∀ pid p, s.process pid = some p → p.Guarded

/-- A guarded process may be put in. -/
theorem Guarded.put {s : ThreadedSystem} (h : s.Guarded) {p : ThreadedProcess} (hp : p.Guarded)
    (pid : ℕ) : (s.put pid p).Guarded := by
  intro q p' hp'
  rw [process_put] at hp'
  split at hp'
  · exact Option.some.inj hp' ▸ hp
  · exact h q p' hp'

/-- Each process of a guarded system guards. -/
theorem Guarded.base {s : ThreadedSystem} (h : s.Guarded) {pid : ℕ} {p : Process}
    (hp : s.base.procs.get pid = some p) : (ThreadedProcess.mk p (s.threads pid)).Guarded :=
  h pid _ (by rw [process, hp]; rfl)

end ThreadedSystem

/-- Reset handlers catch nothing new. -/
theorem SignalState.GuardUncaught.setHandlers {s : SignalState} (h : s.GuardUncaught)
    (chosen : ℕ → Bool) (handler : SignalHandler) :
    (PosixKernel.setHandlers chosen handler s).blocked = s.blocked ∧
      (PosixKernel.setHandlers chosen handler s).GuardUncaught := by
  rw [PosixKernel.setHandlers]
  generalize (List.range' 1 64).filter chosen = sigs
  induction sigs generalizing s with
  | nil => exact ⟨rfl, h⟩
  | cons sig sigs ih =>
    have hrest := ih (h.setAction sig { s.actions sig with handler })
    rwa [ThreadedProcess.blocked_setAction, ← setHandler_eq] at hrest

/-- After an exec no guarded signal is caught. -/
theorem guardUncaught_execSignals (s : SignalState) : (execSignals s).GuardUncaught := by
  have hnone : ∀ n, 1 ≤ n → n ≤ 64 → (execSignals s).isCaught n = false := by
    intro n h1 h64
    have hhandler := getHandler_execSignals s h1 h64
    have hvalid : validSignal n = true := validSignal_iff.mpr ⟨h1, h64⟩
    rw [SignalState.getHandler, if_pos hvalid] at hhandler
    rw [SignalState.isCaught, SignalState.getAction, if_pos hvalid, hhandler]
    split_ifs with hign
    · rfl
    · rfl
  rintro n (rfl | rfl)
  · exact hnone SIGKILL (by decide) (by decide)
  · exact hnone SIGSTOP (by decide) (by decide)

/-- The image catches nothing new. -/
theorem SignalState.GuardUncaught.signalsImage {s : SignalState} (h : s.GuardUncaught) :
    (PosixKernel.signalsImage s).GuardUncaught := by
  have hkept : ∀ n, 1 ≤ n → n ≤ 64 → s.isCaught n = false →
      (PosixKernel.signalsImage s).isCaught n = false := by
    intro n h1 h64 hn
    rw [isCaught] at hn
    rw [isCaught, getAction_signalsImage s h1 h64, actionImage]
    rcases haction : (s.getAction n).handler with _ | _ | idx
    · rfl
    · rfl
    · rw [haction] at hn
      exact absurd hn Bool.false_ne_true.symm
  rintro n (rfl | rfl)
  · exact hkept SIGKILL (by decide) (by decide) (h _ (.inl rfl))
  · exact hkept SIGSTOP (by decide) (by decide) (h _ (.inr rfl))

namespace ThreadedSystem

variable {M : Machine} {s : ThreadedSystem}

/-- The signals of every process after a step of the kernel. -/
theorem Guarded.origin (h : s.Guarded) {a : Action} {r : Except Errno Reply} {q : ℕ}
    {p' : Process} (hclean : s.CleanStep (.kernel a)) (horigin : Origin s.base a r q p') :
    Permitted p'.signals.blocked ∧ p'.signals.GuardUncaught := by
  cases horigin with
  | kept hp hpid hsignals =>
    rw [hsignals]
    exact ⟨(h.base hp).masks.blocked 0, (h.base hp).uncaught⟩
  | image hp ha hr hsignals =>
    rw [hsignals]
    exact ⟨(h.base hp).masks.blocked 0, guardUncaught_execSignals _⟩
  | created hnew hsignals =>
    rw [hsignals]
    exact ⟨by decide, by rintro n (rfl | rfl) <;> rfl⟩
  | forked hnew hp hsignals =>
    rw [hsignals]
    exact ⟨(h.base hp).masks.blocked 0, (h.base hp).uncaught.signalsImage⟩
  | @spawned n argv envp actions attrs parent hnew ha hp hsignals =>
    subst ha
    rw [hsignals, spawnSignals]
    have hfresh : ({ SignalState.new with blocked := parent.signals.blocked } :
        SignalState).GuardUncaught := by rintro n (rfl | rfl) <;> rfl
    obtain ⟨heq, huncaught⟩ := hfresh.setHandlers
      (fun sig => parent.signals.getHandler sig = .Ignore) .Ignore
    have hblocked : Permitted (inheritedSignals parent.signals).blocked := by
      rw [inheritedSignals, heq]
      exact (h.base hp).masks.blocked 0
    have hmask : ∀ t : SignalState, Permitted t.blocked → t.GuardUncaught →
        let u := if hasFlag attrs.flags SETSIGMASK then { t with blocked := attrs.sigmask } else t
        Permitted u.blocked ∧ u.GuardUncaught := by
      intro t ht hu
      cases hflag : hasFlag attrs.flags SETSIGMASK with
      | true => exact ⟨hclean hflag, hu.congr rfl⟩
      | false => exact ⟨ht, hu⟩
    obtain ⟨hb, hu⟩ := hmask _ hblocked huncaught
    split
    · obtain ⟨heq, huncaught⟩ := hu.setHandlers (inSignalMask attrs.sigdef) .Default
      exact ⟨by rwa [heq], huncaught⟩
    · exact ⟨hb, hu⟩

/-- **One step** keeps every process guarded. -/
theorem Guarded.next (h : s.Guarded) {a : ThreadedAction} (hclean : s.CleanStep a) :
    (s.next M a).Guarded := by
  cases a with
  | kernel a =>
    rcases hstep : s.base.step M a with _ | ⟨r, base⟩
    · rwa [ThreadedSystem.next, hstep]
    rw [ThreadedSystem.next, hstep]
    intro q p hp
    obtain ⟨p', hp', rfl⟩ := Option.map_eq_some_iff.mp hp
    have horigin := System.step_origin a hstep hp'
    obtain ⟨hblocked, huncaught⟩ := h.origin hclean horigin
    simp only [threadsAfter]
    split
    · exact ThreadedProcess.guarded_single hblocked huncaught
    next hthreads =>
      rw [not_or] at hthreads
      cases horigin with
      | kept hold hpid hsignals => exact (h.base hold).standing hpid hsignals
      | image hold ha hr => exact absurd ⟨ha, hr⟩ hthreads.2
      | created hnew | forked hnew | spawned hnew => exact absurd hnew hthreads.1
  | signal pid tid op =>
    rw [ThreadedSystem.next]
    rcases hp : s.process pid with _ | p
    · exact h
    refine h.put ((h pid p hp).run op tid ?_) pid
    rintro rfl
    exact hclean p hp
  | resetMask pid =>
    rw [ThreadedSystem.next]
    rcases hp : s.process pid with _ | p
    · exact h
    · exact h.put (h pid p hp).resetSignalMask pid

end ThreadedSystem

/-- **Masks in every run.** In every run of the system in which no handler is started whose
action has a mask with `SIGKILL` or `SIGSTOP`, and no child is spawned with such a mask: no
thread of any process ever blocks one of the two signals, so a `SIGKILL` that is pending for
a thread can be delivered to it. -/
theorem blocked_spares_guard (M : Machine) (actions : List ThreadedAction)
    (hrun : Runs (ThreadedSystem.next M) ThreadedSystem.CleanStep .boot actions)
    (pid : ℕ) (p : ThreadedProcess)
    (hp : (actions.foldl (ThreadedSystem.next M) .boot).process pid = some p) (tid : ℕ) :
    (inMask (p.blockedFor tid) SIGKILL = false ∧ inMask (p.blockedFor tid) SIGSTOP = false) ∧
      (inMask (p.pendingFor tid) SIGKILL = true →
        inMask (p.deliverableFor tid) SIGKILL = true) := by
  have hboot : ThreadedSystem.boot.Guarded := by
    intro q p' hp'
    have hnone : System.boot.procs.get q = none := SlotTable.get_empty q
    rw [ThreadedSystem.process, ThreadedSystem.boot, hnone] at hp'
    cases hp'
  have hguarded := hrun.invariant hboot fun s a h hclean => h.next hclean
  have hmask := permitted_iff.mp ((hguarded pid p hp).masks.blocked tid)
  refine ⟨hmask, fun hpending => ?_⟩
  rw [ThreadedProcess.inMask_deliverableFor, hpending, hmask.1]
  rfl

instance (s : ThreadedSystem) (a : ThreadedAction) : Decidable (s.CleanStep a) := by
  unfold ThreadedSystem.CleanStep
  split
  · infer_instance
  · infer_instance
  · infer_instance

/-- A process that runs a handler, whose action blocks another signal, and spawns a child
that blocks a third one. -/
def maskedRun : List ThreadedAction :=
  [.kernel (.create 10), .signal 10 0 (.sigaction 10 7 0 (sigBit 12)),
    .signal 10 0 (.receive 10 0 0), .signal 10 0 .dequeue,
    .kernel (.spawn 10 [] [] [] ⟨SETSIGMASK, 0, 0, sigBit 15⟩)]

/-- In this run neither process blocks one of the two signals. -/
theorem blocked_spares_guard_spawn :
    ∃ p, (maskedRun.foldl (ThreadedSystem.next (.on .barren)) .boot).process 2 = some p ∧
      (inMask (p.blockedFor 0) SIGKILL = false ∧ inMask (p.blockedFor 0) SIGSTOP = false) ∧
      (inMask (p.pendingFor 0) SIGKILL = true → inMask (p.deliverableFor 0) SIGKILL = true) := by
  have hsome : ((maskedRun.foldl (ThreadedSystem.next (.on .barren)) .boot).process 2).isSome =
      true := by decide +kernel
  obtain ⟨p, hp⟩ := Option.isSome_iff_exists.mp hsome
  exact ⟨p, hp, blocked_spares_guard (.on .barren) maskedRun (by decide +kernel) 2 p hp 0⟩

/-- A handler whose action blocks `SIGKILL` is started, and a `SIGKILL` that arrives then
cannot be delivered. A child that is spawned with such a mask never loses it. -/
theorem handler_mask_blocks_kill :
    let s := [.kernel (.create 10), .signal 10 0 (.sigaction 10 7 0 (sigBit SIGKILL)),
        .signal 10 0 (.receive 10 0 0), .signal 10 0 .dequeue,
        .signal 10 0 (.receive SIGKILL 0 0),
        .kernel (.spawn 10 [] [] [] ⟨SETSIGMASK, 0, 0, sigBit SIGKILL⟩)].foldl
      (ThreadedSystem.next (.on .barren)) .boot
    (s.process 10).map (fun p => (inMask (p.pendingFor 0) SIGKILL,
        inMask (p.blockedFor 0) SIGKILL, inMask (p.deliverableFor 0) SIGKILL)) =
        some (true, true, false) ∧
      (s.process 2).map (fun p => inMask (p.blockedFor 0) SIGKILL) = some true := by
  decide +kernel

end PosixKernel
