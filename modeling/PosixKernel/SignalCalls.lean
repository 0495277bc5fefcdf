import PosixKernel.Delivery
import PosixKernel.Lib.Runs

/-!
# Signal Calls

The calls of a thread that send, take, catch, ignore and block signals, with the delivery
of pending signals that ends each of them (`syscalls.rs`, `wasm_api.rs`, centralized mode),
and the call by which the host asks for a signal whose handler the thread must run. A wait
with a mask of its own sets the mask of the thread aside and keeps its own in force while
the host retries the call; the mask that was set aside comes back when the wait ends with
nothing to deliver, or when a handler is started.

## Main results

* `SignalOp.run` — every call as one function on the process;
* `ThreadedProcess.dequeueLoop_backlog` — the host gets an answer;
* `ThreadedProcess.kernelDequeueSignal_cases` — what the answer can be.
-/

namespace PosixKernel

open SignalState

/-! ### Flags -/

def SIG_BLOCK : UInt32 := 0
def SIG_UNBLOCK : UInt32 := 1
def SIG_SETMASK : UInt32 := 2
def CLONE_VM : UInt32 := 0x00000100
def CLONE_THREAD : UInt32 := 0x00010000

/-! ### Dispositions -/

/-- The two signals that cannot be blocked. -/
def sigGuard : UInt64 := sigBit SIGKILL ||| sigBit SIGSTOP

/-- The handler that a number stands for. -/
def SignalHandler.ofVal (val : UInt32) : SignalHandler :=
  if val = SIG_DFL then .Default else if val = SIG_IGN then .Ignore else .Handler val

/-- The number that stands for a handler. -/
def SignalHandler.val : SignalHandler → UInt32
  | .Default => SIG_DFL
  | .Ignore => SIG_IGN
  | .Handler ptr => ptr

namespace SignalState

/-- Whether the disposition of a signal can be changed. -/
def settable (signum : ℕ) : Bool := validSignal signum && signum ≠ SIGKILL && signum ≠ SIGSTOP

/-- Install a handler with its flags and mask; the two signals that cannot be caught refuse
it. -/
def setAction (s : SignalState) (signum : ℕ) (action : SignalAction) : SignalState :=
  if !settable signum then s
  else
    let s := { s with actions := Function.update s.actions signum action }
    if shouldDiscardPending signum action.handler then s.clearPending signum else s

/-- Which signals may be given an action. -/
theorem settable_iff {signum : ℕ} : settable signum = true ↔
    validSignal signum = true ∧ signum ≠ SIGKILL ∧ signum ≠ SIGSTOP := by
  rw [settable, Bool.and_eq_true, Bool.and_eq_true, decide_eq_true_iff, decide_eq_true_iff,
    and_assoc]

/-- A new action discards what the process holds of the signal, if it ignores it. -/
theorem shared_setAction (s : SignalState) (signum : ℕ) (action : SignalAction) :
    (s.setAction signum action).shared =
      if settable signum && shouldDiscardPending signum action.handler then
        s.shared.clearPending signum else s.shared := by
  rw [setAction]
  cases settable signum with
  | false => rfl
  | true =>
    cases shouldDiscardPending signum action.handler with
    | false => rfl
    | true =>
      simp only [Bool.not_true, Bool.false_eq_true, if_false, if_true, Bool.and_self]
      rw [clearPending_eq]
      rfl

/-- A handler is set with the flags and the mask that are there. -/
theorem setHandler_eq (s : SignalState) (signum : ℕ) (handler : SignalHandler) :
    s.setHandler signum handler = s.setAction signum { s.actions signum with handler } := by
  have hsettable : (!validSignal signum || signum = SIGKILL || signum = SIGSTOP) =
      !settable signum := by
    rw [settable]
    cases validSignal signum with
    | false => rfl
    | true => simp
  rw [setHandler, setAction, hsettable]

end SignalState

/-- What the host learns about a signal whose handler the thread must run. -/
structure SignalDelivery where
  signum : ℕ
  handlerIdx : UInt32
  flags : UInt32
  siValue : ℤ
  oldMask : UInt64
  siCode : ℤ
  siPid : ℕ
  siUid : UInt32
  altSp : UInt32
  altSize : UInt32
  deriving DecidableEq

namespace ThreadedProcess

/-- `sigaction`; returns the old action. The mask is stored as it is given. -/
def sysSigaction (p : ThreadedProcess) (sig : ℕ) (handlerVal flags : UInt32) (mask : UInt64) :
    Except Errno (UInt32 × UInt32 × UInt64) × ThreadedProcess :=
  if sig = 0 ∨ NSIG ≤ sig then (.error .EINVAL, p)
  else if sig = SIGKILL ∨ sig = SIGSTOP then (.error .EINVAL, p)
  else
    let old := p.signals.getAction sig
    (.ok (old.handler.val, old.flags, old.mask),
      p.updSignals fun s => s.setAction sig ⟨.ofVal handlerVal, flags, mask⟩)

/-- `signal`; returns the old handler. -/
def sysSignal (p : ThreadedProcess) (signum : ℕ) (handlerVal : UInt32) :
    Except Errno UInt32 × ThreadedProcess :=
  if !settable signum then (.error .EINVAL, p)
  else
    (.ok (p.signals.getHandler signum).val,
      p.updSignals fun s => s.setHandler signum (.ofVal handlerVal))

/-- What sigaction leaves, also when it fails. -/
theorem sysSigaction_snd (p : ThreadedProcess) (sig : ℕ) (handlerVal flags : UInt32)
    (mask : UInt64) : (p.sysSigaction sig handlerVal flags mask).2 =
      p.updSignals fun s => s.setAction sig ⟨.ofVal handlerVal, flags, mask⟩ := by
  have hrefused : settable sig = false →
      (p.updSignals fun s => s.setAction sig ⟨.ofVal handlerVal, flags, mask⟩) = p := fun h => by
    rw [updSignals, setAction, h]
    rfl
  rw [sysSigaction]
  split
  next h =>
    refine (hrefused (Bool.eq_false_iff.mpr fun hs => ?_)).symm
    have hvalid := validSignal_iff.mp (settable_iff.mp hs).1
    simp only [NSIG] at h
    omega
  next =>
    split
    next h =>
      refine (hrefused (Bool.eq_false_iff.mpr fun hs => ?_)).symm
      have hs' := (settable_iff.mp hs).2
      exact h.elim hs'.1 hs'.2
    next => rfl

/-- What signal leaves, also when it fails. -/
theorem sysSignal_snd (p : ThreadedProcess) (sig : ℕ) (handlerVal : UInt32) :
    (p.sysSignal sig handlerVal).2 =
      p.updSignals fun s => s.setHandler sig (.ofVal handlerVal) := by
  rw [sysSignal]
  split
  next h => rw [updSignals, SignalState.setHandler_eq, setAction, if_pos h]
  next => rfl

/-! ### Masks -/

/-- `sigprocmask`; returns the old mask. -/
def sysSigprocmask (p : ThreadedProcess) (tid : ℕ) (how : UInt32) (set : UInt64) :
    Except Errno UInt64 × ThreadedProcess :=
  let oldMask := p.blockedFor tid
  let newMask? :=
    if how = SIG_BLOCK then some (oldMask ||| set)
    else if how = SIG_UNBLOCK then some (oldMask &&& ~~~set)
    else if how = SIG_SETMASK then some set
    else none
  match newMask? with
  | none => (.error .EINVAL, p)
  | some newMask => (.ok oldMask, p.setBlockedFor tid (newMask &&& ~~~sigGuard))

/-- Set the mask of a thread aside and put the mask of a wait in force, unless an earlier
attempt of the wait did so. -/
def installMask (p : ThreadedProcess) (tid : ℕ) (mask : UInt64) : ThreadedProcess :=
  match p.sigsuspendSavedMaskFor tid with
  | some _ => p
  | none =>
    (p.setSigsuspendSavedMaskFor tid (some (p.blockedFor tid))).setBlockedFor tid
      (mask &&& ~~~sigGuard)

/-- Put back in force the mask that was set aside, if there is one. -/
def restoreMask (p : ThreadedProcess) (tid : ℕ) : ThreadedProcess :=
  match p.takeSigsuspendSavedMaskFor tid with
  | (some saved, q) => q.setBlockedFor tid saved
  | (none, q) => q

/-- One attempt of `sigsuspend`. -/
def sysSigsuspend (p : ThreadedProcess) (tid : ℕ) (mask : UInt64) :
    Except Errno Unit × ThreadedProcess :=
  let p := p.installMask tid mask
  if p.deliverableFor tid ≠ 0 then (.error .EINTR, p) else (.error .EAGAIN, p)

/-- One attempt of `pause`. -/
def sysPause (p : ThreadedProcess) (tid : ℕ) : Except Errno Unit × ThreadedProcess :=
  p.sysSigsuspend tid p.signals.blocked

/-- The end of an attempt to wait for descriptors, which answered `polled`. -/
def afterPoll (p : ThreadedProcess) (tid : ℕ) (polled : Except Errno ℤ) :
    Except Errno ℤ × ThreadedProcess :=
  match polled with
  | .error .EAGAIN => (.error .EAGAIN, p)
  | result => if p.deliverableFor tid = 0 then (result, p.restoreMask tid) else (result, p)

/-- One attempt to wait for descriptors with a mask of its own, or without one. -/
def maskedPoll (p : ThreadedProcess) (tid : ℕ) (polled : Except Errno ℤ)
    (mask : Option UInt64) : Except Errno ℤ × ThreadedProcess :=
  match mask with
  | some newMask =>
    let p := p.installMask tid newMask
    if p.deliverableFor tid ≠ 0 then (.error .EINTR, p) else p.afterPoll tid polled
  | none => p.afterPoll tid polled

/-- One attempt of `ppoll`, where `sys_poll` answers `polled`. -/
def sysPpoll (p : ThreadedProcess) (tid : ℕ) (polled : Except Errno ℤ) (mask : Option UInt64) :
    Except Errno ℤ × ThreadedProcess := p.maskedPoll tid polled mask

/-- One attempt of `pselect6`, where `sys_select` answers `selected`. -/
def sysPselect6 (p : ThreadedProcess) (tid : ℕ) (selected : Except Errno ℤ)
    (mask : Option UInt64) : Except Errno ℤ × ThreadedProcess := p.maskedPoll tid selected mask

/-! ### Sending -/

/-- The place where a signal directed at a thread goes: its own, or the process for the main
thread and for a thread that is not there. -/
def homeOf (p : ThreadedProcess) (tid : ℕ) : Target :=
  match p.worker tid with
  | some _ => .thread tid
  | none => .process

/-- A signal sent to the process by `kill` or `sigqueue` arrives. -/
def receive (p : ThreadedProcess) (sig : ℕ) (siValue siCode : ℤ) : ThreadedProcess :=
  p.updSignals fun s => s.raiseInternal sig siValue siCode

/-- `tkill` and its variant with a value. Any value or code makes the instance a queued one. -/
def sysTkill (p : ThreadedProcess) (target sig : ℕ) (siValue siCode : ℤ) :
    Except Errno Unit × ThreadedProcess :=
  if NSIG ≤ sig then (.error .EINVAL, p)
  else if sig = 0 then (.ok (), p)
  else if siCode ≠ 0 ∨ siValue ≠ 0 then
    (.ok (), p.raiseAt (p.homeOf target) sig siValue (-1))
  else (.ok (), p.raiseAt (p.homeOf target) sig 0 0)

/-! ### Taking -/

/-- One attempt of `sigtimedwait`; returns the signal, its value and its code. -/
def sysSigtimedwait (p : ThreadedProcess) (tid : ℕ) (mask : UInt64) :
    Except Errno (ℕ × ℤ × ℤ) × ThreadedProcess :=
  let pendingInMask := p.pendingFor tid &&& mask
  if pendingInMask = 0 then (.error .EAGAIN, p)
  else
    let signum := lowestSignal pendingInMask
    if signum < NSIG then
      let r := p.dequeueSignalFor tid signum
      (.ok (signum, r.1.1, r.1.2), r.2)
    else (.error .EAGAIN, p)

/-- A read from a signal descriptor; of the 128 bytes it writes only the signal number is
not zero. Every pending instance of the signal goes. -/
def readSignalfd (p : ThreadedProcess) (slot bufLen : ℕ) : Except Errno ℕ × ThreadedProcess :=
  if bufLen < 128 then (.error .EINVAL, p)
  else
    match p.signalfds.get slot with
    | none => (.error .EBADF, p)
    | some sfd =>
      let mask := p.signals.pending &&& sfd.mask
      if mask = 0 then (.error .EAGAIN, p)
      else
        let signo := lowestSignal mask
        (.ok signo, p.updSignals fun s => s.clearPending signo)

/-! ### Threads -/

/-- The number of a new thread. -/
def allocTid (p : ThreadedProcess) : ℕ × ThreadedProcess :=
  let tid := if p.nextTid = 0 then p.pid + 1 else p.nextTid
  (tid, { p with nextTid := tid + 1 })

/-- `clone`: a new thread, with the mask of the calling one. -/
def sysClone (p : ThreadedProcess) (tid : ℕ) (flags : UInt32) :
    Except Errno ℕ × ThreadedProcess :=
  if !hasFlag flags CLONE_VM || !hasFlag flags CLONE_THREAD then (.error .ENOSYS, p)
  else
    let r := p.allocTid
    let info := ThreadInfo.new r.1
    let info := { info with signals := { info.signals with blocked := r.2.blockedFor tid } }
    (.ok r.1, { r.2 with threads := r.2.threads ++ [info] })

/-- Forget a thread; the last one takes its place. -/
def removeThread (p : ThreadedProcess) (tid : ℕ) : ThreadedProcess :=
  match p.threads.findIdx? fun t => t.tid = tid, p.threads.getLast? with
  | some i, some last => { p with threads := (p.threads.set i last).dropLast }
  | _, _ => p

/-- What the host does to a forked child: it starts with nothing blocked. -/
def resetSignalMask (p : ThreadedProcess) : ThreadedProcess :=
  { p.updSignals fun s => { s with blocked := 0 } with sigsuspendSavedMask := none }

/-! ### The alternate stack -/

/-- `sigaltstack`: set the stack, unless a handler runs on it. -/
def sysSigaltstack (p : ThreadedProcess) (sp size flags : UInt32) :
    Except Errno Unit × ThreadedProcess :=
  if hasFlag p.altStack.flags SS_ONSTACK then (.error .EPERM, p)
  else if hasFlag flags SS_DISABLE then
    (.ok (), { p with altStack := { p.altStack with sp := 0, flags := SS_DISABLE, size := 0 } })
  else
    (.ok (), { p with altStack :=
      { p.altStack with sp := sp.toUInt64, flags := flags, size := size.toUInt64 } })

/-- The return from a handler leaves the alternate stack, if the handler ran on it. -/
def sysSigreturn (p : ThreadedProcess) : ThreadedProcess :=
  if p.altStack.depth = 0 then p
  else
    { p with altStack :=
      { p.altStack with
        depth := p.altStack.depth - 1
        flags := if p.altStack.depth = 1 then p.altStack.flags &&& ~~~SS_ONSTACK
          else p.altStack.flags } }

/-! ### Handlers -/

/-- Start a handler: the signal is taken, a mask that was set aside comes back, and the
signal is blocked together with the mask of its action. -/
def startHandler (p : ThreadedProcess) (tid signum : ℕ) (idx : UInt32) (action : SignalAction) :
    SignalDelivery × ThreadedProcess :=
  let taken := p.dequeueSignalFor tid signum
  let p := taken.2.restoreMask tid
  let oldMask := p.blockedFor tid
  let p := p.setBlockedFor tid (oldMask ||| action.mask ||| sigBit signum)
  let onAlt := hasFlag action.flags SA_ONSTACK && !hasFlag p.altStack.flags SS_DISABLE &&
    p.altStack.sp != 0
  -- only the first handler on the alternate stack moves the stack pointer
  let switch := onAlt && p.altStack.depth = 0
  ({ signum := signum
     handlerIdx := idx
     flags := action.flags
     siValue := taken.1.1
     oldMask := oldMask
     siCode := taken.1.2
     siPid := p.pid
     siUid := p.uid
     altSp := if switch then p.altStack.sp.toUInt32 else 0
     altSize := if switch then p.altStack.size.toUInt32 else 0 },
   if onAlt then
     { p with altStack :=
       { p.altStack with
         depth := p.altStack.depth + 1
         flags := p.altStack.flags ||| SS_ONSTACK } }
   else p)

/-- Forget every mask that was set aside: the process is dying. -/
def dropSavedMasks (p : ThreadedProcess) : ThreadedProcess :=
  { p with
    sigsuspendSavedMask := none
    threads := p.threads.map fun t =>
      { t with signals := { t.signals with sigsuspendSavedMask := none } } }

/-- The loop of `kernel_dequeue_signal`, in at most that many rounds; none when they do not
suffice. -/
def dequeueLoop (tid : ℕ) : ℕ → ThreadedProcess → Option (Option SignalDelivery × ThreadedProcess)
  | 0, _ => none
  | fuel + 1, p =>
    let deliverable := p.deliverableFor tid
    if deliverable = 0 then some (none, p)
    else
      let signum := lowestSignal deliverable
      if NSIG ≤ signum then some (none, p)
      else
        let action := p.signals.getAction signum
        match action.handler with
        | .Handler idx =>
          let r := p.startHandler tid signum idx action
          some (some r.1, r.2)
        | .Default =>
          let q := (p.dequeueSignalFor tid signum).2
          if (defaultAction signum).isFatal then
            some (none, { q.dropSavedMasks with state := .Exited, exitStatus := 128 + signum })
          else dequeueLoop tid fuel q
        | .Ignore => dequeueLoop tid fuel (p.dequeueSignalFor tid signum).2

/-- The host asks for a signal whose handler the thread must run. -/
def kernelDequeueSignal (tid : ℕ) (p : ThreadedProcess) : Option SignalDelivery × ThreadedProcess :=
  (dequeueLoop tid (p.backlog tid + 1) p).getD (none, p)

end ThreadedProcess

/-! ### Calls -/

/-- What can happen to the signals of a process on behalf of one of its threads. `receive`
is a signal sent to the process, by any process, and `arrive` one that its terminal sends,
where no delivery follows; `other` is any call that concerns no signals. -/
inductive SignalOp
  | receive (sig : ℕ) (siValue siCode : ℤ)
  | arrive (sig : ℕ) (siValue siCode : ℤ)
  | tkill (target sig : ℕ) (siValue siCode : ℤ)
  | sigaction (sig : ℕ) (handlerVal flags : UInt32) (mask : UInt64)
  | signal (sig : ℕ) (handlerVal : UInt32)
  | sigprocmask (how : UInt32) (set : UInt64)
  | sigsuspend (mask : UInt64)
  | pause
  | ppoll (polled : Except Errno ℤ) (mask : Option UInt64)
  | pselect6 (selected : Except Errno ℤ) (mask : Option UInt64)
  | sigtimedwait (mask : UInt64)
  | readSignalfd (slot bufLen : ℕ)
  | clone (flags : UInt32)
  | threadExit
  | sigaltstack (sp size flags : UInt32)
  | sigreturn
  | dequeue
  | other

/-- What a call returns. -/
inductive SignalReply
  | done
  | num (n : ℤ)
  | mask (old : UInt64)
  | handler (old : UInt32)
  | action (handler flags : UInt32) (mask : UInt64)
  | taken (signum : ℕ) (siValue siCode : ℤ)
  | delivery (d : Option SignalDelivery)
  deriving DecidableEq

open ThreadedProcess in
/-- Perform a call of a thread. -/
def SignalOp.run (tid : ℕ) (p : ThreadedProcess) :
    SignalOp → Except Errno SignalReply × ThreadedProcess
  | .receive sig siValue siCode =>
    (.ok .done, deliverPendingSignals tid (p.receive sig siValue siCode))
  | .arrive sig siValue siCode => (.ok .done, p.receive sig siValue siCode)
  | .tkill target sig siValue siCode =>
    let r := p.sysTkill target sig siValue siCode
    (r.1.map fun _ => .done, deliverPendingSignals tid r.2)
  | .sigaction sig handlerVal flags mask =>
    let r := p.sysSigaction sig handlerVal flags mask
    (r.1.map fun old => .action old.1 old.2.1 old.2.2, deliverPendingSignals tid r.2)
  | .signal sig handlerVal =>
    let r := p.sysSignal sig handlerVal
    (r.1.map .handler, deliverPendingSignals tid r.2)
  | .sigprocmask how set =>
    match p.sysSigprocmask tid how set with
    | (.error e, q) => (.error e, q)
    | (.ok old, q) => (.ok (.mask old), deliverPendingSignals tid q)
  | .sigsuspend mask =>
    let r := p.sysSigsuspend tid mask
    (r.1.map fun _ => .done, deliverPendingSignals tid r.2)
  | .pause =>
    let r := p.sysPause tid
    (r.1.map fun _ => .done, deliverPendingSignals tid r.2)
  | .ppoll polled mask =>
    let r := p.sysPpoll tid polled mask
    (r.1.map .num, deliverPendingSignals tid r.2)
  | .pselect6 selected mask =>
    let r := p.sysPselect6 tid selected mask
    (r.1.map .num, deliverPendingSignals tid r.2)
  | .sigtimedwait mask =>
    let r := p.sysSigtimedwait tid mask
    (r.1.map fun t => .taken t.1 t.2.1 t.2.2, deliverPendingSignals tid r.2)
  | .readSignalfd slot bufLen =>
    let r := p.readSignalfd slot bufLen
    (r.1.map fun signo => .taken signo 0 0, deliverPendingSignals tid r.2)
  | .clone flags =>
    let r := p.sysClone tid flags
    (r.1.map fun t => .num t, r.2)
  | .threadExit => (.ok .done, p.removeThread tid)
  | .sigaltstack sp size flags =>
    match p.sysSigaltstack sp size flags with
    | (.error e, q) => (.error e, q)
    | (.ok _, q) => (.ok .done, deliverPendingSignals tid q)
  | .sigreturn => (.ok .done, p.sysSigreturn)
  | .dequeue =>
    let r := kernelDequeueSignal tid p
    (.ok (.delivery r.1), r.2)
  | .other => (.ok .done, deliverPendingSignals tid p)

/-- The process after a call of a thread. -/
def ThreadedProcess.next (p : ThreadedProcess) (call : ℕ × SignalOp) : ThreadedProcess :=
  (call.2.run call.1 p).2

/-- The process after calls of its threads. -/
def ThreadedProcess.perform (p : ThreadedProcess) (calls : List (ℕ × SignalOp)) :
    ThreadedProcess := calls.foldl ThreadedProcess.next p

/-! ### Masks and pending signals -/

namespace ThreadedProcess

/-- The threads after the saved masks were dropped. -/
theorem getThread_dropSavedMasks (p : ThreadedProcess) (tid : ℕ) :
    p.dropSavedMasks.getThread tid = (p.getThread tid).map fun t =>
      { t with signals := { t.signals with sigsuspendSavedMask := none } } := by
  rw [getThread, ThreadedProcess.dropSavedMasks, List.find?_map]
  rfl

namespace SamePending

variable (p : ThreadedProcess)

/-- Restoring a mask leaves what is pending. -/
theorem restoreMask (tid : ℕ) : p.SamePending (p.restoreMask tid) := by
  rw [ThreadedProcess.restoreMask, takeSigsuspendSavedMaskFor]
  rcases p.sigsuspendSavedMaskFor tid with _ | saved
  · exact .setSigsuspendSavedMaskFor p tid none
  · exact (setSigsuspendSavedMaskFor p tid none).trans (.setBlockedFor _ tid saved)

/-- So does installing one. -/
theorem installMask (tid : ℕ) (mask : UInt64) : p.SamePending (p.installMask tid mask) := by
  rw [ThreadedProcess.installMask]
  split
  · exact .refl p
  · exact (setSigsuspendSavedMaskFor p tid _).trans (.setBlockedFor _ tid _)

/-- So does sigprocmask. -/
theorem sysSigprocmask (tid : ℕ) (how : UInt32) (set : UInt64) :
    p.SamePending (p.sysSigprocmask tid how set).2 := by
  simp only [ThreadedProcess.sysSigprocmask]
  split
  · exact .refl p
  · exact .setBlockedFor p tid _

/-- So does sigsuspend. -/
theorem sysSigsuspend (tid : ℕ) (mask : UInt64) : p.SamePending (p.sysSigsuspend tid mask).2 := by
  simp only [ThreadedProcess.sysSigsuspend]
  split <;> exact .installMask p tid mask

/-- So does the end of a poll. -/
theorem afterPoll (tid : ℕ) (polled : Except Errno ℤ) :
    p.SamePending (p.afterPoll tid polled).2 := by
  unfold ThreadedProcess.afterPoll
  split
  · exact .refl p
  split
  · exact .restoreMask p tid
  · exact .refl p

/-- So does a poll under a mask. -/
theorem maskedPoll (tid : ℕ) (polled : Except Errno ℤ) (mask : Option UInt64) :
    p.SamePending (p.maskedPoll tid polled mask).2 := by
  rcases mask with _ | mask
  · exact .afterPoll p tid polled
  simp only [ThreadedProcess.maskedPoll]
  split
  · exact .installMask p tid mask
  · exact (installMask p tid mask).trans (.afterPoll _ tid polled)

/-- So does dropping the saved masks. -/
theorem dropSavedMasks : p.SamePending p.dropSavedMasks := by
  refine ⟨rfl, rfl, fun k => ?_, ?_, rfl, rfl⟩
  · cases k with
    | process => rfl
    | thread q =>
      have hmain : p.dropSavedMasks.isMainThread q = p.isMainThread q := rfl
      rw [pendingAt, worker, hmain, pendingAt, worker, getThread_dropSavedMasks]
      cases p.isMainThread q with
      | true => rfl
      | false => rcases p.getThread q with _ | t <;> rfl
  · rw [ThreadedProcess.dropSavedMasks, List.map_map]
    rfl

/-- So does sigaltstack. -/
theorem sysSigaltstack (sp size flags : UInt32) :
    p.SamePending (p.sysSigaltstack sp size flags).2 := by
  rw [ThreadedProcess.sysSigaltstack]
  split
  · exact .refl p
  · split <;> exact .altStack p _

/-- So does sigreturn. -/
theorem sysSigreturn : p.SamePending p.sysSigreturn := by
  rw [ThreadedProcess.sysSigreturn]
  split
  · exact .refl p
  · exact .altStack p _

/-- Starting a handler takes the signal; the rest is about masks and stacks. -/
theorem startHandler (tid signum : ℕ) (idx : UInt32) (action : SignalAction) :
    (p.dequeueSignalFor tid signum).2.SamePending (p.startHandler tid signum idx action).2 := by
  simp only [ThreadedProcess.startHandler]
  have hmasked := (restoreMask (p.dequeueSignalFor tid signum).2 tid).trans
    (.setBlockedFor _ tid
      ((((p.dequeueSignalFor tid signum).2.restoreMask tid).blockedFor tid ||| action.mask) |||
        sigBit signum))
  split
  · exact hmasked.trans (.altStack _ _)
  · exact hmasked

end SamePending

/-! ### The answer to the host -/

variable {tid : ℕ} {p : ThreadedProcess} {r : Option SignalDelivery × ThreadedProcess}

/-- How a dequeue ends once it has taken what nothing is to be done for: nothing is left, a handler
is started for the lowest signal, or that signal ends the process. -/
def DequeueEnds (tid : ℕ) (mid : ThreadedProcess) (r : Option SignalDelivery × ThreadedProcess) :
    Prop :=
  (r.1 = none ∧ r.2 = mid ∧ mid.deliverableFor tid = 0) ∨
    ∃ signum, inMask (mid.deliverableFor tid) signum = true ∧
      (∀ n < signum, inMask (mid.deliverableFor tid) n = false) ∧
      ((∃ idx, (mid.signals.getAction signum).handler = .Handler idx ∧
          r.1 = some (mid.startHandler tid signum idx (mid.signals.getAction signum)).1 ∧
          r.2 = (mid.startHandler tid signum idx (mid.signals.getAction signum)).2) ∨
        ((mid.signals.getAction signum).handler = .Default ∧
          (defaultAction signum).isFatal = true ∧ r.1 = none ∧
          r.2 = { (mid.dequeueSignalFor tid signum).2.dropSavedMasks with
            state := .Exited, exitStatus := 128 + signum }))

/-- **What the host can be told**: after taking signals that are ignored or do nothing, the
loop finds nothing more to deliver, or a signal with a handler, or one that ends the
process. -/
theorem dequeueLoop_eq_some {fuel : ℕ} (h : dequeueLoop tid fuel p = some r) :
    ∃ mid, Drains tid p mid ∧ DequeueEnds tid mid r := by
  induction fuel generalizing p with
  | zero => cases h
  | succ fuel ih =>
    simp only [dequeueLoop] at h
    by_cases hzero : p.deliverableFor tid = 0
    · rw [if_pos hzero] at h
      cases h
      exact ⟨p, .refl p, .inl ⟨rfl, rfl, hzero⟩⟩
    obtain ⟨hmem, hlow⟩ := lowestSignal_spec hzero
    have hvalid := validSignal_iff.mp (validSignal_of_inMask hmem)
    rw [if_neg hzero, if_neg (by simp only [NSIG]; omega)] at h
    rcases haction : (p.signals.getAction (lowestSignal (p.deliverableFor tid))).handler with
      _ | _ | idx
    · rw [haction] at h
      simp only at h
      split at h
      next hfatal =>
        cases h
        exact ⟨p, .refl p, .inr ⟨_, hmem, hlow, .inr ⟨haction, hfatal, rfl, rfl⟩⟩⟩
      next =>
        obtain ⟨mid, hdrains, hend⟩ := ih h
        exact ⟨mid, (Drains.take hmem hlow (by rw [isCaught, haction])).trans
          hdrains, hend⟩
    · rw [haction] at h
      obtain ⟨mid, hdrains, hend⟩ := ih h
      exact ⟨mid, (Drains.take hmem hlow (by rw [isCaught, haction])).trans
        hdrains, hend⟩
    rw [haction] at h
    cases h
    exact ⟨p, .refl p, .inr ⟨_, hmem, hlow, .inl ⟨idx, haction, rfl, rfl⟩⟩⟩

/-- **The host gets an answer**: the loop ends as soon as it may make more rounds than there
is to take. -/
theorem dequeueLoop_backlog (fuel : ℕ) (p : ThreadedProcess) (h : p.backlog tid < fuel) :
    dequeueLoop tid fuel p = some (kernelDequeueSignal tid p) := by
  have hends : ∀ (n m : ℕ) (p : ThreadedProcess), p.backlog tid < n → p.backlog tid < m →
      ∃ r, dequeueLoop tid n p = some r ∧ dequeueLoop tid m p = some r := by
    intro n
    induction n with
    | zero => exact fun m p hn _ => absurd hn (Nat.not_lt_zero _)
    | succ n ih =>
      intro m p hn hm
      obtain ⟨m, rfl⟩ : ∃ m', m = m' + 1 := ⟨m - 1, by omega⟩
      simp only [dequeueLoop]
      by_cases hzero : p.deliverableFor tid = 0
      · rw [if_pos hzero, if_pos hzero]
        exact ⟨_, rfl, rfl⟩
      have hless := backlog_dequeueSignalFor (lowestSignal_spec hzero).1
      rw [if_neg hzero, if_neg hzero]
      split
      · exact ⟨_, rfl, rfl⟩
      rcases (p.signals.getAction (lowestSignal (p.deliverableFor tid))).handler with
        _ | _ | idx
      · simp only
        split
        · exact ⟨_, rfl, rfl⟩
        · exact ih m _ (by omega) (by omega)
      · exact ih m _ (by omega) (by omega)
      · exact ⟨_, rfl, rfl⟩
  obtain ⟨r, hr, hr'⟩ := hends fuel (p.backlog tid + 1) p h (Nat.lt_succ_self _)
  rw [kernelDequeueSignal, hr', hr]
  rfl

/-- What the host is told, and what is left. -/
theorem kernelDequeueSignal_cases (tid : ℕ) (p : ThreadedProcess) :
    ∃ mid, Drains tid p mid ∧ DequeueEnds tid mid (kernelDequeueSignal tid p) :=
  dequeueLoop_eq_some (dequeueLoop_backlog (p.backlog tid + 1) p (Nat.lt_succ_self _))

/-! ### What a call does -/

/-- A thread's place is known. -/
theorem knows_homeOf (p : ThreadedProcess) (target : ℕ) : p.knows (p.homeOf target) = true := by
  rw [homeOf]
  rcases h : p.worker target with _ | t
  · rfl
  · rw [knows, h]
    rfl

/-- A new number is beyond those given. -/
theorem nextTid_le_allocTid (p : ThreadedProcess) : p.nextTid ≤ p.allocTid.1 := by
  simp only [allocTid]
  split
  · omega
  · exact le_rfl

/-- A signal received is raised for the process. -/
theorem receive_eq_raiseAt (p : ThreadedProcess) (sig : ℕ) (siValue siCode : ℤ) :
    p.receive sig siValue siCode = p.raiseAt .process sig siValue siCode := by
  rw [receive, raiseAt, setPendingAt, updSignals, updSignals, raiseInternal_eq]
  rfl

/-- What a call does before the signals are delivered at its end. -/
inductive SignalEffect (tid : ℕ) (p : ThreadedProcess) : ThreadedProcess → Prop
  | none : SignalEffect tid p p
  | raise {k : Target} (hk : p.knows k = true) (sig : ℕ) (siValue siCode : ℤ) :
      SignalEffect tid p (p.raiseAt k sig siValue siCode)
  | action (sig : ℕ) (action : SignalAction) :
      SignalEffect tid p (p.updSignals fun s => s.setAction sig action)
  | block (mask : UInt64) : SignalEffect tid p (p.setBlockedFor tid (mask &&& ~~~sigGuard))
  | install (mask : UInt64) : SignalEffect tid p (p.installMask tid mask)
  | poll (polled : Except Errno ℤ) (mask : Option UInt64) :
      SignalEffect tid p (p.maskedPoll tid polled mask).2
  | take (signum : ℕ) : SignalEffect tid p (p.dequeueSignalFor tid signum).2
  | clear (signum : ℕ) : SignalEffect tid p (p.updSignals fun s => s.clearPending signum)
  | altStack (a : AltStack) : SignalEffect tid p { p with altStack := a }

/-- **What a call does**: it has one of these effects, with or without a delivery after it, or it is
about a thread, or it takes a signal for the host. -/
theorem run_rule {P : ThreadedProcess → Prop} (op : SignalOp) (tid : ℕ) (p : ThreadedProcess)
    (heffect : ∀ q, SignalEffect tid p q → P q ∧ P (deliverPendingSignals tid q))
    (hjoin : ∀ t : ThreadInfo, t.signals = ⟨.empty, p.blockedFor tid, none⟩ → p.nextTid ≤ t.tid →
      P { p with nextTid := t.tid + 1, threads := p.threads ++ [t] })
    (hleave : P (p.removeThread tid))
    (hdequeue : op = .dequeue → P (kernelDequeueSignal tid p).2) : P (op.run tid p).2 := by
  cases op with
  | receive sig siValue siCode =>
    rw [SignalOp.run, receive_eq_raiseAt]
    exact (heffect _ (.raise (k := .process) rfl sig siValue siCode)).2
  | arrive sig siValue siCode =>
    rw [SignalOp.run, receive_eq_raiseAt]
    exact (heffect _ (.raise (k := .process) rfl sig siValue siCode)).1
  | tkill target =>
    refine (heffect _ ?_).2
    fun_cases sysTkill with
    | case1 | case2 => exact .none
    | _ => exact .raise (p.knows_homeOf target) _ _ _
  | sigaction sig =>
    simp only [SignalOp.run, sysSigaction_snd]
    exact (heffect _ (.action sig _)).2
  | signal sig handlerVal =>
    simp only [SignalOp.run, sysSignal_snd, updSignals, setHandler_eq]
    exact (heffect _ (.action sig _)).2
  | sigprocmask how set =>
    have hmask : SignalEffect tid p (p.sysSigprocmask tid how set).2 := by
      fun_cases sysSigprocmask with
      | case1 => exact .none
      | case2 => exact .block _
    rw [SignalOp.run]
    generalize p.sysSigprocmask tid how set = r at hmask ⊢
    rcases r with ⟨e | old, q⟩
    · exact (heffect q hmask).1
    · exact (heffect q hmask).2
  | sigsuspend mask =>
    refine (heffect _ ?_).2
    fun_cases sysSigsuspend <;> exact .install mask
  | pause =>
    refine (heffect _ ?_).2
    rw [sysPause]
    fun_cases sysSigsuspend <;> exact .install _
  | ppoll polled mask => exact (heffect _ (.poll polled mask)).2
  | pselect6 selected mask => exact (heffect _ (.poll selected mask)).2
  | sigtimedwait =>
    refine (heffect _ ?_).2
    fun_cases sysSigtimedwait with
    | case2 => exact .take _
    | _ => exact .none
  | readSignalfd =>
    refine (heffect _ ?_).2
    fun_cases readSignalfd with
    | case4 => exact .clear _
    | _ => exact .none
  | clone =>
    simp only [SignalOp.run]
    fun_cases sysClone with
    | case1 => exact (heffect p .none).1
    | case2 =>
      exact hjoin ⟨p.allocTid.1, ⟨.empty, p.blockedFor tid, none⟩⟩ rfl p.nextTid_le_allocTid
  | threadExit => exact hleave
  | sigaltstack sp size flags =>
    have hstack : SignalEffect tid p (p.sysSigaltstack sp size flags).2 := by
      fun_cases sysSigaltstack with
      | case1 => exact .none
      | _ => exact .altStack _
    rw [SignalOp.run]
    generalize p.sysSigaltstack sp size flags = r at hstack ⊢
    rcases r with ⟨e | u, q⟩
    · exact (heffect q hstack).1
    · exact (heffect q hstack).2
  | sigreturn =>
    refine (heffect p.sysSigreturn ?_).1
    rw [sysSigreturn]
    split
    · exact .none
    · exact .altStack _
  | dequeue => exact hdequeue rfl
  | other => exact (heffect p .none).2

end ThreadedProcess

end PosixKernel
