import PosixKernel.Shared

/-!
# Signal State

Dispositions, masks and pending signals of a process (`signal.rs`). Standard signals are
pending as a bit; a real-time signal also queues one entry for each time it is sent.
-/

namespace PosixKernel

/-- What happens when a signal arrives. -/
inductive SignalHandler
  | Default
  | Ignore
  | Handler (ptr : UInt32)
  deriving DecidableEq

/-- The disposition of a signal with its flags and the mask in force while it runs. -/
structure SignalAction where
  handler : SignalHandler
  flags : UInt32
  mask : UInt64
  deriving DecidableEq

/-- The disposition every signal starts with. -/
def SignalAction.default : SignalAction := ⟨.Default, 0, 0⟩

/-- A queued signal instance with its value. -/
structure RtSigEntry where
  signum : ℕ
  siValue : ℤ
  siCode : ℤ
  deriving DecidableEq

/-- The mask bit of a signal; zero for numbers that are no signal. -/
def sigBit (signum : ℕ) : UInt64 :=
  if signum = 0 ∨ 65 ≤ signum then 0 else 1 <<< UInt64.ofNat (signum - 1)

/-- The process-wide signal state; `actions` is read at the numbers 1 to 64 only. -/
structure SignalState where
  actions : ℕ → SignalAction
  blocked : UInt64
  pending : UInt64
  rtQueue : List RtSigEntry

/-- Whether a number is a signal number. -/
def validSignal (signum : ℕ) : Bool := 1 ≤ signum && signum < NSIG

theorem validSignal_iff {signum : ℕ} : validSignal signum = true ↔ 1 ≤ signum ∧ signum ≤ 64 := by
  rw [validSignal, Bool.and_eq_true, decide_eq_true_iff, decide_eq_true_iff]
  exact and_congr_right fun _ => Nat.lt_succ_iff

namespace SignalState

def new : SignalState := ⟨fun _ => .default, 0, 0, []⟩

def getAction (s : SignalState) (signum : ℕ) : SignalAction :=
  if validSignal signum then s.actions signum else .default

def getHandler (s : SignalState) (signum : ℕ) : SignalHandler :=
  if validSignal signum then (s.actions signum).handler else .Default

/-- Store the value of a standard signal, of which one instance is kept. -/
def coalesce (e : RtSigEntry) : List RtSigEntry → List RtSigEntry
  | [] => [e]
  | f :: queue => if f.signum = e.signum then e :: queue else f :: coalesce e queue

/-- Make a signal pending: a real-time signal queues an instance, a standard signal keeps
the value of `sigqueue` only. -/
def raiseInternal (s : SignalState) (signum : ℕ) (siValue siCode : ℤ) : SignalState :=
  if !validSignal signum then s
  else
    { s with
      pending := s.pending ||| sigBit signum
      rtQueue :=
        if SIGRTMIN ≤ signum then s.rtQueue ++ [⟨signum, siValue, siCode⟩]
        else if siCode ≠ 0 then coalesce ⟨signum, siValue, siCode⟩ s.rtQueue
        else s.rtQueue }

/-- `kill`. -/
def raise (s : SignalState) (signum : ℕ) : SignalState := s.raiseInternal signum 0 0

/-- `sigqueue`. -/
def raiseWithValue (s : SignalState) (signum : ℕ) (siValue : ℤ) : SignalState :=
  s.raiseInternal signum siValue (-1)

/-- Forget every pending instance of a signal. -/
def clearPending (s : SignalState) (signum : ℕ) : SignalState :=
  if validSignal signum then
    { s with
      pending := s.pending &&& ~~~ sigBit signum
      rtQueue := s.rtQueue.filter fun e => e.signum ≠ signum }
  else s

/-- Signals whose default action is to be ignored: `SIGCHLD` and `SIGWINCH`. -/
def defaultIgnored (signum : ℕ) : Bool := signum = 17 || signum = 28

/-- Whether installing a handler discards the pending instances of the signal. -/
def shouldDiscardPending (signum : ℕ) : SignalHandler → Bool
  | .Ignore => true
  | .Default => defaultIgnored signum
  | .Handler _ => false

/-- Install a handler; the two signals that cannot be caught refuse it. -/
def setHandler (s : SignalState) (signum : ℕ) (h : SignalHandler) : SignalState :=
  if !validSignal signum || signum = SIGKILL || signum = SIGSTOP then s
  else
    let s := { s with
      actions := Function.update s.actions signum { s.actions signum with handler := h } }
    if shouldDiscardPending signum h then s.clearPending signum else s

/-- The state of a forked child: no signal is pending in it. -/
def fromActions (actions : ℕ → SignalAction) (blocked : UInt64) : SignalState :=
  ⟨actions, blocked, 0, []⟩

/-- The queue rebuilt from a pending mask: one plain instance per real-time signal. -/
def rtQueueOfPending (pending : UInt64) : List RtSigEntry :=
  ((List.range NSIG).filter fun sig =>
    SIGRTMIN ≤ sig && (pending &&& sigBit sig != 0)).map fun sig => ⟨sig, 0, 0⟩

/-- The state after exec, rebuilt from handlers and the pending mask. -/
def fromPartsWithPending (handlers : ℕ → SignalHandler) (blocked pending : UInt64) :
    SignalState :=
  ⟨fun i => ⟨handlers i, 0, 0⟩, blocked, pending, rtQueueOfPending pending⟩

end SignalState

end PosixKernel
