import PosixKernel.Lib.BitSet
import PosixKernel.Signal

/-!
# Signal Masks and Pending Signals

Masks as sets of signals, what a signal does by default, and the signals pending in one
place, which the process and each of its threads has (`signal.rs`). A standard signal is
pending once; a real-time signal once for each time it was sent, and the oldest instance is
taken first.

## Main results

* `lowestSignal_spec` — the signal that is taken first;
* `PendingSignals.has_raiseInternal`, `PendingSignals.has_consumeOne` — what is pending
  after a signal is sent and after one is taken;
* `PendingSignals.queued_consumeOne`, `PendingSignals.fst_consumeOne` — the oldest instance
  is taken;
* `PendingSignals.size_consumeOne_lt` — taking a pending signal makes progress.
-/

namespace PosixKernel

open BitSet

/-! ### Signal sets -/

/-- Whether a mask holds a signal. -/
def inMask (mask : UInt64) (signum : ℕ) : Bool := mask &&& sigBit signum != 0

section Masks

variable {mask : UInt64} {signum : ℕ}

/-- A number that is no signal's has no bit. -/
theorem sigBit_of_not_valid (h : validSignal signum = false) : sigBit signum = 0 := by
  rw [sigBit, if_pos]
  by_contra hnot
  have hvalid : validSignal signum = true := validSignal_iff.mpr (by omega)
  rw [h] at hvalid
  cases hvalid

/-- The bit of a signal. -/
theorem mem_sigBit (h : validSignal signum = true) (i : ℕ) :
    mem (sigBit signum) i = decide (i = signum - 1) := by
  obtain ⟨hpos, hle⟩ := validSignal_iff.mp h
  rw [sigBit, if_neg (by omega)]
  exact mem_one_shiftLeft (by omega) i

/-- A mask holds a signal when the bit of the signal is set. -/
theorem inMask_eq (mask : UInt64) (signum : ℕ) :
    inMask mask signum = (validSignal signum && mem mask (signum - 1)) := by
  cases h : validSignal signum with
  | false =>
    rw [inMask, sigBit_of_not_valid h, UInt64.and_zero]
    rfl
  | true =>
    rw [Bool.true_and, inMask, Bool.eq_iff_iff, bne_iff_ne, Ne, eq_zero_iff, not_forall]
    constructor
    · rintro ⟨i, hi⟩
      rw [mem_and, mem_sigBit h] at hi
      by_cases heq : i = signum - 1
      · rw [heq] at hi
        simpa using hi
      · simp [heq] at hi
    intro hmem
    refine ⟨signum - 1, ?_⟩
    rw [mem_and, mem_sigBit h, hmem]
    simp

/-- Only signals are in masks. -/
theorem validSignal_of_inMask (h : inMask mask signum = true) : validSignal signum = true := by
  rw [inMask_eq, Bool.and_eq_true] at h
  exact h.1

/-- The empty mask. -/
@[simp] theorem inMask_zero (signum : ℕ) : inMask 0 signum = false := by
  rw [inMask, UInt64.zero_and]
  rfl

/-- The intersection of masks. -/
@[simp] theorem inMask_and (a b : UInt64) (signum : ℕ) :
    inMask (a &&& b) signum = (inMask a signum && inMask b signum) := by
  simp only [inMask_eq, mem_and]
  cases validSignal signum <;> rfl

/-- The union of masks. -/
@[simp] theorem inMask_or (a b : UInt64) (signum : ℕ) :
    inMask (a ||| b) signum = (inMask a signum || inMask b signum) := by
  simp only [inMask_eq, mem_or]
  cases validSignal signum <;> rfl

/-- The complement of a mask, among the signals. -/
@[simp] theorem inMask_not (a : UInt64) (signum : ℕ) :
    inMask (~~~a) signum = (validSignal signum && !inMask a signum) := by
  cases h : validSignal signum with
  | false => simp [inMask_eq, h]
  | true =>
    have hlt : signum - 1 < 64 := by
      have := validSignal_iff.mp h
      omega
    simp [inMask_eq, h, mem_not, hlt]

/-- The difference of masks. -/
theorem inMask_and_not (a b : UInt64) (signum : ℕ) :
    inMask (a &&& ~~~b) signum = (inMask a signum && !inMask b signum) := by
  rw [inMask_and, inMask_not]
  cases h : inMask a signum with
  | false => rfl
  | true => rw [validSignal_of_inMask h, Bool.true_and]

/-- The mask of one signal. -/
@[simp] theorem inMask_sigBit (signum n : ℕ) :
    inMask (sigBit n) signum = (validSignal n && decide (signum = n)) := by
  cases hn : validSignal n with
  | false =>
    rw [sigBit_of_not_valid hn, inMask_zero, Bool.false_and]
  | true =>
    rw [inMask_eq, mem_sigBit hn, Bool.true_and]
    obtain ⟨hpos, hle⟩ := validSignal_iff.mp hn
    by_cases heq : signum = n
    · simp [heq, hn]
    cases hs : validSignal signum with
    | false => simp [heq]
    | true =>
      have := validSignal_iff.mp hs
      simp only [Bool.true_and, heq, decide_false, decide_eq_false_iff_not]
      omega

/-- A mask is empty when no signal is in it. -/
theorem mask_eq_zero_iff : mask = 0 ↔ ∀ signum, inMask mask signum = false := by
  refine ⟨fun h signum => by rw [h, inMask_zero], fun h => eq_zero_iff.mpr fun i => ?_⟩
  by_contra hi
  rw [Bool.not_eq_false] at hi
  have hlt := lt_of_mem hi
  have hvalid : validSignal (i + 1) = true := validSignal_iff.mpr ⟨by omega, by omega⟩
  have hmem := h (i + 1)
  rw [inMask_eq, Nat.add_sub_cancel, hi, hvalid] at hmem
  cases hmem

/-- The lowest signal of a mask that is not empty. -/
def lowestSignal (mask : UInt64) : ℕ := trailingZeros mask + 1

/-- The lowest signal is in the mask, and none below it. -/
theorem lowestSignal_spec (h : mask ≠ 0) : inMask mask (lowestSignal mask) = true ∧
      ∀ n < lowestSignal mask, inMask mask n = false := by
  obtain ⟨hmem, hlow⟩ := trailingZeros_spec h
  have hlt := lt_of_mem hmem
  constructor
  · rw [inMask_eq, lowestSignal, Nat.add_sub_cancel, hmem, Bool.and_true]
    exact validSignal_iff.mpr ⟨by omega, by omega⟩
  intro n hn
  rw [inMask_eq, Bool.and_eq_false_imp]
  intro hvalid
  have := validSignal_iff.mp hvalid
  rw [lowestSignal] at hn
  exact hlow _ (by omega)

/-- And it is the only one of that kind. -/
theorem eq_lowestSignal (hmem : inMask mask signum = true)
    (hlow : ∀ n < signum, inMask mask n = false) : signum = lowestSignal mask := by
  have hne : mask ≠ 0 := by
    rintro rfl
    rw [inMask_zero] at hmem
    cases hmem
  obtain ⟨hmem', hlow'⟩ := lowestSignal_spec hne
  rcases Nat.lt_trichotomy signum (lowestSignal mask) with hlt | heq | hgt
  · rw [hlow' signum hlt] at hmem
    cases hmem
  · exact heq
  · rw [hlow _ hgt] at hmem'
    cases hmem'

end Masks

/-! ### Default actions -/

/-- What a signal does that is not caught and not ignored. -/
inductive DefaultAction
  | Terminate
  | Ignore
  | CoreDump
  | Stop
  | Continue
  deriving DecidableEq

/-- The default action of a signal. -/
def defaultAction (signum : ℕ) : DefaultAction :=
  if signum = SIGCHLD ∨ signum = SIGWINCH then .Ignore
  else if signum = SIGCONT then .Continue
  else if signum = SIGSTOP ∨ signum = SIGTSTP then .Stop
  else .Terminate

/-- Whether the default action of a signal ends the process. -/
def DefaultAction.isFatal : DefaultAction → Bool
  | .Terminate => true
  | .CoreDump => true
  | _ => false

/-! ### Pending signals -/

/-- The signals pending in one place: a bit for each, and the queued instances. -/
structure PendingSignals where
  pending : UInt64
  rtQueue : List RtSigEntry
  deriving DecidableEq

namespace PendingSignals

/-- Nothing is pending. -/
def empty : PendingSignals := ⟨0, []⟩

/-- Whether a signal is pending. -/
def has (w : PendingSignals) (signum : ℕ) : Bool := inMask w.pending signum

/-- The queued instances of a signal. -/
def queued (w : PendingSignals) (signum : ℕ) : List RtSigEntry :=
  w.rtQueue.filter fun e => e.signum = signum

/-- Make a signal pending: a real-time signal queues an instance, a standard signal keeps
the value of `sigqueue` only. -/
def raiseInternal (w : PendingSignals) (signum : ℕ) (siValue siCode : ℤ) : PendingSignals :=
  if !validSignal signum then w
  else
    { pending := w.pending ||| sigBit signum
      rtQueue :=
        if SIGRTMIN ≤ signum then w.rtQueue ++ [⟨signum, siValue, siCode⟩]
        else if siCode ≠ 0 then SignalState.coalesce ⟨signum, siValue, siCode⟩ w.rtQueue
        else w.rtQueue }

/-- Take one instance of a signal, whether it is blocked or not. The bit of a real-time
signal stays while instances are queued. Returns the value and the code of the instance. -/
def consumeOne (w : PendingSignals) (signum : ℕ) : (ℤ × ℤ) × PendingSignals :=
  if !validSignal signum then ((0, 0), w)
  else
    let queue := w.rtQueue.eraseP fun e => e.signum = signum
    (match w.rtQueue.find? fun e => e.signum = signum with
      | some e => (e.siValue, e.siCode)
      | none => (0, 0),
    { pending :=
        if SIGRTMIN ≤ signum ∧ (queue.any fun e => e.signum = signum) then w.pending
        else w.pending &&& ~~~ sigBit signum
      rtQueue := queue })

/-- Forget every pending instance of a signal. -/
def clearPending (w : PendingSignals) (signum : ℕ) : PendingSignals :=
  if validSignal signum then
    { pending := w.pending &&& ~~~ sigBit signum
      rtQueue := w.rtQueue.filter fun e => e.signum ≠ signum }
  else w

/-- How much there is to take. -/
def size (w : PendingSignals) : ℕ := card w.pending + w.rtQueue.length

variable {w : PendingSignals} {signum n : ℕ} {siValue siCode : ℤ}

/-- Nothing is pending at first. -/
@[simp] theorem has_empty (n : ℕ) : empty.has n = false := inMask_zero n

/-- Nor queued. -/
@[simp] theorem queued_empty (n : ℕ) : empty.queued n = [] := rfl

/-- What is pending after a signal was raised. -/
theorem has_raiseInternal (w : PendingSignals) (signum n : ℕ) (siValue siCode : ℤ) :
    (w.raiseInternal signum siValue siCode).has n =
      (w.has n || (validSignal signum && decide (n = signum))) := by
  rw [raiseInternal]
  cases h : validSignal signum with
  | false => simp
  | true => simp [has, h]

/-- Storing the value of one signal does not change what is queued of another. -/
theorem filter_coalesce (e : RtSigEntry) (queue : List RtSigEntry) (hn : n ≠ e.signum) :
    (SignalState.coalesce e queue).filter (fun f => f.signum = n) =
      queue.filter fun f => f.signum = n := by
  induction queue with
  | nil => simp [SignalState.coalesce, hn.symm]
  | cons f queue ih =>
    rw [SignalState.coalesce]
    split
    next hf => simp [hf, hn.symm]
    next hf => rw [List.filter_cons, List.filter_cons, ih]

/-- What is queued after a signal is sent: one more instance, if the signal is a real-time
one. -/
theorem queued_raiseInternal (hn : SIGRTMIN ≤ n) :
    (w.raiseInternal signum siValue siCode).queued n =
      w.queued n ++ if validSignal signum ∧ n = signum then [⟨signum, siValue, siCode⟩]
        else [] := by
  rw [raiseInternal]
  cases h : validSignal signum with
  | false => simp
  | true =>
    simp only [Bool.not_true, Bool.false_eq_true, if_false, queued, true_and]
    by_cases heq : n = signum
    · subst heq
      simp [hn]
    rw [if_neg heq, List.append_nil]
    split
    · simp [Ne.symm heq]
    split
    · exact filter_coalesce _ _ heq
    · rfl

/-- Taking an instance leaves those of the other signals. -/
theorem eraseP_filter_ne {queue : List RtSigEntry} (hn : n ≠ signum) :
    (queue.eraseP fun e => e.signum = signum).filter (fun e => e.signum = n) =
      queue.filter fun e => e.signum = n := by
  induction queue with
  | nil => rfl
  | cons e queue ih =>
    by_cases he : e.signum = signum
    · have hen : e.signum ≠ n := fun h => hn (h.symm.trans he)
      simp [he, hn.symm]
    · rw [List.eraseP_cons_of_neg (by simpa using he), List.filter_cons, List.filter_cons, ih]

/-- Of its own it takes the first. -/
theorem eraseP_filter_self (queue : List RtSigEntry) :
    (queue.eraseP fun e => e.signum = signum).filter (fun e => e.signum = signum) =
      (queue.filter fun e => e.signum = signum).tail := by
  induction queue with
  | nil => rfl
  | cons e queue ih =>
    by_cases he : e.signum = signum
    · simp [he]
    · rw [List.eraseP_cons_of_neg (by simpa using he), List.filter_cons_of_neg (by simpa using he),
        List.filter_cons_of_neg (by simpa using he), ih]

/-- What is queued after an instance was taken. -/
theorem queued_consumeOne (w : PendingSignals) (signum n : ℕ) (h : validSignal signum = true) :
    (w.consumeOne signum).2.queued n =
      if n = signum then (w.queued signum).tail else w.queued n := by
  simp only [consumeOne, h, Bool.not_true, Bool.false_eq_true, if_false, queued]
  split
  next heq =>
    subst heq
    exact eraseP_filter_self _
  next hne => exact eraseP_filter_ne hne

/-- What is taken is the oldest instance; a standard signal may have none queued. -/
theorem fst_consumeOne (w : PendingSignals) (signum : ℕ) (h : validSignal signum = true) :
    (w.consumeOne signum).1 =
      match (w.queued signum).head? with
      | some e => (e.siValue, e.siCode)
      | none => (0, 0) := by
  simp [consumeOne, h, queued, List.head?_filter]

/-- What is pending after one instance is taken: a real-time signal of which more instances
are queued stays. -/
theorem has_consumeOne (w : PendingSignals) (signum n : ℕ) (h : validSignal signum = true) :
    (w.consumeOne signum).2.has n =
      (w.has n && (n ≠ signum || (SIGRTMIN ≤ signum && (w.queued signum).tail ≠ []))) := by
  have hany : ((w.rtQueue.eraseP fun e => e.signum = signum).any fun e => e.signum = signum) =
      decide ((w.queued signum).tail ≠ []) := by
    rw [queued, ← eraseP_filter_self, Bool.eq_iff_iff, List.any_eq_true, decide_eq_true_iff,
      Ne, List.filter_eq_nil_iff]
    simp only [not_forall, not_not, exists_prop]
  simp only [consumeOne, h, Bool.not_true, Bool.false_eq_true, if_false, has, hany,
    decide_eq_true_eq]
  split
  next hmore => simp [hmore.1, hmore.2]
  next hlast =>
    have hgone : (decide (SIGRTMIN ≤ signum) && decide ((w.queued signum).tail ≠ [])) = false := by
      rwa [← Bool.not_eq_true, Bool.and_eq_true, decide_eq_true_iff, decide_eq_true_iff]
    rw [hgone, Bool.or_false, inMask_and_not, inMask_sigBit, h, Bool.true_and, decide_not]

/-- Taking a pending signal makes progress. -/
theorem size_consumeOne_lt (h : w.has signum = true) : (w.consumeOne signum).2.size < w.size := by
  have hvalid := validSignal_of_inMask h
  have hlen : (w.consumeOne signum).2.rtQueue.length ≤ w.rtQueue.length := by
    simp only [consumeOne, hvalid, Bool.not_true, Bool.false_eq_true, if_false]
    exact List.length_eraseP_le
  by_cases hmore : SIGRTMIN ≤ signum ∧
      ((w.rtQueue.eraseP fun e => e.signum = signum).any fun e => e.signum = signum) = true
  · -- an instance is left, so one was there to be removed
    obtain ⟨e, he, hsig⟩ := List.any_eq_true.mp hmore.2
    have hmem : e ∈ w.rtQueue := List.mem_of_mem_eraseP he
    have hlt := List.length_eraseP_of_mem (p := fun e : RtSigEntry => e.signum = signum) hmem hsig
    have hpos := List.length_pos_of_mem hmem
    simp only [size, consumeOne, hvalid, Bool.not_true, Bool.false_eq_true, if_false, if_pos hmore]
    omega
  have hcard : card (w.pending &&& ~~~ sigBit signum) < card w.pending := by
    have hmem := h
    rw [has, inMask_eq, hvalid, Bool.true_and] at hmem
    refine card_lt_card (i := signum - 1) (fun i hi => ?_) hmem ?_
    · rw [mem_and, Bool.and_eq_true] at hi
      exact hi.1
    · rw [mem_and, mem_not, mem_sigBit hvalid]
      simp
  have hpending : (w.consumeOne signum).2.pending = w.pending &&& ~~~ sigBit signum := by
    simp only [consumeOne, hvalid, Bool.not_true, Bool.false_eq_true, if_false, if_neg hmore]
  rw [size, size, hpending]
  omega

/-- What is pending after a signal was cleared. -/
theorem has_clearPending (w : PendingSignals) (signum n : ℕ) (h : validSignal signum = true) :
    (w.clearPending signum).has n = (w.has n && decide (n ≠ signum)) := by
  rw [clearPending, if_pos h, has, inMask_and_not, inMask_sigBit, h, Bool.true_and, has,
    decide_not]

/-- What is queued after a signal was cleared. -/
theorem queued_clearPending (w : PendingSignals) (signum n : ℕ) (h : validSignal signum = true) :
    (w.clearPending signum).queued n = if n = signum then [] else w.queued n := by
  rw [clearPending, if_pos h, queued, List.filter_filter]
  split
  next heq =>
    subst heq
    rw [List.filter_eq_nil_iff]
    intro e _
    simp
  next hne =>
    refine List.filter_congr fun e _ => ?_
    by_cases he : e.signum = n
    · simp [he, hne]
    · simp [he]

end PendingSignals

/-! ### The signals of a process -/

namespace SignalState

/-- The signals pending for the whole process. -/
def shared (s : SignalState) : PendingSignals := ⟨s.pending, s.rtQueue⟩

/-- Replace the signals pending for the whole process. -/
def withShared (s : SignalState) (w : PendingSignals) : SignalState :=
  { s with pending := w.pending, rtQueue := w.rtQueue }

/-- Raising only touches the pending signals. -/
theorem raiseInternal_eq (s : SignalState) (signum : ℕ) (siValue siCode : ℤ) :
    s.raiseInternal signum siValue siCode =
      s.withShared (s.shared.raiseInternal signum siValue siCode) := by
  rw [raiseInternal, PendingSignals.raiseInternal]
  cases validSignal signum <;> rfl

/-- So does clearing. -/
theorem clearPending_eq (s : SignalState) (signum : ℕ) :
    s.clearPending signum = s.withShared (s.shared.clearPending signum) := by
  rw [clearPending, PendingSignals.clearPending]
  cases validSignal signum <;> rfl

end SignalState

end PosixKernel
