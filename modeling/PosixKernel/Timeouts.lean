import Mathlib.Data.Int.Order.Basic
import Mathlib.Data.List.TakeDrop

/-!
# Waits With a Timeout

A call that waits for descriptors is attempted again and again: by the timer that the host sets when
an attempt finds nothing, and by wake-ups, which are for everybody who waits. Every attempt starts
the timeout anew. Only the timer looks at the deadline, which is that of the attempt before; and
`epoll_pwait` has none.

## Main results

* `TimedCall.run_of_open` — what a call that is open knows;
* `TimedCall.onTime_iff` — the attempts that complete a call after its timeout;
* `TimedCall.poll_outlasts_timeout` — a call that goes on.
-/

namespace PosixKernel

/-- The calls, with the number of descriptors, whether there are sets of them, and the timeout. -/
inductive TimedCall
  | poll (nfds : ℕ) (timeout : ℤ)
  | ppoll (nfds : ℕ) (ts : Option (ℤ × ℤ))
  | select (nfds : ℕ) (sets : Bool) (tv : Option (ℤ × ℤ))
  | pselect6 (nfds : ℕ) (ts : Option (ℤ × ℤ))
  | epollPwait (timeout : ℤ)

/-- An attempt: its time, whether the timer or a wake-up makes it, and what it finds to report. -/
structure Attempt where
  now : ℕ
  byTimer : Bool
  found : Option ℤ

/-- Where a call stands. -/
inductive TimedState
  | fresh
  | waiting (deadline : ℤ)
  | done (reply : ℤ)
  deriving DecidableEq

def TimedState.isDone : TimedState → Bool
  | .done _ => true
  | _ => false

namespace TimedCall

/-- The timeout in milliseconds; a negative one is for ever. -/
def timeoutMs : TimedCall → ℤ
  | .poll _ timeout | .epollPwait timeout => timeout
  | .ppoll _ none | .pselect6 _ none | .select _ _ none => -1
  | .ppoll _ (some (sec, nsec)) | .pselect6 _ (some (sec, nsec)) => sec * 1000 + nsec / 1000000
  | .select _ _ (some (sec, usec)) => max 0 (sec * 1000 + usec / 1000)

/-- A `select` that only sleeps does not ask the kernel. -/
def onlySleeps : TimedCall → Bool
  | .select nfds sets _ => nfds = 0 && !sets
  | _ => false

/-- Whether the timer is that of the timeout: where there are no descriptors. -/
def sleepsTimeout (call : TimedCall) : Bool :=
  0 < call.timeoutMs &&
    match call with
    | .poll nfds _ | .ppoll nfds _ | .pselect6 nfds _ => nfds = 0
    | .select .. => call.onlySleeps
    | .epollPwait _ => false

/-- `handleEpollPwait` keeps no deadline. -/
def keepsDeadline : TimedCall → Bool
  | .epollPwait _ => false
  | _ => true

/-- The deadline that an attempt leaves. -/
def deadline (call : TimedCall) (now : ℕ) : ℤ :=
  if call.keepsDeadline = true ∧ 0 < call.timeoutMs then now + call.timeoutMs else -1

/-- `handleBlockingRetry`, `handleSelect`, `handlePselect6` and `handleEpollPwait`: an attempt that
finds nothing waits, unless there is no time to wait. -/
def handle (call : TimedCall) (a : Attempt) : TimedState :=
  match if call.onlySleeps then none else a.found with
  | some reply => .done reply
  | none => if call.timeoutMs = 0 then .done 0 else .waiting (call.deadline a.now)

/-- What the timer does. -/
def retryFn (call : TimedCall) (deadline : ℤ) (a : Attempt) : TimedState :=
  if call.sleepsTimeout then .done 0
  else if 0 < deadline ∧ deadline ≤ a.now then .done 0
  else call.handle a

/-- The timer goes off, or a wake-up makes the call again. -/
def next (call : TimedCall) : TimedState → Attempt → TimedState
  | .fresh, a => call.handle a
  | .waiting deadline, a => if a.byTimer then call.retryFn deadline a else call.handle a
  | .done reply, _ => .done reply

def run (call : TimedCall) (attempts : List Attempt) : TimedState :=
  attempts.foldl call.next .fresh

/-! ### The attempts that complete a call -/

/-- There is no time to wait, or something to report. -/
def Answers (call : TimedCall) (a : Attempt) : Prop :=
  call.timeoutMs = 0 ∨ call.onlySleeps = false ∧ a.found ≠ none

/-- An attempt of the timer, when the timeout has passed since the attempt before. -/
def TimesOut (call : TimedCall) (last : Option Attempt) (a : Attempt) : Prop :=
  a.byTimer = true ∧ ∃ x ∈ last, call.sleepsTimeout = true ∨
    (call.keepsDeadline = true ∧ 0 < call.timeoutMs) ∧ x.now + call.timeoutMs ≤ a.now

variable {call : TimedCall} {a : Attempt}

theorem handle_isDone_iff : (call.handle a).isDone = true ↔ call.Answers a := by
  rw [handle, Answers]
  cases call.onlySleeps with
  | true => by_cases hzero : call.timeoutMs = 0 <;> simp [hzero, TimedState.isDone]
  | false =>
    rcases a.found with _ | reply
    · by_cases hzero : call.timeoutMs = 0 <;> simp [hzero, TimedState.isDone]
    · simp [TimedState.isDone]

theorem handle_of_open (h : (call.handle a).isDone = false) :
    call.handle a = .waiting (call.deadline a.now) := by
  rw [handle] at h ⊢
  split
  next hfound =>
    rw [hfound] at h
    cases h
  next hfound =>
    rw [hfound] at h
    exact if_neg fun hzero => by simp [hzero, TimedState.isDone] at h

theorem run_concat (call : TimedCall) (attempts : List Attempt) (a : Attempt) :
    call.run (attempts ++ [a]) = call.next (call.run attempts) a := by
  rw [run, List.foldl_append]
  rfl

/-- **What an open call knows**: the deadline of its last attempt. -/
theorem run_of_open {attempts : List Attempt} (h : (call.run attempts).isDone = false) :
    call.run attempts =
      (attempts.getLast?.map fun x => .waiting (call.deadline x.now)).getD .fresh := by
  rcases attempts.eq_nil_or_concat with rfl | ⟨before, x, rfl⟩
  · rfl
  rw [List.concat_eq_append, run_concat] at h ⊢
  rw [List.getLast?_concat]
  rcases hrun : call.run before with _ | deadline | reply
  · rw [hrun] at h
    exact handle_of_open h
  · rw [hrun] at h
    simp only [next, retryFn] at h ⊢
    split at h
    next htimer =>
      rw [if_pos htimer]
      split at h
      · cases h
      next hsleeps =>
        rw [if_neg hsleeps]
        split at h
        · cases h
        next hearly =>
          rw [if_neg hearly]
          exact handle_of_open h
    next hwoken =>
      rw [if_neg hwoken]
      exact handle_of_open h
  · rw [hrun] at h
    cases h

/-- **Calls that end in time.** An attempt at or after the end of the timeout completes an open call
exactly if it finds something to report, or is the timer's and the timeout has passed since the
attempt before it: that it has passed since the start does not matter. -/
theorem onTime_iff (call : TimedCall) (start : ℕ) (attempts : List Attempt) (a : Attempt)
    (hopen : (call.run attempts).isDone = false) :
    (start + call.timeoutMs ≤ a.now → (call.run (attempts ++ [a])).isDone = true) ↔
      (start + call.timeoutMs ≤ a.now → call.Answers a ∨ call.TimesOut attempts.getLast? a) := by
  refine imp_congr_right fun _ => ?_
  rw [run_concat, run_of_open hopen, TimesOut]
  rcases attempts.getLast? with _ | x
  · simpa [next] using handle_isDone_iff
  simp only [Option.map_some, Option.getD_some, next, retryFn, Option.mem_some_iff,
    exists_eq_left']
  cases a.byTimer with
  | false => simpa using handle_isDone_iff
  | true =>
    cases call.sleepsTimeout with
    | true => simp [TimedState.isDone]
    | false =>
      simp only [Bool.false_eq_true, if_false, false_or, deadline]
      by_cases hkeeps : call.keepsDeadline = true ∧ 0 < call.timeoutMs
      · have hpos : 0 < (x.now : ℤ) + call.timeoutMs := by omega
        simp only [hkeeps, hpos, if_true, true_and, and_self]
        split
        next hlate => simp [TimedState.isDone, hlate]
        next hearly => simpa [hearly] using handle_isDone_iff
      · simpa [hkeeps] using handle_isDone_iff

/-- A timer that is late by the timeout completes the call. -/
theorem onTime_late_timer : ((poll 1 30).run [⟨0, false, none⟩, ⟨50, true, none⟩]).isDone = true :=
  (onTime_iff (poll 1 30) 0 [⟨0, false, none⟩] ⟨50, true, none⟩ (by decide)).mpr
    (fun _ => .inr ⟨rfl, _, rfl, by decide⟩) (by decide)

/-- **A call that goes on**: a `poll` of one descriptor for 30 ms, which the timer makes again every
10 ms, then waits for 30 ms more. -/
theorem poll_outlasts_timeout :
    (poll 1 30).run [⟨0, false, none⟩, ⟨10, true, none⟩, ⟨20, true, none⟩, ⟨30, true, none⟩] =
      .waiting 60 := by
  decide

end TimedCall

end PosixKernel
