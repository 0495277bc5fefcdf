import PosixKernel.Lib.ByteCodec
import PosixKernel.Lib.Runs
import PosixKernel.Process

/-!
# Event Counters

Reading and writing an event counter (the eventfd branches of `sys_read` and `sys_write`) in
centralized mode, where a call that would have to wait is refused. A ledger beside the counter adds
up what the accepted writes brought and what the reads took.

## Main results

* `EventfdLedger.conserves` — over every history the counter is what came in less what was taken,
  stays below `u64::MAX`, and refuses exactly the writes that would lead there.
-/

namespace PosixKernel

open ByteCodec (leBytes leNat)

def U64_MAX : UInt64 := 0xffffffffffffffff

namespace EventFdState

variable (e : EventFdState)

/-- The eventfd branch of `sys_read`: the whole counter, or one unit of it in semaphore mode. -/
def read (len : ℕ) : Except Errno Bytes × EventFdState :=
  if len < 8 then (.error .EINVAL, e)
  else if e.counter = 0 then (.error .EAGAIN, e)
  else if e.semaphore then (.ok (leBytes 8 1), { e with counter := e.counter - 1 })
  else (.ok (leBytes 8 e.counter.toNat), { e with counter := 0 })

/-- The value that a write adds. -/
def written (buf : Bytes) : UInt64 := .ofNat (leNat (buf.take 8))

/-- The eventfd branch of `sys_write`. -/
def write (buf : Bytes) : Except Errno ℕ × EventFdState :=
  if buf.length < 8 then (.error .EINVAL, e)
  else if written buf = U64_MAX then (.error .EINVAL, e)
  else if U64_MAX - 1 - written buf < e.counter then (.error .EAGAIN, e)
  else (.ok 8, { e with counter := e.counter + written buf })

variable {e}

theorem toNat_written (buf : Bytes) : (written buf).toNat = leNat (buf.take 8) := by
  refine UInt64.toNat_ofNat_of_lt' (lt_of_lt_of_le (ByteCodec.leNat_lt _) ?_)
  exact Nat.pow_le_pow_right (by decide) (List.length_take_le 8 buf)

/-- The check of `write` does not wrap around: it compares the sum with the bound. -/
theorem refused_iff {value : UInt64} :
    value = U64_MAX ∨ U64_MAX - 1 - value < e.counter ↔
      2 ^ 64 - 2 < e.counter.toNat + value.toNat := by
  have hcounter := e.counter.toNat_lt
  rw [UInt64.lt_iff_toNat_lt, ← UInt64.toNat_inj]
  simp only [U64_MAX, UInt64.toNat_sub, UInt64.reduceToNat]
  have hvalue := value.toNat_lt
  omega

end EventFdState

inductive EventfdCall where
  | read (len : ℕ)
  | write (buf : Bytes)

/-- An event counter with the sums of what its writes brought and of what its reads returned. -/
structure EventfdLedger where
  efd : EventFdState
  accepted : ℕ
  returned : ℕ

namespace EventfdLedger

/-- The counter that `sys_eventfd2` makes. -/
def start (initval : UInt32) (semaphore : Bool) : EventfdLedger :=
  ⟨⟨initval.toUInt64, semaphore⟩, 0, 0⟩

def next (s : EventfdLedger) : EventfdCall → Option Errno × EventfdLedger
  | .read len =>
    match s.efd.read len with
    | (.ok bytes, efd) => (none, { s with efd, returned := s.returned + leNat bytes })
    | (.error e, efd) => (some e, { s with efd })
  | .write buf =>
    match s.efd.write buf with
    | (.ok _, efd) => (none, { s with efd, accepted := s.accepted + leNat (buf.take 8) })
    | (.error e, efd) => (some e, { s with efd })

/-- The balance of a counter made with `initval`. -/
structure Balanced (initval : UInt32) (s : EventfdLedger) : Prop where
  sum : s.efd.counter.toNat + s.returned = initval.toNat + s.accepted
  bound : s.efd.counter.toNat ≤ 2 ^ 64 - 2

variable {initval : UInt32} {s : EventfdLedger}

theorem balanced_read (h : s.Balanced initval) (len : ℕ) :
    (s.next (.read len)).2.Balanced initval := by
  obtain ⟨hsum, hbound⟩ := h
  have hcounter : s.efd.counter ≠ 0 → s.efd.counter.toNat ≠ 0 :=
    mt fun h0 => UInt64.toNat_inj.mp h0
  rw [next, EventFdState.read]
  split_ifs with hlen hzero hsem
  · exact ⟨hsum, hbound⟩
  · exact ⟨hsum, hbound⟩
  · have htaken : (s.efd.counter - 1).toNat = s.efd.counter.toNat - 1 := by
      refine UInt64.toNat_sub_of_le _ _ ?_
      rw [UInt64.le_iff_toNat_le, UInt64.toNat_one]
      exact Nat.one_le_iff_ne_zero.mpr (hcounter hzero)
    have hbytes : leNat (leBytes 8 1) = 1 := by decide
    constructor
    · have := hcounter hzero
      simp only [htaken, hbytes]
      omega
    · simp only [htaken]
      omega
  · have hbytes : leNat (leBytes 8 s.efd.counter.toNat) = s.efd.counter.toNat := by
      rw [ByteCodec.leNat_leBytes]
      exact Nat.mod_eq_of_lt s.efd.counter.toNat_lt
    constructor
    · simp only [hbytes, UInt64.toNat_zero]
      omega
    · exact Nat.zero_le _

theorem balanced_write (h : s.Balanced initval) (buf : Bytes) :
    (s.next (.write buf)).2.Balanced initval := by
  obtain ⟨hsum, hbound⟩ := h
  rw [next, EventFdState.write]
  split_ifs with hlen hmax hfull
  · exact ⟨hsum, hbound⟩
  · exact ⟨hsum, hbound⟩
  · exact ⟨hsum, hbound⟩
  · have hfits := mt EventFdState.refused_iff.mpr (not_or.mpr ⟨hmax, hfull⟩)
    rw [EventFdState.toNat_written] at hfits
    have hadded : (s.efd.counter + EventFdState.written buf).toNat =
        s.efd.counter.toNat + leNat (buf.take 8) := by
      rw [UInt64.toNat_add, EventFdState.toNat_written]
      exact Nat.mod_eq_of_lt (by omega)
    constructor
    · simp only [hadded]
      omega
    · simp only [hadded]
      omega

theorem balanced_run (initval : UInt32) (semaphore : Bool) (calls : List EventfdCall) :
    (calls.foldl (fun s call => (s.next call).2) (start initval semaphore)).Balanced initval := by
  refine Runs.invariant (.of_forall fun _ _ => trivial) ⟨?_, ?_⟩ ?_
  · simp [start]
  · rw [start, UInt32.toNat_toUInt64]
    have := initval.toNat_lt
    omega
  · rintro s (len | buf) h -
    · exact balanced_read h len
    · exact balanced_write h buf

/-- **An event counter** holds, after any history, its first value and what was written less what
was read, and at most `2 ^ 64 - 2`. A write is refused exactly if it would exceed that, and a
refused call changes nothing. -/
theorem conserves (initval : UInt32) (semaphore : Bool) (calls : List EventfdCall) :
    let s := calls.foldl (fun s call => (s.next call).2) (start initval semaphore)
    (s.efd.counter.toNat : ℤ) = initval.toNat + s.accepted - s.returned ∧
      s.efd.counter.toNat ≤ 2 ^ 64 - 2 ∧
      (∀ buf, 8 ≤ buf.length → ((s.next (.write buf)).1.isSome ↔
        2 ^ 64 - 2 < s.efd.counter.toNat + leNat (buf.take 8))) ∧
      ∀ call, (s.next call).1.isSome → (s.next call).2 = s := by
  intro s
  have hbalanced : s.Balanced initval := balanced_run initval semaphore calls
  refine ⟨?_, hbalanced.bound, fun buf hlen => ?_, ?_⟩
  · have := hbalanced.sum
    omega
  · rw [← EventFdState.toNat_written, ← EventFdState.refused_iff, next, EventFdState.write,
      if_neg (Nat.not_lt.mpr hlen)]
    split_ifs with hmax hfull
    · exact iff_of_true rfl (.inl hmax)
    · exact iff_of_true rfl (.inr hfull)
    · exact iff_of_false Bool.false_ne_true (not_or.mpr ⟨hmax, hfull⟩)
  · rintro (len | buf) hrefused
    · rw [next, EventFdState.read] at hrefused ⊢
      split_ifs at hrefused ⊢
      · rfl
      · rfl
      · cases hrefused
      · cases hrefused
    · rw [next, EventFdState.write] at hrefused ⊢
      split_ifs at hrefused ⊢
      · rfl
      · rfl
      · rfl
      · cases hrefused

end EventfdLedger

end PosixKernel
