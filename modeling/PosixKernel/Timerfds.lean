import Mathlib.Data.Set.Card
import Mathlib.Order.Interval.Finset.Nat
import PosixKernel.Codec
import PosixKernel.Lib.Runs

/-!
# Timer Descriptors

Arming, reading, polling and querying a timer descriptor (`sys_timerfd_settime`, `sys_read`,
`poll_check`, `timerfd_compute_expirations`). Each call asks a clock of the host by itself, and
the clocks are unrelated. A relative timer is armed by its own clock and read by clock 0; a poll
asks no clock, and expirations are counted only by the read that takes them; and `settime` returns
the time at which the timer was to go off, not the time that was left.

The fields of a timer are machine numbers that nothing checks, and sums and products of them wrap.
Where none does, a timer is one over natural numbers (`Timer`), and its expirations are counted
there.

## Main results

* `ArmedTimer.right_iff` — when each of the three is right, in every reachable state;
* `Timer.state_computeExpirations` — a timer over natural numbers is one of the machine's;
* `Timer.computeExpirations_history` — looking at a repeating timer at many times is looking at it
  at the last one.
-/

namespace PosixKernel

def TFD_TIMER_ABSTIME : UInt32 := 1

/-- What the clocks of the host say at a call, in seconds and nanoseconds. -/
abbrev Clocks := UInt32 → Except Errno (ℤ × ℤ)

/-- Seconds and nanoseconds as one machine number. -/
def wrappedNs (sec nsec : ℤ) : ℤ := lowI64 (lowI64 (sec * 1000000000) + nsec)

namespace TimerFdState

/-- A value of zero is that of a disarmed timer. -/
def disarmed (t : TimerFdState) : Bool := t.valueSec = 0 && t.valueNsec = 0

/-- An interval of zero is that of a timer that goes off once. -/
def oneShot (t : TimerFdState) : Bool := t.intervalSec = 0 && t.intervalNsec = 0

/-- A clock has come to the time of the timer: the seconds are compared first. -/
def expiredAt (t : TimerFdState) (now : ℤ × ℤ) : Bool :=
  t.valueSec < now.1 || (now.1 = t.valueSec && t.valueNsec ≤ now.2)

def intervalNs (t : TimerFdState) : ℤ := wrappedNs t.intervalSec t.intervalNsec

/-- The expirations since the time of the timer. -/
def count (t : TimerFdState) (now : ℤ × ℤ) : ℤ :=
  let elapsed := wrappedNs (lowI64 (now.1 - t.valueSec)) (lowI64 (now.2 - t.valueNsec))
  lowI64 (elapsed.tdiv t.intervalNs + 1)

/-- `timerfd_compute_expirations`. -/
def computeExpirations (t : TimerFdState) (now : ℤ × ℤ) : TimerFdState :=
  if t.disarmed then t
  else if t.expiredAt now then
    if t.oneShot then { t with expirations := 1, valueSec := 0, valueNsec := 0 }
    else if 0 < t.intervalNs then
      let newNs := lowI64 (wrappedNs t.valueSec t.valueNsec + lowI64 (t.count now * t.intervalNs))
      { t with
        expirations := t.expirations + UInt64.ofInt (t.count now)
        valueSec := newNs.tdiv 1000000000
        valueNsec := newNs.tmod 1000000000 }
    else { t with expirations := 1 }
  else t

/-- `read` into a buffer that is large enough: the count, by clock 0. -/
def read (t : TimerFdState) (c : Clocks) : Except Errno UInt64 × TimerFdState :=
  match c 0 with
  | .error e => (.error e, t)
  | .ok now =>
    let t := t.computeExpirations now
    if t.expirations = 0 then (.error .EAGAIN, t)
    else (.ok t.expirations, { t with expirations := 0 })

/-- What `poll` looks at. -/
def pollIn (t : TimerFdState) : Bool := 0 < t.expirations

/-- `timerfd_settime`: the old interval and value. A relative time is added to the timer's own
clock, which is asked when the interval has been set. -/
def settime (t : TimerFdState) (c : Clocks) (flags : UInt32) (interval value : ℤ × ℤ) :
    Except Errno ((ℤ × ℤ) × (ℤ × ℤ)) × TimerFdState :=
  let old := ((t.intervalSec, t.intervalNsec), (t.valueSec, t.valueNsec))
  if value = (0, 0) then (.ok old, ⟨t.clockId, 0, 0, 0, 0, 0⟩)
  else
    let t := { t with intervalSec := interval.1, intervalNsec := interval.2 }
    if hasFlag flags TFD_TIMER_ABSTIME then
      (.ok old, { t with valueSec := value.1, valueNsec := value.2, expirations := 0 })
    else
      match c t.clockId with
      | .error e => (.error e, t)
      | .ok now =>
        let totalNsec := lowI64 (now.2 + value.2)
        let totalSec := lowI64 (now.1 + value.1)
        (.ok old, if 1000000000 ≤ totalNsec then
          { t with
            valueSec := lowI64 (totalSec + totalNsec.tdiv 1000000000)
            valueNsec := totalNsec.tmod 1000000000
            expirations := 0 }
          else { t with valueSec := totalSec, valueNsec := totalNsec, expirations := 0 })

/-- A read by a clock that says `now` returns a count: the clock has come to the time that the
timer holds, and the count does not come out as zero. -/
def Expires (t : TimerFdState) (now : ℤ × ℤ) : Prop :=
  t.disarmed = false ∧ t.expiredAt now = true ∧
    (0 < t.intervalNs → UInt64.ofInt (t.count now) ≠ 0)

variable {t : TimerFdState} {c : Clocks}

/-- A one-shot timer has no interval. -/
theorem intervalNs_of_oneShot (h : t.oneShot = true) : t.intervalNs = 0 := by
  simp only [oneShot, Bool.and_eq_true, decide_eq_true_eq] at h
  rw [intervalNs, h.1, h.2]
  rfl

/-- Expirations are counted by a clock that has come to the time. -/
theorem expirations_computeExpirations (h : t.expirations = 0) (now : ℤ × ℤ) :
    (t.computeExpirations now).expirations ≠ 0 ↔ t.Expires now := by
  rw [computeExpirations, Expires]
  cases hdis : t.disarmed with
  | true => simp [h]
  | false =>
    cases hexp : t.expiredAt now with
    | false => simp [h]
    | true =>
      cases hone : t.oneShot with
      | true => simp [intervalNs_of_oneShot hone]
      | false =>
        by_cases hpos : 0 < t.intervalNs
        · simp [hpos, h]
        · simp [hpos]

/-- A read is by clock 0. -/
theorem read_ok_iff (h : t.expirations = 0) :
    (∃ n ≠ 0, (t.read c).1 = .ok n) ↔ ∃ now, c 0 = .ok now ∧ t.Expires now := by
  rw [read]
  rcases hclock : c 0 with e | now
  · simp
  simp only [Except.ok.injEq, exists_eq_left', ← expirations_computeExpirations h]
  split
  next hzero => simp [hzero]
  next hsome => simp [hsome]

/-- Setting a timer returns what it was set to. -/
theorem eq_of_settime {flags : UInt32} {interval value : ℤ × ℤ} {old : (ℤ × ℤ) × (ℤ × ℤ)}
    (h : (t.settime c flags interval value).1 = .ok old) :
    ((t.intervalSec, t.intervalNsec), (t.valueSec, t.valueNsec)) = old := by
  simp only [settime] at h
  split at h
  · exact Except.ok.inj h
  split at h
  · exact Except.ok.inj h
  split at h
  · cases h
  · exact Except.ok.inj h

end TimerFdState

/-! ### When the calls are right -/

/-- Seconds and nanoseconds as a number. -/
def ns (t : ℤ × ℤ) : ℤ := t.1 * 1000000000 + t.2

/-- Wrapping once is enough. -/
theorem wrappedNs_eq (sec nsec : ℤ) : wrappedNs sec nsec = lowI64 (ns (sec, nsec)) := by
  rw [wrappedNs, lowI64, lowI64, Int.bmod_add_bmod, ns, lowI64]

/-- Wrapping the parts first does not matter. -/
theorem lowI64_ns_lowI64 (sec nsec : ℤ) :
    lowI64 (ns (lowI64 sec, lowI64 nsec)) = lowI64 (ns (sec, nsec)) := by
  simp only [ns, lowI64]
  rw [Int.add_bmod_bmod, ← Int.bmod_add_bmod, Int.bmod_mul_bmod, Int.bmod_add_bmod]

/-- What fits does not wrap. -/
theorem lowI64_natCast {n : ℕ} (h : n < 2 ^ 63) : lowI64 n = n :=
  lowI64_of_range (by omega) (by omega)

/-- A timer with the time for which it is armed. -/
structure ArmedTimer where
  timer : TimerFdState
  due : Option ℤ

/-- The calls that change a timer. -/
inductive TimerCall
  | settime (flags : UInt32) (interval value : ℤ × ℤ)
  | read

namespace ArmedTimer

/-- The time that `settime` asks for. -/
def asked (c : Clocks) (clockId flags : UInt32) (value : ℤ × ℤ) : Option ℤ :=
  if value = (0, 0) then none
  else if hasFlag flags TFD_TIMER_ABSTIME then some (ns value)
  else (c clockId).toOption.map (ns · + ns value)

/-- A call, with what the clocks say at it. A `settime` that succeeds arms the timer for the time
it asks for; a read that returns a count moves that on by as many intervals, if there is one. -/
def next (a : ArmedTimer) (e : Clocks × TimerCall) : ArmedTimer :=
  match e.2 with
  | .settime flags interval value =>
    let r := a.timer.settime e.1 flags interval value
    ⟨r.2, if r.1.isOk then asked e.1 a.timer.clockId flags value else a.due⟩
  | .read =>
    let r := a.timer.read e.1
    ⟨r.2, match r.1 with
      | .error _ => a.due
      | .ok n =>
        if a.timer.oneShot then none
        else a.due.map (· + n.toNat * max 0 (ns (a.timer.intervalSec, a.timer.intervalNsec)))⟩

/-- `timerfd_create`. -/
def create (clockId : UInt32) : ArmedTimer := ⟨⟨clockId, 0, 0, 0, 0, 0⟩, none⟩

/-- **A clock has reached the armed time.** -/
def Reached (a : ArmedTimer) (clock : Except Errno (ℤ × ℤ)) : Prop :=
  ∃ d ∈ a.due, ∃ now, clock = .ok now ∧ d ≤ ns now

/-- The time that is left. -/
def remaining (a : ArmedTimer) (now : ℤ × ℤ) : ℤ := a.due.elim 0 fun d => max 0 (d - ns now)

/-- A read returns a count exactly when the own clock has reached the time. -/
def ReadsRight (a : ArmedTimer) (c : Clocks) : Prop :=
  (∃ n ≠ 0, (a.timer.read c).1 = .ok n) ↔ a.Reached (c a.timer.clockId)

/-- A poll reports the timer at the same moments. -/
def PollsRight (a : ArmedTimer) (c : Clocks) : Prop :=
  a.timer.pollIn = true ↔ a.Reached (c a.timer.clockId)

/-- `settime` returns the time that is left. -/
def ReturnsRemaining (a : ArmedTimer) (c : Clocks) : Prop :=
  ∀ flags interval value old now, (a.timer.settime c flags interval value).1 = .ok old →
    c a.timer.clockId = .ok now →
      old.1 = (a.timer.intervalSec, a.timer.intervalNsec) ∧ ns old.2 = a.remaining now

/-- No call leaves expirations behind. -/
theorem expirations_next {a : ArmedTimer} (h : a.timer.expirations = 0) (e : Clocks × TimerCall) :
    (a.next e).timer.expirations = 0 := by
  obtain ⟨c, call⟩ := e
  cases call with
  | settime =>
    simp only [next, TimerFdState.settime]
    split
    · rfl
    split
    · rfl
    split
    · exact h
    · split <;> rfl
  | read =>
    simp only [next, TimerFdState.read]
    split
    · exact h
    split
    next hzero => exact hzero
    · rfl

/-- A timer armed for the longest time there is goes off at once: the sum wraps. -/
example : let a := (create 0).next (fun _ => .ok (1, 0), .settime 0 (0, 0) (2 ^ 63 - 1, 0))
    (a.timer.read fun _ => .ok (1, 0)).1 = .ok 1 ∧ a.due = some (2 ^ 63 * 1000000000) := by
  decide

end ArmedTimer

/-! ### Timers over natural numbers -/

/-- A time, with less than a second of nanoseconds. -/
structure Timespec where
  sec : ℕ
  nsec : Fin 1000000000
  deriving DecidableEq

namespace Timespec

def zero : Timespec := ⟨0, 0⟩

def ns (t : Timespec) : ℕ := t.sec * 1000000000 + t.nsec

def ofNs (n : ℕ) : Timespec := ⟨n / 1000000000, Fin.ofNat 1000000000 n⟩

/-- Only the zero time is zero nanoseconds. -/
theorem ns_eq_zero_iff {t : Timespec} : t.ns = 0 ↔ t = zero := by
  obtain ⟨sec, nsec⟩ := t
  simp only [ns, zero, mk.injEq, Fin.ext_iff, Fin.val_zero]
  omega

end Timespec

/-- A timer whose fields are times; a value of zero is that of a disarmed one. -/
structure Timer where
  clockId : UInt32
  interval : Timespec
  value : Timespec
  expirations : ℕ

namespace Timer

/-- A clock has come to the time of the timer: the seconds are compared first. -/
def expiredAt (t : Timer) (now : Timespec) : Bool :=
  t.value.sec < now.sec || (now.sec = t.value.sec && t.value.nsec ≤ now.nsec)

/-- `timerfd_compute_expirations`, where no number wraps. -/
def computeExpirations (t : Timer) (now : Timespec) : Timer :=
  if t.value = .zero then t
  else if t.expiredAt now then
    if t.interval = .zero then { t with expirations := 1, value := .zero }
    else
      let count := (now.ns - t.value.ns) / t.interval.ns + 1
      { t with
        expirations := t.expirations + count
        value := .ofNs (t.value.ns + count * t.interval.ns) }
  else t

variable {t : Timer}

/-- A timer has expired when its time is not after now. -/
theorem expiredAt_iff (t : Timer) (now : Timespec) :
    t.expiredAt now = true ↔ t.value.ns ≤ now.ns := by
  simp only [expiredAt, Timespec.ns, Bool.or_eq_true, Bool.and_eq_true, decide_eq_true_eq,
    Fin.le_def]
  omega

/-! ### Repeating timers -/

/-- Nanoseconds that are split join again. -/
theorem ns_ofNs (n : ℕ) : (Timespec.ofNs n).ns = n := by
  simp only [Timespec.ns, Timespec.ofNs, Fin.ofNat]
  omega

/-- A time that is joined splits again. -/
theorem ofNs_ns (t : Timespec) : Timespec.ofNs t.ns = t := by
  obtain ⟨sec, nsec⟩ := t
  simp only [Timespec.ns, Timespec.ofNs, Timespec.mk.injEq, Fin.ext_iff, Fin.ofNat]
  omega

/-- A timer that repeats and is armed. -/
def Repeats (t : Timer) : Prop := 0 < t.value.ns ∧ 0 < t.interval.ns

/-- The timer after so many expirations. -/
def advance (t : Timer) (k : ℕ) : Timer :=
  { t with
    expirations := t.expirations + k
    value := .ofNs (t.value.ns + k * t.interval.ns) }

/-- How many of the instants at which the timer expires have come. -/
def due (t : Timer) (now : Timespec) : ℕ :=
  if t.value.ns ≤ now.ns then (now.ns - t.value.ns) / t.interval.ns + 1 else 0

/-- The numbers of 64 bits that are computed when a repeating timer has expired. -/
def computed (t : Timer) (now : Timespec) : List ℕ :=
  let count := (now.ns - t.value.ns) / t.interval.ns + 1
  [now.ns - t.value.ns, t.interval.ns, count, count * t.interval.ns,
    t.value.ns + count * t.interval.ns]

/-- The timer in the machine's numbers. -/
def state (t : Timer) : TimerFdState :=
  ⟨t.clockId, t.interval.sec, t.interval.nsec, t.value.sec, t.value.nsec,
    UInt64.ofNat t.expirations⟩

/-- A timer of zero has a disarmed record. -/
theorem disarmed_state (t : Timer) : t.state.disarmed = true ↔ t.value = .zero := by
  rw [← Timespec.ns_eq_zero_iff, Timespec.ns]
  simp [TimerFdState.disarmed, state]

/-- A timer without an interval has a one-shot record. -/
theorem oneShot_state (t : Timer) : t.state.oneShot = true ↔ t.interval = .zero := by
  rw [← Timespec.ns_eq_zero_iff, Timespec.ns]
  simp [TimerFdState.oneShot, state]

/-- A timer expires when its record does. -/
theorem expiredAt_state (t : Timer) (now : Timespec) :
    t.state.expiredAt (now.sec, now.nsec) = t.expiredAt now := by
  simp [TimerFdState.expiredAt, expiredAt, state]

/-- The interval of a record does not wrap when it fits. -/
theorem intervalNs_state (h : t.interval.ns < 2 ^ 63) : t.state.intervalNs = t.interval.ns := by
  rw [TimerFdState.intervalNs, wrappedNs_eq, ← lowI64_natCast h]
  simp [state, ns, Timespec.ns]

/-- Nor does the count of a record. -/
theorem count_state {now : Timespec} (hle : t.value.ns ≤ now.ns)
    (hrange : ∀ n ∈ t.computed now, n < 2 ^ 63) :
    t.state.count (now.sec, now.nsec) = ((now.ns - t.value.ns) / t.interval.ns + 1 : ℕ) := by
  simp only [computed, List.forall_mem_cons] at hrange
  obtain ⟨helapsed, hinterval, hcount, -⟩ := hrange
  have hns : ns (now.sec - t.value.sec, (now.nsec : ℕ) - (t.value.nsec : ℕ)) =
      (now.ns - t.value.ns : ℕ) := by
    simp only [ns, Timespec.ns] at hle ⊢
    omega
  rw [TimerFdState.count, intervalNs_state hinterval, wrappedNs_eq, lowI64_ns_lowI64,
    ← lowI64_natCast hcount]
  simp only [state, hns, lowI64_natCast helapsed]
  rfl

/-- **Where no computed number is wider than 63 bits**, expirations are counted as the machine
counts them. -/
theorem state_computeExpirations (t : Timer) (now : Timespec)
    (hrange : t.expiredAt now = true → ∀ n ∈ t.computed now, n < 2 ^ 63) :
    t.state.computeExpirations (now.sec, now.nsec) = (t.computeExpirations now).state := by
  simp only [TimerFdState.computeExpirations, computeExpirations, disarmed_state, oneShot_state,
    expiredAt_state]
  split
  · rfl
  split
  case isFalse => rfl
  next hexpired =>
  split
  · rfl
  next hrepeats =>
  have hcount := count_state ((expiredAt_iff t now).mp hexpired) (hrange hexpired)
  have hpos : 0 < t.interval.ns :=
    Nat.pos_of_ne_zero fun hzero => hrepeats (Timespec.ns_eq_zero_iff.mp hzero)
  have hrange := hrange hexpired
  simp only [computed, List.forall_mem_cons] at hrange
  generalize (now.ns - t.value.ns) / t.interval.ns + 1 = count at hrange hcount
  obtain ⟨-, hinterval, hlt, -, hnew, -⟩ := hrange
  rw [intervalNs_state hinterval, hcount, if_pos (by exact_mod_cast hpos)]
  have hnewNs : lowI64 (wrappedNs t.value.sec t.value.nsec + lowI64 (count * t.interval.ns)) =
      (t.value.ns + count * t.interval.ns : ℕ) := by
    rw [← lowI64_natCast hnew, wrappedNs_eq, lowI64, lowI64, lowI64, Int.bmod_add_bmod,
      Int.add_bmod_bmod, lowI64, ns, Timespec.ns]
    push_cast
    rfl
  have hofInt : UInt64.ofInt count = UInt64.ofNat count := by
    have hmod : ((count : ℤ) % 2 ^ 64).toNat = count := by omega
    rw [UInt64.ofInt, hmod]
  simp only [state, hnewNs, hofInt, Timespec.ofNs, Fin.ofNat, UInt64.ofNat_add]
  rfl

variable {now last : Timespec}

/-- What is due now. -/
theorem lt_due_iff (h : t.Repeats) {k : ℕ} :
    k < t.due now ↔ t.value.ns + k * t.interval.ns ≤ now.ns := by
  rw [due]
  split
  · rw [Nat.lt_succ_iff, Nat.le_div_iff_mul_le h.2]
    omega
  · omega

/-- Computing the expirations advances by what is due. -/
theorem computeExpirations_eq (h : t.Repeats) (now : Timespec) :
    t.computeExpirations now = t.advance (t.due now) := by
  have hvalue : t.value ≠ .zero := fun heq => h.1.ne' (Timespec.ns_eq_zero_iff.mpr heq)
  have hinterval : t.interval ≠ .zero := fun heq => h.2.ne' (Timespec.ns_eq_zero_iff.mpr heq)
  rw [computeExpirations, if_neg hvalue, if_neg hinterval, due]
  simp only [expiredAt_iff]
  split
  · rfl
  · rw [advance, Nat.zero_mul, Nat.add_zero, ofNs_ns, Nat.add_zero]

/-- Advancing moves the next expiration. -/
theorem value_advance (t : Timer) (k : ℕ) :
    (t.advance k).value.ns = t.value.ns + k * t.interval.ns :=
  ns_ofNs (t.value.ns + k * t.interval.ns)

/-- It leaves the interval. -/
theorem interval_advance (t : Timer) (k : ℕ) : (t.advance k).interval = t.interval := by
  rw [advance]

/-- It leaves a repeating timer. -/
theorem Repeats.advance (h : t.Repeats) (k : ℕ) : (t.advance k).Repeats := by
  rw [Repeats, value_advance, interval_advance]
  exact ⟨Nat.add_pos_left h.1 _, h.2⟩

/-- Advances add up. -/
theorem advance_advance (t : Timer) (j k : ℕ) : (t.advance j).advance k = t.advance (j + k) := by
  have hvalue : (t.advance j).value.ns + k * (t.advance j).interval.ns =
      t.value.ns + (j + k) * t.interval.ns := by
    rw [value_advance, interval_advance, Nat.add_mul, Nat.add_assoc]
  rw [advance, hvalue, advance, advance, Nat.add_assoc]

/-- What was counted at an earlier time is not counted again. -/
theorem advance_due (h : t.Repeats) (hle : now.ns ≤ last.ns) :
    (t.advance (t.due now)).advance ((t.advance (t.due now)).due last) =
      t.advance (t.due last) := by
  have hmono : t.due now ≤ t.due last :=
    le_of_forall_lt fun k hk => (lt_due_iff h).mpr (((lt_due_iff h).mp hk).trans hle)
  have hrest : t.due now + (t.advance (t.due now)).due last = t.due last := by
    refine eq_of_forall_lt_iff fun k => ?_
    rcases Nat.lt_or_ge k (t.due now) with hk | hk
    · exact iff_of_true (Nat.lt_add_right _ hk) (hk.trans_le hmono)
    obtain ⟨m, rfl⟩ := Nat.exists_eq_add_of_le hk
    rw [Nat.add_lt_add_iff_left, lt_due_iff (h.advance _), lt_due_iff h, value_advance,
      interval_advance, Nat.add_mul, Nat.add_assoc]
  rw [advance_advance, hrest]

/-- Looking in between does not matter. -/
theorem foldl_computeExpirations (h : t.Repeats) (times : List Timespec)
    (hsorted : (times ++ [last]).Pairwise (·.ns ≤ ·.ns)) :
    (times ++ [last]).foldl computeExpirations t = t.advance (t.due last) := by
  induction times generalizing t with
  | nil => exact computeExpirations_eq h last
  | cons now times ih =>
    obtain ⟨hle, hrest⟩ := List.pairwise_cons.mp hsorted
    rw [List.cons_append, List.foldl_cons, computeExpirations_eq h, ih (h.advance _) hrest]
    exact advance_due h (hle last (List.mem_append_right _ (List.mem_singleton_self _)))

/-- What is computed at a time stays below the time plus an interval. -/
theorem computed_lt (h : t.Repeats) (hnow : now.ns + t.interval.ns < 2 ^ 63)
    (hexpired : t.expiredAt now = true) : ∀ n ∈ t.computed now, n < 2 ^ 63 := by
  rw [expiredAt_iff] at hexpired
  have hmul := Nat.div_mul_le_self (now.ns - t.value.ns) t.interval.ns
  have hdiv := Nat.div_le_self (now.ns - t.value.ns) t.interval.ns
  have hpos := h.2
  simp only [computed, Nat.add_mul, Nat.one_mul, List.forall_mem_cons, List.not_mem_nil,
    false_implies, implies_true, and_true]
  omega

/-- **A repeating timer.** It is looked at at any times that do not go back and that are, with an
interval added, numbers of 63 bits. No number that is computed on the way is wider. Count and next
expiry are those of one look at the last time: the count has grown by the number of instants of
expiry that are not later, and the next one is later. -/
theorem computeExpirations_history (h : t.Repeats) (times : List Timespec) (last : Timespec)
    (hsorted : (times ++ [last]).Pairwise (·.ns ≤ ·.ns))
    (hrange : ∀ now ∈ times ++ [last], now.ns + t.interval.ns < 2 ^ 63) :
    let t' := (times ++ [last]).foldl computeExpirations t
    Runs computeExpirations (fun t now => t.expiredAt now = true → ∀ n ∈ t.computed now, n < 2 ^ 63)
      t (times ++ [last]) ∧
    t' = t.computeExpirations last ∧
    t'.expirations = t.expirations + Set.ncard {k : ℕ | t.value.ns + k * t.interval.ns ≤ last.ns} ∧
    last.ns < t'.value.ns := by
  intro t'
  have ht' : t' = t.advance (t.due last) := foldl_computeExpirations h times hsorted
  refine ⟨?_, ht'.trans (computeExpirations_eq h last).symm, ?_, ?_⟩
  · clear_value t'
    clear ht' hsorted
    generalize times ++ [last] = all at hrange
    induction all generalizing t with
    | nil => trivial
    | cons now rest ih =>
      refine ⟨computed_lt h (hrange now List.mem_cons_self), ?_⟩
      rw [computeExpirations_eq h]
      refine ih (h.advance _) fun now' hmem => ?_
      rw [interval_advance]
      exact hrange now' (List.mem_cons_of_mem _ hmem)
  · have hset : {k : ℕ | t.value.ns + k * t.interval.ns ≤ last.ns} = Set.Iio (t.due last) :=
      Set.ext fun k => (lt_due_iff h).symm
    rw [ht', hset, Set.ncard_eq_toFinset_card', Set.toFinset_Iio, Nat.card_Iio, advance]
  · rw [ht', value_advance]
    exact not_le.mp fun hle => lt_irrefl _ ((lt_due_iff h).mpr hle)

/-- A timer of 2 s and then every 3 s, looked at after 1 s, 6 s and 9 s. -/
theorem computeExpirations_history_three :
    let t : Timer := ⟨0, ⟨3, 0⟩, ⟨2, 0⟩, 0⟩
    let t' := [⟨1, 0⟩, ⟨6, 0⟩, ⟨9, 0⟩].foldl computeExpirations t
    t' = t.computeExpirations ⟨9, 0⟩ ∧ t'.expirations = 3 := by
  obtain ⟨-, hsame, -⟩ := computeExpirations_history (t := ⟨0, ⟨3, 0⟩, ⟨2, 0⟩, 0⟩)
    ⟨by decide, by decide⟩ [⟨1, 0⟩, ⟨6, 0⟩] ⟨9, 0⟩ (by decide) (by decide)
  exact ⟨hsame, by decide⟩

end Timer

end PosixKernel
