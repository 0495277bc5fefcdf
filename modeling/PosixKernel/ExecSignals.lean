import PosixKernel.Exec

/-!
# Signals Across an Exec

An exec keeps ignored signals ignored, resets caught ones, and keeps the blocked and the
pending masks. Two things get lost on the way: the reader drops the disposition of the
highest signal, and the queue of real-time instances is rebuilt from the pending mask.

## Main results

* `execSetup_keepsSignals` — a successful exec setup keeps all of the signal state it has
  to keep exactly when the highest signal was not ignored and the queue held one plain
  instance of each pending real-time signal, in order.
-/

namespace PosixKernel

open SignalState

/-- Whether a queued instance is one of a real-time signal. -/
def RtSigEntry.isRealTime (e : RtSigEntry) : Bool := SIGRTMIN ≤ e.signum

/-- What an exec has to keep of the signal state. -/
structure KeepsSignals (s s' : SignalState) : Prop where
  ignored : ∀ i, 1 ≤ i → i ≤ 64 → s.getHandler i = .Ignore → s'.getHandler i = .Ignore
  caught : ∀ i, 1 ≤ i → i ≤ 64 → ∀ ptr, s.getHandler i = .Handler ptr →
    s'.getHandler i = .Default
  blocked : s'.blocked = s.blocked
  pending : s'.pending = s.pending
  queued : s'.rtQueue.filter RtSigEntry.isRealTime = s.rtQueue.filter RtSigEntry.isRealTime

theorem mem_ignoredSignals {s : SignalState} {i : ℕ} :
    i ∈ ignoredSignals s ↔ 1 ≤ i ∧ i ≤ 64 ∧ s.getHandler i = .Ignore := by
  rw [ignoredSignals, List.mem_filter, List.mem_range'_1, decide_eq_true_iff]
  constructor
  · rintro ⟨⟨h1, h64⟩, hi⟩
    exact ⟨h1, by omega, hi⟩
  · rintro ⟨h1, h64, hi⟩
    exact ⟨⟨h1, by omega⟩, hi⟩

/-- The handlers after an exec: ignored signals below the highest one stay ignored. -/
theorem getHandler_execSignals (s : SignalState) {i : ℕ} (h1 : 1 ≤ i) (h64 : i ≤ 64) :
    (execSignals s).getHandler i =
      if i < 64 ∧ s.getHandler i = .Ignore then .Ignore else .Default := by
  have hvalid : validSignal i = true := validSignal_iff.mpr ⟨h1, h64⟩
  rw [getHandler, if_pos hvalid]
  by_cases hlt : i < 64
  · refine (tableOf_eq (a := fun j => if s.getHandler j = .Ignore then .Ignore else .Default)
      hlt ?_ ?_).trans (by simp [hlt])
    · intro e he
      obtain ⟨j, hj, rfl⟩ := List.mem_map.mp he
      obtain ⟨-, hj64, hign⟩ := mem_ignoredSignals.mp hj
      rw [low32_of_lt (by omega), hign]
      rfl
    intro hnot
    rw [if_neg]
    intro hign
    exact hnot (List.mem_map.mpr ⟨(low32 i, _), List.mem_map.mpr
      ⟨i, mem_ignoredSignals.mpr ⟨h1, h64, hign⟩, rfl⟩, low32_of_lt (by omega)⟩)
  · rw [if_neg fun h => hlt h.1]
    exact tableOf_of_le (not_lt.mp hlt) _ _

theorem filter_rtQueueOfPending (pending : UInt64) :
    (rtQueueOfPending pending).filter RtSigEntry.isRealTime =
      rtQueueOfPending pending := by
  rw [List.filter_eq_self]
  intro e he
  obtain ⟨sig, hsig, rfl⟩ := List.mem_map.mp he
  have hrt := (List.mem_filter.mp hsig).2
  rw [Bool.and_eq_true] at hrt
  exact hrt.1

theorem keepsSignals_execSignals (s : SignalState) :
    KeepsSignals s (execSignals s) ↔ s.getHandler 64 ≠ .Ignore ∧
      s.rtQueue.filter RtSigEntry.isRealTime = rtQueueOfPending s.pending := by
  have hqueue : (execSignals s).rtQueue.filter RtSigEntry.isRealTime =
      rtQueueOfPending s.pending := filter_rtQueueOfPending s.pending
  constructor
  · intro h
    refine ⟨fun hign => ?_, (h.queued.symm.trans hqueue)⟩
    have hkept := h.ignored 64 (by omega) le_rfl hign
    rw [getHandler_execSignals s (by omega) le_rfl] at hkept
    simp at hkept
  rintro ⟨h64, hq⟩
  refine ⟨fun i h1 hi hign => ?_, fun i h1 hi ptr hptr => ?_, rfl, rfl, hqueue.trans hq.symm⟩
  · have hlt : i < 64 := lt_of_le_of_ne hi fun h => h64 (h ▸ hign)
    rw [getHandler_execSignals s h1 hi, if_pos ⟨hlt, hign⟩]
  rw [getHandler_execSignals s h1 hi, if_neg]
  rintro ⟨-, hign⟩
  rw [hptr] at hign
  cases hign

/-- **Signals across an exec.** Whatever descriptors a successful exec setup arranges, it
keeps the signal state exactly when the highest signal was not ignored and the queued
real-time instances were one plain instance for each pending signal, in order. -/
theorem execSetup_keepsSignals (H : HostIO) (E : ProcfsEnv) (c c' : Ctx)
    (h : kernelExecSetup H E c = (.ok (), c')) : KeepsSignals c.proc.signals c'.proc.signals ↔
      c.proc.signals.getHandler 64 ≠ .Ignore ∧ c.proc.signals.rtQueue.filter RtSigEntry.isRealTime =
          rtQueueOfPending c.proc.signals.pending := by
  obtain ⟨mid, hsame, -, -, rfl, -⟩ := kernelExecSetup_eq_ok h
  have hsignals : mid.proc.signals = c.proc.signals := hsame.signals
  rw [← hsignals]
  exact keepsSignals_execSignals mid.proc.signals

/-- A process that runs alone, with the given signal state. -/
def signalledCtx (s : SignalState) : Ctx := ⟨.boot, { Process.new 1 with signals := s }⟩

/-- A process that ignores one signal and has been sent another once. -/
theorem execSetup_keepsSignals_plain : ∃ c', kernelExecSetup .barren .bare
        (signalledCtx ((new.setHandler 1 .Ignore).raise 34)) = (.ok (), c') ∧
      KeepsSignals ((new.setHandler 1 .Ignore).raise 34) c'.proc.signals := by
  have hrun := kernelExecSetup_of_plain (H := .barren) (E := .bare)
    (c := signalledCtx ((new.setHandler 1 .Ignore).raise 34)) rfl (by decide)
    (by decide +kernel)
  exact ⟨_, hrun, (execSetup_keepsSignals _ _ _ _ hrun).mpr (by decide +kernel)⟩

/-- A process that ignores signal 64 and has signal 34 queued twice, with values: after
the exec signal 64 has its default action and one instance without a value is queued. -/
theorem execSetup_loses_signals :
    ∃ s c', s = ((new.setHandler 64 .Ignore).raiseWithValue 34 7).raiseWithValue 34 8 ∧
      kernelExecSetup .barren .bare (signalledCtx s) = (.ok (), c') ∧
      s.getHandler 64 = .Ignore ∧ c'.proc.signals.getHandler 64 = .Default ∧
      s.rtQueue = [⟨34, 7, -1⟩, ⟨34, 8, -1⟩] ∧ c'.proc.signals.rtQueue = [⟨34, 0, 0⟩] ∧
      ¬ KeepsSignals s c'.proc.signals := by
  have hrun := kernelExecSetup_of_plain (H := .barren) (E := .bare)
    (c := signalledCtx (((new.setHandler 64 .Ignore).raiseWithValue 34 7).raiseWithValue
      34 8)) rfl (by decide) (by decide +kernel)
  refine ⟨_, _, rfl, hrun, by decide, by decide +kernel, by decide, by decide +kernel, ?_⟩
  intro hkeeps
  exact absurd (hkeeps.ignored 64 (by omega) le_rfl (by decide)) (by decide +kernel)

end PosixKernel
