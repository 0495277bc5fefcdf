import PosixKernel.SignalSets
import PosixKernel.Terminal

/-!
# Signals From the Keyboard

Input reaches a terminal on three paths: the host types it into a pseudo-terminal
(`kernel_pty_master_write`), a process writes it to the master (`sys_write`), or a process reads it
from the host as its standard input (`sys_read`). The line discipline tells all of them about the
signal characters. The first remembers three signals of a write; the others do not listen.

## Main results

* `InputPath.signals_pending_iff` — the signals that reach the foreground group.
-/

namespace PosixKernel

open LineDiscipline

/-- How input reaches a terminal. -/
inductive InputPath
  | inject
  | masterWrite
  | stdin

namespace LineDiscipline

/-- The signals that an input asks for. -/
def signalsOf (t : LineDiscipline) (data : Bytes) : List ℕ :=
  data.filterMap fun b => (t.key b).signum

/-- The foreground process group. -/
def InForeground (t : LineDiscipline) (p : Process) : Prop :=
  0 < t.foregroundPgid ∧ p.pgid = t.foregroundPgid.toUInt32

end LineDiscipline

namespace InputPath

/-- A byte that the host types: a signal is remembered with the foreground group, if there is
room. -/
def collect (s : LineDiscipline × List (ℕ × Int32)) (byte : UInt8) :
    LineDiscipline × List (ℕ × Int32) :=
  let r := s.1.processInputByte byte
  (r.2,
    match r.1.2 with
    | some signum => if s.2.length < 3 then s.2 ++ [(signum, s.1.foregroundPgid)] else s.2
    | none => s.2)

/-- The signals that a path sends, each to a group. -/
def sends (t : LineDiscipline) (data : Bytes) : InputPath → List (ℕ × Int32)
  | inject => (data.foldl collect (t, [])).2
  | masterWrite | stdin => []

/-- What signals to groups do to a process. -/
def receives (p : Process) (sent : List (ℕ × Int32)) : Process :=
  sent.foldl (fun p e =>
    if 0 < e.2 ∧ p.pgid = e.2.toUInt32 then { p with signals := p.signals.raise e.1 } else p) p

/-- The signals for which a path has room. -/
def carries (signals : List ℕ) : InputPath → List ℕ
  | inject => signals.take 3
  | masterWrite | stdin => []

/-- What a byte means does not depend on what was typed before. -/
theorem key_press (t : LineDiscipline) (k : Key) : (t.press k).key = t.key := by
  funext byte
  simp [key, keyBy, mapInput,
    isCanonical, lflag, toTerminalState_press]

/-- The host remembers the first three signals. -/
theorem foldl_collect (t : LineDiscipline) (data : Bytes) (sent : List (ℕ × Int32)) :
    (data.foldl collect (t, sent)).2 =
      sent ++ ((t.signalsOf data).take (3 - sent.length)).map fun s => (s, t.foregroundPgid) := by
  induction data generalizing t sent with
  | nil => simp [signalsOf]
  | cons byte data ih =>
    have hsame : (t.press (t.key byte)).foregroundPgid = t.foregroundPgid := by
      rw [toTerminalState_press]
    have hlater : (t.press (t.key byte)).signalsOf data = t.signalsOf data := by
      rw [signalsOf, key_press, signalsOf]
    rw [List.foldl_cons, collect]
    simp only [processInputByte]
    rw [ih, hsame, hlater]
    simp only [signalsOf, List.filterMap_cons]
    rcases (t.key byte).signum with _ | signum
    · rfl
    dsimp only
    split
    next hroom =>
      rw [List.length_append, List.length_singleton,
        show 3 - sent.length = (3 - (sent.length + 1)) + 1 by omega, List.take_succ_cons,
        List.map_cons, List.append_assoc, List.singleton_append]
    next hfull => rw [show 3 - sent.length = 0 by omega]; simp

theorem sends_eq (path : InputPath) (t : LineDiscipline) (data : Bytes) :
    path.sends t data = (path.carries (t.signalsOf data)).map fun s => (s, t.foregroundPgid) := by
  cases path with
  | inject => exact foldl_collect t data []
  | masterWrite => rfl
  | stdin => rfl

theorem validSignal_of_mem {t : LineDiscipline} {data : Bytes} {signum : ℕ}
    (h : signum ∈ t.signalsOf data) : validSignal signum = true := by
  obtain ⟨byte, -, hsig⟩ := List.mem_filterMap.mp h
  rw [key, keyBy] at hsig
  split at hsig
  · cases hsig
  · split_ifs at hsig <;> cases hsig <;> decide

/-- What is pending in a process of the group that the signals go to. -/
theorem pending_receives {g : Int32} (signals : List ℕ) (p : Process)
    (hgroup : 0 < g ∧ p.pgid = g.toUInt32) {n : ℕ} (hn : validSignal n = true) :
    inMask (receives p (signals.map fun s => (s, g))).signals.pending n = true ↔
      n ∈ signals ∨ inMask p.signals.pending n = true := by
  induction signals generalizing p with
  | nil => simp [receives]
  | cons s signals ih =>
    rw [List.map_cons, receives, List.foldl_cons, if_pos hgroup]
    refine (ih { p with signals := p.signals.raise s } hgroup).trans ?_
    rw [List.mem_cons, SignalState.raise, SignalState.raiseInternal]
    cases hs : validSignal s with
    | false =>
      have hne : n ≠ s := fun h => Bool.false_ne_true (hs.symm.trans (h ▸ hn))
      simp [hne]
    | true =>
      simp only [Bool.not_true, Bool.false_eq_true, if_false, inMask_or, inMask_sigBit, hs,
        Bool.true_and, Bool.or_eq_true, decide_eq_true_eq]
      tauto

/-- **Signals of the keyboard.** After an input every signal in it is pending in a process of the
foreground group, exactly if the path has room for it or it was pending before. -/
theorem signals_pending_iff (path : InputPath) (t : LineDiscipline) (data : Bytes) (p : Process)
    (hgroup : t.InForeground p) : (∀ signum ∈ t.signalsOf data,
        inMask (receives p (path.sends t data)).signals.pending signum = true) ↔
      ∀ signum ∈ t.signalsOf data,
        signum ∈ path.carries (t.signalsOf data) ∨ inMask p.signals.pending signum = true := by
  rw [sends_eq]
  exact forall₂_congr fun signum hmem => pending_receives _ p hgroup (validSignal_of_mem hmem)

theorem signals_pending_interrupt : new.signalsOf [3] = [SIGINT] ∧
    ∀ signum ∈ new.signalsOf [3],
      inMask (receives (Process.new 1) (inject.sends .new [3])).signals.pending signum = true :=
  ⟨by decide, (signals_pending_iff .inject .new [3] (Process.new 1) ⟨by decide, by decide⟩).mpr
    fun _ h => .inl h⟩

/-- A suspend after three interrupts, and an interrupt that a process writes to the master. -/
theorem signals_not_pending :
    inMask (receives (Process.new 1) (inject.sends .new [3, 3, 3, 0x1A])).signals.pending SIGTSTP =
        false ∧
      inMask (receives (Process.new 1) (masterWrite.sends .new [3])).signals.pending SIGINT =
        false := by
  decide

end InputPath

end PosixKernel
