import PosixKernel.Lib.BoundedQueue
import PosixKernel.Terminal

/-!
# The Ends of a Pseudo-Terminal

Descriptions on the two sides of a pseudo-terminal come and go while bytes wait in its buffers. A
read looks at the other side first: once it is closed the read is at its end, whatever still waits.

## Main results

* `Pty.ends_after_data_iff` — when every byte is read before the end of file;
* `Pty.ends_before_data` — a byte that is not.
-/

namespace PosixKernel

open BoundedQueue (Flow)

/-- What happens to a pseudo-terminal. The host types (`inject`) and shows (`drain`) without a
description of its own. -/
inductive PtyEvent
  | write (s : PtySide) (data : Bytes)
  | inject (data : Bytes)
  | read (s : PtySide) (n : ℕ)
  | drain (n : ℕ)
  | opened (s : PtySide)
  | closed (s : PtySide)
  | setAttr (a : TerminalState)
  | flush (input output : Bool)

namespace Pty

/-- A call, with the bytes it returns. A side without descriptions has no callers; a slave is opened
by its name, a master only inherited; and a pair without descriptions is gone. -/
def call (p : Pty) : PtyEvent → Except Errno Bytes × Pty
  | .write s data =>
    if p.refs s = 0 then (.error .EBADF, p)
    else ((p.sysWrite s data).1.map fun _ => [], (p.sysWrite s data).2)
  | .inject data =>
    if p.isAlive then (.ok [], data.foldl processMasterInput p) else (.error .ENOENT, p)
  | .read s n => if p.refs s = 0 then (.error .EBADF, p) else p.sysRead s n
  | .drain n =>
    if p.isAlive then (.ok (p.masterRead n).1, (p.masterRead n).2) else (.error .ENOENT, p)
  | .opened s =>
    if p.isAlive ∧ (s = .master → p.masterRefs ≠ 0) then
      (.ok [], { p with toPtyPair := p.toPtyPair.addSide s })
    else (.error .ENOENT, p)
  | .closed s => (.ok [], { p with toPtyPair := p.toPtyPair.dropSide s })
  | .setAttr a => (.ok [], { p with terminal := p.terminal.readTermios a })
  | .flush input output =>
    (.ok [],
      { p with
        terminal := if input then p.terminal.clear else p.terminal
        inputBuf := if input then [] else p.inputBuf
        outputBuf := if output then [] else p.outputBuf })

/-- What the line discipline has made available to the slave. -/
def available (p : Pty) : Bytes := p.terminal.cookedBuffer ++ p.inputBuf

end Pty

/-- An observer of the output: what was put out, with the echo, and not flushed, what was read of
it, and how many of the bytes that wait are up to the last one the slave wrote. -/
structure PtyLog extends Flow UInt8 where
  owed : ℕ

/-- Take an event down. -/
def PtyLog.record (l : PtyLog) (p : Pty) (e : PtyEvent) : PtyLog :=
  let r := p.call e
  match e with
  | .write .slave data =>
    { l with
      accepted := l.accepted ++ r.2.outputBuf.drop p.outputBuf.length
      owed := if r.1.toOption = none ∨ data = [] then l.owed else r.2.outputBuf.length }
  | .write .master _ | .inject _ =>
    { l with accepted := l.accepted ++ r.2.outputBuf.drop p.outputBuf.length }
  | .read .master _ | .drain _ =>
    { l with
      delivered := l.delivered ++ r.1.toOption.getD []
      owed := l.owed - (r.1.toOption.getD []).length }
  | .flush _ true => { l with accepted := l.delivered, owed := 0 }
  | _ => l

namespace Pty

/-- An event, beside the observer. -/
def endsNext (s : Pty × PtyLog) (e : PtyEvent) : Pty × PtyLog := ((s.1.call e).2, s.2.record s.1 e)

/-- **The end comes last**: output is read in order; a master read is at its end only when every
byte of the slave has been read, and a slave read only when nothing is available. -/
def EndsAfterData (s : Pty × PtyLog) : Prop :=
  s.2.accepted = s.2.delivered ++ s.1.outputBuf ∧
    (∀ n, (s.1.call (.read .master n)).1 = .ok [] → s.2.owed = 0) ∧
    ∀ n, (s.1.call (.read .slave n)).1 = .ok [] → s.1.available = []

/-- **The condition**: the last description of a side goes while the other side, if it is open, has
nothing to read; and nothing is typed for a slave without a master. -/
def ClosesEmpty (s : Pty × PtyLog) : PtyEvent → Prop
  | .closed .slave => s.1.slaveRefs = 1 → s.1.masterRefs ≠ 0 → s.2.owed = 0
  | .closed .master => s.1.masterRefs = 1 → s.1.slaveRefs ≠ 0 → s.1.available = []
  | .inject data => s.1.masterRefs = 0 → s.1.slaveRefs ≠ 0 →
    (data.foldl processMasterInput s.1).available = []
  | _ => True

theorem call_read_eq_end_iff (p : Pty) (s : PtySide) (n : ℕ) :
    (p.call (.read s n)).1 = .ok [] ↔ p.refs s ≠ 0 ∧ p.refs s.other = 0 := by
  simp only [call, sysRead]
  by_cases hopen : p.refs s = 0
  · simp [hopen]
  by_cases hother : p.refs s.other = 0
  · simp [hopen, hother]
  simp only [hopen, hother, if_false, ne_eq, not_false_eq_true, true_and, iff_false]
  split
  · exact nofun
  next hsome => exact fun h => hsome (Except.ok.inj h)

theorem endsAfterData_iff (s : Pty × PtyLog) :
    EndsAfterData s ↔ s.2.accepted = s.2.delivered ++ s.1.outputBuf ∧
      (s.1.masterRefs ≠ 0 → s.1.slaveRefs = 0 → s.2.owed = 0) ∧
      (s.1.slaveRefs ≠ 0 → s.1.masterRefs = 0 → s.1.available = []) := by
  simp only [EndsAfterData, call_read_eq_end_iff, and_imp, forall_const]
  rfl

/-- What is typed leaves the descriptions and only adds to the output. -/
theorem feed_keeps (data : Bytes) (p : Pty) :
    (data.foldl processMasterInput p).toPtyPair = p.toPtyPair ∧
      p.outputBuf <+: (data.foldl processMasterInput p).outputBuf := by
  induction data generalizing p with
  | nil => exact ⟨rfl, List.prefix_refl _⟩
  | cons b data ih =>
    obtain ⟨hpair, hout⟩ := ih (p.processMasterInput b)
    exact ⟨hpair, (List.prefix_append _ _).trans hout⟩

theorem append_drop_of_prefix {a d out out' : Bytes} (h : a = d ++ out) (hout : out <+: out') :
    a ++ out'.drop out.length = d ++ out' := by
  obtain ⟨more, rfl⟩ := hout
  rw [h, List.drop_left, List.append_assoc]

/-- A read of the slave leaves all but its own buffers. -/
theorem slaveRead_keeps (p : Pty) (n : ℕ) :
    (p.slaveRead n).2.toPtyPair = p.toPtyPair ∧ (p.slaveRead n).2.outputBuf = p.outputBuf ∧
      (p.available = [] → (p.slaveRead n).2.available = []) := by
  rw [slaveRead]
  split
  · refine ⟨rfl, rfl, fun h => ?_⟩
    obtain ⟨hcooked, hin⟩ := List.append_eq_nil_iff.mp h
    exact List.append_eq_nil_iff.mpr ⟨by simp [LineDiscipline.readCooked, hcooked], hin⟩
  refine ⟨rfl, rfl, fun h => ?_⟩
  obtain ⟨hcooked, hin⟩ := List.append_eq_nil_iff.mp h
  exact List.append_eq_nil_iff.mpr ⟨hcooked, by simp [hin]⟩

/-- A write leaves the descriptions and only adds to the output; without both sides it does
nothing. -/
theorem write_keeps (p : Pty) (side : PtySide) (data : Bytes) :
    let r := p.call (.write side data)
    r.2.toPtyPair = p.toPtyPair ∧ p.outputBuf <+: r.2.outputBuf ∧
      (p.masterRefs = 0 ∨ p.slaveRefs = 0 → r.2 = p ∧ (r.1.toOption = none ∨ data = [])) := by
  have hrefs : p.refs side = 0 ∨ p.refs side.other = 0 ↔ p.masterRefs = 0 ∨ p.slaveRefs = 0 := by
    cases side with
    | master => rfl
    | slave => exact or_comm
  rw [← hrefs]
  simp only [call, sysWrite]
  split
  · exact ⟨rfl, List.prefix_refl _, fun _ => ⟨rfl, .inl rfl⟩⟩
  next hopen =>
    split
    next hnone => exact ⟨rfl, List.prefix_refl _, fun _ => ⟨rfl, .inr hnone⟩⟩
    next hdata =>
      split
      · exact ⟨rfl, List.prefix_refl _, fun _ => ⟨rfl, .inl rfl⟩⟩
      next hother =>
        have hnot : ¬ (p.refs side = 0 ∨ p.refs side.other = 0) := not_or.mpr ⟨hopen, hother⟩
        cases side with
        | master =>
          obtain ⟨hpair, hout⟩ := feed_keeps data p
          exact ⟨hpair, hout, fun h => absurd h hnot⟩
        | slave => exact ⟨rfl, List.prefix_append _ _, fun h => absurd h hnot⟩

variable {s : Pty × PtyLog}

variable (h : EndsAfterData s)

include h

theorem EndsAfterData.write (side : PtySide) (data : Bytes) :
    EndsAfterData (endsNext s (.write side data)) := by
  rw [endsAfterData_iff] at h ⊢
  obtain ⟨hpair, hout, hidle⟩ := write_keeps s.1 side data
  obtain ⟨hflow, hmaster, hslave⟩ := h
  have hflow' := append_drop_of_prefix hflow hout
  simp only [endsNext, hpair]
  refine ⟨by cases side <;> exact hflow', fun hopen hgone => ?_, fun hopen hgone => ?_⟩
  · obtain ⟨-, hnone⟩ := hidle (.inr hgone)
    cases side with
    | master => exact hmaster hopen hgone
    | slave => simpa only [PtyLog.record, if_pos hnone] using hmaster hopen hgone
  · rw [(hidle (.inl hgone)).1]
    exact hslave hopen hgone

/-- What is read of the output. -/
theorem EndsAfterData.shown (n : ℕ) :
    EndsAfterData ((s.1.masterRead n).2,
      { s.2 with
        delivered := s.2.delivered ++ (s.1.masterRead n).1
        owed := s.2.owed - (s.1.masterRead n).1.length }) := by
  rw [endsAfterData_iff] at h ⊢
  obtain ⟨hflow, hmaster, hslave⟩ := h
  refine ⟨by simp [masterRead, hflow], fun hopen hgone => ?_, hslave⟩
  rw [hmaster hopen hgone]
  exact Nat.zero_sub _

theorem EndsAfterData.read (side : PtySide) (n : ℕ) :
    EndsAfterData (endsNext s (.read side n)) := by
  cases side with
  | master =>
    simp only [endsNext, call, PtyLog.record, sysRead, sideRead]
    split
    · simpa [Except.toOption] using h
    split
    · simpa [Except.toOption] using h
    by_cases hnone : (s.1.masterRead n).1 = []
    · simpa [Except.toOption, hnone] using h.shown n
    · simpa [Except.toOption, hnone] using h.shown n
  | slave =>
    rw [endsAfterData_iff] at h ⊢
    simp only [endsNext, call, PtyLog.record, sysRead, sideRead]
    split
    · exact h
    split
    · exact h
    obtain ⟨hpair, hout, hnone⟩ := slaveRead_keeps s.1 n
    simp only [hpair, hout]
    exact ⟨h.1, h.2.1, fun hopen hgone => hnone (h.2.2 hopen hgone)⟩

/-- **One event.** -/
theorem endsAfterData_next_iff (e : PtyEvent) : EndsAfterData (endsNext s e) ↔ ClosesEmpty s e := by
  obtain ⟨hflow, hmaster, hslave⟩ := (endsAfterData_iff _).mp h
  cases e with
  | write side data => exact iff_of_true (h.write side data) trivial
  | inject data =>
    obtain ⟨hpair, hout⟩ := feed_keeps data s.1
    rw [endsAfterData_iff]
    simp only [endsNext, call, PtyLog.record, ClosesEmpty]
    split
    next halive =>
      simp only [hpair, append_drop_of_prefix hflow hout, true_and]
      exact ⟨fun hnext hgone hopen => hnext.2 hopen hgone,
        fun hnext => ⟨hmaster, fun hopen hgone => hnext hgone hopen⟩⟩
    next hdead =>
      simp only [PtyPair.isAlive, Bool.or_eq_true, decide_eq_true_eq, not_or, not_lt,
        Nat.le_zero] at hdead
      simp [hflow, hdead]
  | read side n => exact iff_of_true (h.read side n) trivial
  | drain n =>
    refine iff_of_true ?_ trivial
    simp only [endsNext, call, PtyLog.record]
    split
    · exact h.shown n
    · simpa [Except.toOption] using h
  | opened side =>
    refine iff_of_true ((endsAfterData_iff _).mpr ?_) trivial
    simp only [endsNext, call, PtyLog.record]
    split
    next hmay =>
      simp only [PtyPair.isAlive, Bool.or_eq_true, decide_eq_true_eq] at hmay
      cases side with
      | master =>
        exact ⟨hflow, fun _ => hmaster (hmay.2 rfl), fun _ hgone => (Nat.succ_ne_zero _ hgone).elim⟩
      | slave =>
        refine ⟨hflow, fun _ hgone => (Nat.succ_ne_zero _ hgone).elim, fun _ hgone => ?_⟩
        rcases hmay.1 with hpos | hpos
        · exact absurd hgone hpos.ne'
        · exact hslave hpos.ne' hgone
    · exact ⟨hflow, hmaster, hslave⟩
  | closed side =>
    rw [endsAfterData_iff]
    cases side with
    | master =>
      simp only [endsNext, call, PtyLog.record, ClosesEmpty, PtyPair.dropSide, hflow, true_and]
      constructor
      · exact fun hnext hlast hopen => hnext.2 hopen (by omega)
      exact fun hlast => ⟨fun hopen => hmaster (by omega), fun hopen hgone => by
        by_cases hone : s.1.masterRefs = 1
        · exact hlast hone hopen
        · exact hslave hopen (by omega)⟩
    | slave =>
      simp only [endsNext, call, PtyLog.record, ClosesEmpty, PtyPair.dropSide, hflow, true_and]
      constructor
      · exact fun hnext hlast hopen => hnext.1 hopen (by omega)
      exact fun hlast => ⟨fun hopen hgone => by
        by_cases hone : s.1.slaveRefs = 1
        · exact hlast hone hopen
        · exact hmaster hopen (by omega), fun hopen => hslave (by omega)⟩
  | setAttr => exact iff_of_true ((endsAfterData_iff _).mpr ⟨hflow, hmaster, hslave⟩) trivial
  | flush input output =>
    refine iff_of_true ((endsAfterData_iff _).mpr ?_) trivial
    have havailable : s.1.available = [] → (s.1.call (.flush input output)).2.available = [] := by
      cases input with
      | true => exact fun _ => rfl
      | false => exact id
    cases output with
    | true =>
      exact ⟨(List.append_nil _).symm, fun _ _ => rfl,
        fun hopen hgone => havailable (hslave hopen hgone)⟩
    | false => exact ⟨hflow, hmaster, fun hopen hgone => havailable (hslave hopen hgone)⟩

omit h

/-- **The end comes last exactly if every last close finds nothing to read.** -/
theorem ends_after_data_iff (p : Pty) (l : PtyLog) (h : EndsAfterData (p, l))
    (events : List PtyEvent) : (∀ k, EndsAfterData ((events.take k).foldl endsNext (p, l))) ↔
      Runs endsNext ClosesEmpty (p, l) events :=
  Runs.forall_take_iff (I := EndsAfterData) (.of_forall fun _ _ => trivial) h (fun _ h => h)
    (fun _ e h _ hadm => (endsAfterData_next_iff h e).mpr hadm)
    (fun _ e h _ hnext => (endsAfterData_next_iff h e).mp hnext)

/-- A pseudo-terminal with one description on each side. -/
def newOpen : Pty := { new with masterRefs := 1, slaveRefs := 1 }

theorem ends_after_data_read :
    EndsAfterData (([PtyEvent.write .slave [0x61], .read .master 1, .closed .slave].take 3).foldl
      endsNext (newOpen, ⟨⟨[], []⟩, 0⟩)) :=
  (ends_after_data_iff newOpen ⟨⟨[], []⟩, 0⟩
    ((endsAfterData_iff _).mpr ⟨rfl, fun _ _ => rfl, fun _ _ => rfl⟩)
    [.write .slave [0x61], .read .master 1, .closed .slave]).mpr
    ⟨trivial, trivial, fun _ _ => rfl, trivial⟩ 3

/-- The slave is closed before its byte is read. -/
theorem ends_before_data :
    let s := [PtyEvent.write .slave [0x61], .closed .slave].foldl endsNext (newOpen, ⟨⟨[], []⟩, 0⟩)
    (s.1.call (.read .master 1)).1 = .ok [] ∧ s.1.outputBuf = [0x61] ∧ s.2.owed = 1 := by
  decide

end Pty

end PosixKernel
