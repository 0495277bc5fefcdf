import PosixKernel.Lib.Runs
import PosixKernel.Terminal

/-!
# What a Terminal Makes of Its Input

Three accounts of the input side of a terminal, each against a description of what it is for: the
bytes of raw mode, the lines of canonical mode, and what a switch of modes does to the bytes that
wait. Input processing in raw mode only decides which bytes are signals; the lines of canonical mode
lie in one buffer without their limits; and each mode has buffers of its own.

## Main results

* `Pty.rawInput_iff` — when raw mode delivers the processed input;
* `LineDiscipline.reads_lines` — when reads return the lines one by one;
* `Pty.modes_keep_input_iff` — when nothing is left behind by a switch.
-/

namespace PosixKernel

open LineDiscipline

/-! ### Raw mode -/

namespace LineDiscipline

variable (t : LineDiscipline)

/-- The processed byte: carriage returns are dropped, or the two ends of a line exchanged. -/
def rawByte (byte : UInt8) : Option UInt8 :=
  if byte = CR then
    if hasFlag t.cIflag IGNCR then none
    else if hasFlag t.cIflag ICRNL then some NL else some CR
  else if byte = NL ∧ hasFlag t.cIflag INLCR then some CR
  else some byte

/-- Whether a byte is one of the signal characters. -/
def isSignal (byte : UInt8) : Bool :=
  t.lflag ISIG && (byte = t.cCc VINTR || byte = t.cCc VQUIT || byte = t.cCc VSUSP)

/-- **What raw mode is for**: the processed byte, unless it is a signal character. -/
def rawInput (byte : UInt8) : Bytes := ((t.rawByte byte).filter (!t.isSignal ·)).toList

end LineDiscipline

namespace Pty

/-- A byte is typed; beside the pseudo-terminal stands what the slave should have before it. -/
def rawNext (s : Pty × Bytes) (byte : UInt8) : Pty × Bytes :=
  (s.1.processMasterInput byte, s.2 ++ s.1.terminal.rawInput byte)

/-- The slave reads what it should. -/
def ReadsRaw (s : Pty × Bytes) : Prop := ∀ n, (s.1.slaveRead n).1 = s.2.take n

/-- **The condition**: a signal character has no image, and finds nothing to discard or leaves it;
any other byte is its own image. -/
def RawRight (s : Pty × Bytes) (byte : UInt8) : Prop :=
  if (s.1.terminal.key byte).signum.isSome then
    s.1.terminal.rawInput byte = [] ∧ (s.1.terminal.lflag NOFLSH = true ∨ s.2 = [])
  else s.1.terminal.rawInput byte = [byte]

theorem terminal_processMasterInput (p : Pty) (byte : UInt8) :
    (p.processMasterInput byte).terminal = p.terminal.press (p.terminal.key byte) := rfl

theorem inputBuf_processMasterInput (p : Pty) (byte : UInt8) :
    (p.processMasterInput byte).inputBuf =
      (if (p.terminal.key byte).signum.isSome && !p.terminal.lflag NOFLSH then []
        else p.inputBuf) ++
        if (p.terminal.key byte).signum.isNone && !p.terminal.isCanonical then [byte] else [] := rfl

theorem isCanonical_press (t : LineDiscipline) (k : Key) :
    (t.press k).isCanonical = t.isCanonical := by
  simp [isCanonical, lflag, toTerminalState_press]

theorem readsRaw_iff {s : Pty × Bytes} (hraw : s.1.terminal.isCanonical = false) :
    ReadsRaw s ↔ s.1.inputBuf = s.2 := by
  simp only [ReadsRaw, slaveRead, hraw, Bool.false_eq_true, if_false]
  constructor
  · intro h
    have hall := h (max s.1.inputBuf.length s.2.length)
    rwa [List.take_of_length_le (le_max_left _ _),
      List.take_of_length_le (le_max_right _ _)] at hall
  · rintro h n
    rw [h]

/-- **One byte.** -/
theorem readsRaw_next_iff {s : Pty × Bytes} (hraw : s.1.terminal.isCanonical = false)
    (hbuf : s.1.inputBuf = s.2) (byte : UInt8) : ReadsRaw (rawNext s byte) ↔ RawRight s byte := by
  have hraw' : (rawNext s byte).1.terminal.isCanonical = false := by
    rw [rawNext, terminal_processMasterInput, isCanonical_press, hraw]
  rw [readsRaw_iff hraw', RawRight]
  simp only [rawNext, inputBuf_processMasterInput, hraw, hbuf]
  rcases hsig : (s.1.terminal.key byte).signum with _ | signum
  · simp only [Option.isSome_none, Bool.false_and, Bool.false_eq_true, if_false, Option.isNone_none,
      Bool.not_false, Bool.and_self, if_true, List.append_cancel_left_eq]
    exact eq_comm
  cases s.1.terminal.lflag NOFLSH with
  | true => simp
  | false =>
    simp only [Option.isSome_some, Bool.not_false, Bool.and_self, if_true, Option.isNone_some,
      Bool.false_and, Bool.false_eq_true, if_false, List.append_nil, false_or]
    rw [eq_comm, List.append_eq_nil_iff, and_comm]

/-- **Raw mode.** At every moment the slave reads the processed input, exactly if every byte meets
the condition. -/
theorem rawInput_iff (p : Pty) (hraw : p.terminal.isCanonical = false) (data : Bytes) :
    (∀ k, ReadsRaw ((data.take k).foldl rawNext (p, p.inputBuf))) ↔
      Runs rawNext RawRight (p, p.inputBuf) data := by
  refine Runs.forall_take_iff
    (I := fun s => s.1.terminal.isCanonical = false ∧ s.1.inputBuf = s.2)
    (.of_forall fun _ _ => trivial) ⟨hraw, rfl⟩ (fun _ h => (readsRaw_iff h.1).mpr h.2) ?_ ?_
  · rintro s byte ⟨hmode, hbuf⟩ - hright
    have hmode' : (rawNext s byte).1.terminal.isCanonical = false := by
      rw [rawNext, terminal_processMasterInput, isCanonical_press, hmode]
    exact ⟨hmode', (readsRaw_iff hmode').mp ((readsRaw_next_iff hmode hbuf byte).mpr hright)⟩
  · rintro s byte ⟨hmode, hbuf⟩ - hreads
    exact (readsRaw_next_iff hmode hbuf byte).mp hreads

/-- A new pseudo-terminal in raw mode. -/
def newRaw : Pty := { new with terminal := { LineDiscipline.new with cLflag := ISIG } }

/-- A pseudo-terminal in raw mode that maps nothing, and whose signal characters discard nothing. -/
def newPlain : Pty :=
  { new with terminal := { LineDiscipline.new with cIflag := 0, cLflag := ISIG ||| NOFLSH } }

/-- Both ends of a line are read, and the character that interrupts is not. -/
theorem rawInput_plain : let s := [CR, 0x03, NL, 0x61].foldl rawNext (newPlain, [])
    s.2 = [CR, NL, 0x61] ∧ ReadsRaw s :=
  ⟨rfl, (rawInput_iff newPlain rfl [CR, 0x03, NL, 0x61]).mpr
    ⟨rfl, ⟨rfl, .inl rfl⟩, rfl, rfl, trivial⟩ 4⟩

/-- A carriage return stays one. -/
theorem rawInput_carriageReturn : (([CR].foldl processMasterInput newRaw).slaveRead 1).1 = [CR] ∧
      newRaw.terminal.rawInput CR = [NL] := by
  decide

end Pty

/-! ### Lines -/

/-- The complete lines, and the one that is being typed. -/
structure Lines where
  lines : List Bytes
  line : Bytes

namespace Lines

/-- **What canonical mode is for**: every line is kept apart. -/
def press (g : Lines) (noflsh : Bool) : Key → Lines
  | .ignored | .raw => g
  | .signal _ _ => if noflsh then g else ⟨[], []⟩
  | .erase => { g with line := g.line.dropLast }
  | .kill => { g with line := [] }
  | .eof => ⟨g.lines ++ [g.line], []⟩
  | .newline b => ⟨g.lines ++ [g.line ++ [b]], []⟩
  | .regular b => { g with line := g.line ++ [b] }

/-- A read is from one line. -/
def read (g : Lines) (n : ℕ) : Except Errno Bytes × Lines :=
  match g.lines with
  | [] => (.error .EAGAIN, g)
  | l :: rest =>
    (.ok (l.take n), { g with lines := if l.length ≤ n then rest else l.drop n :: rest })

end Lines

/-- Somebody types, and somebody reads. -/
inductive LineEvent
  | typed (byte : UInt8)
  | read (n : ℕ)

namespace LineDiscipline

/-- A read in canonical mode, of a slave or of the standard input after it was fed. -/
def cookedRead (t : LineDiscipline) (n : ℕ) : Except Errno Bytes × LineDiscipline :=
  (if (t.readCooked n).1 = [] then .error .EAGAIN else .ok (t.readCooked n).1, (t.readCooked n).2)

/-- What a byte means where the control character 0 is none. -/
def enabledKey (t : LineDiscipline) : UInt8 → Key :=
  t.keyBy fun v byte => t.cCc v ≠ 0 && byte = t.cCc v

/-- The terminal, beside the lines that it should keep. -/
def lineNext (s : LineDiscipline × Lines) : LineEvent → LineDiscipline × Lines
  | .typed byte => (s.1.press (s.1.key byte), s.2.press (s.1.lflag NOFLSH) (s.1.enabledKey byte))
  | .read n => ((s.1.cookedRead n).2, (s.2.read n).2)

/-- **The condition**: no byte is taken for a control character that is disabled; and a read meets
no empty line, and no second line within its reach. -/
def LineByLine (s : LineDiscipline × Lines) : LineEvent → Prop
  | .typed byte => s.1.key byte = s.1.enabledKey byte
  | .read n => match s.2.lines with
    | [] => True
    | l :: rest => l ≠ [] ∧ n ≠ 0 ∧ (n ≤ l.length ∨ rest.flatten = [])

/-- The buffers hold the lines. -/
structure HoldsLines (s : LineDiscipline × Lines) : Prop where
  cooked : s.1.cookedBuffer = s.2.lines.flatten
  line : s.1.lineBuffer = s.2.line

theorem HoldsLines.typed {t : LineDiscipline} {g : Lines} (h : HoldsLines (t, g)) (k : Key) :
    HoldsLines (t.press k, g.press (t.lflag NOFLSH) k) := by
  obtain ⟨hcooked, hline⟩ := h
  dsimp only at hcooked hline
  cases k with
  | signal =>
    simp only [press, Lines.press]
    split
    · exact ⟨hcooked, hline⟩
    · exact ⟨rfl, rfl⟩
  | _ => constructor <;> simp [press, Lines.press, hcooked, hline]

/-- **One read.** -/
theorem HoldsLines.read {s : LineDiscipline × Lines} (h : HoldsLines s) {n : ℕ}
    (hn : LineByLine s (.read n)) :
    (s.1.cookedRead n).1 = (s.2.read n).1 ∧ HoldsLines (lineNext s (.read n)) := by
  obtain ⟨⟨hcooked, hline⟩, hn⟩ := And.intro h hn
  simp only [LineByLine] at hn
  simp only [lineNext, cookedRead, readCooked, Lines.read, hcooked]
  rcases hlines : s.2.lines with _ | ⟨l, rest⟩
  · simp only [List.flatten_nil, List.take_nil, if_true, true_and]
    exact ⟨by simp [hlines], hline⟩
  simp only [hlines] at hn
  obtain ⟨hne, hpos, hreach⟩ := hn
  have htake : (l ++ rest.flatten).take n = l.take n := by
    rcases hreach with hle | hnone
    · exact List.take_append_of_le_length hle
    · rw [hnone, List.append_nil]
  have hsome : l.take n ≠ [] := by simp [hne, hpos]
  rw [List.flatten_cons, htake, if_neg hsome]
  refine ⟨rfl, ?_, hline⟩
  dsimp only
  split
  next hall =>
    rcases hreach with hle | hnone
    · rw [List.drop_left' (hall.antisymm hle)]
    · rw [hnone, List.append_nil, List.drop_of_length_le hall]
  next hpart => rw [List.drop_append_of_le_length (not_le.mp hpart).le, List.flatten_cons]

/-- **Reads return the lines**, one at a time and edited, as long as every byte and every read meets
the condition. -/
theorem reads_lines (t : LineDiscipline) (hempty : t.cookedBuffer = [] ∧ t.lineBuffer = [])
    (earlier later : List LineEvent) (n : ℕ)
    (hrun : Runs lineNext LineByLine (t, ⟨[], []⟩) (earlier ++ .read n :: later)) :
    ((earlier.foldl lineNext (t, ⟨[], []⟩)).1.cookedRead n).1 =
      ((earlier.foldl lineNext (t, ⟨[], []⟩)).2.read n).1 := by
  obtain ⟨hholds, hn⟩ := hrun.invariant_at (I := HoldsLines) ⟨hempty.1, hempty.2⟩
    fun s e h hadm => by
      cases e with
      | typed byte =>
        have hkey : s.1.key byte = s.1.enabledKey byte := hadm
        show HoldsLines (s.1.press (s.1.key byte), s.2.press _ (s.1.enabledKey byte))
        rw [hkey]
        exact h.typed _
      | read => exact (h.read hadm).2
  exact (hholds.read hn).1

/-- One line is typed and read. -/
theorem reads_lines_one :
    (([LineEvent.typed 0x61, .typed NL].foldl lineNext (.new, ⟨[], []⟩)).1.cookedRead 8).1 =
      (([LineEvent.typed 0x61, .typed NL].foldl lineNext (.new, ⟨[], []⟩)).2.read 8).1 :=
  reads_lines .new ⟨rfl, rfl⟩ [.typed 0x61, .typed NL] [] 8
    ⟨rfl, rfl, ⟨List.cons_ne_nil _ _, by decide, .inr rfl⟩, trivial⟩

/-- The character that ends the input is typed on an empty line: no read learns of the end. -/
theorem reads_no_end : let s := [LineEvent.typed 0x04].foldl lineNext (.new, ⟨[], []⟩)
    (s.1.cookedRead 8).1 = .error .EAGAIN ∧ (s.2.read 8).1 = .ok [] := by
  decide

end LineDiscipline

/-! ### Switches of modes -/

/-- The bytes that were accepted and not erased or flushed: those of complete input, those of the
line that is being typed, and, of all of them, those that were read. -/
structure Typist where
  kept : Bytes
  line : Bytes
  returned : Bytes

namespace Typist

/-- What a byte means for what was typed before. -/
def press (g : Typist) (noflsh : Bool) : Key → Typist
  | .ignored | .raw => g
  | .signal _ _ => if noflsh then g else { g with kept := g.returned, line := [] }
  | .erase => { g with line := g.line.dropLast }
  | .kill => { g with line := [] }
  | .eof => { g with kept := g.kept ++ g.line, line := [] }
  | .newline b => { g with kept := g.kept ++ g.line ++ [b], line := [] }
  | .regular b => { g with line := g.line ++ [b] }

/-- A byte is typed; in raw mode it is accepted as it is. -/
def typed (g : Typist) (t : LineDiscipline) (byte : UInt8) : Typist :=
  if t.isCanonical || (t.key byte).signum.isSome then g.press (t.lflag NOFLSH) (t.key byte)
  else { g with kept := g.kept ++ g.line ++ [byte], line := [] }

end Typist

/-- Bytes, reads of the slave, and new attributes. -/
inductive ModeEvent
  | typed (byte : UInt8)
  | read (n : ℕ)
  | setAttr (a : TerminalState)

namespace Pty

/-- A pseudo-terminal beside an account of its input. -/
def modeNext (s : Pty × Typist) : ModeEvent → Pty × Typist
  | .typed byte => (s.1.processMasterInput byte, s.2.typed s.1.terminal byte)
  | .read n =>
    ((s.1.slaveRead n).2, { s.2 with returned := s.2.returned ++ (s.1.slaveRead n).1 })
  | .setAttr a => ({ s.1 with terminal := s.1.terminal.readTermios a }, s.2)

/-- What the slave has before it in the mode it is in. -/
def visible (p : Pty) : Bytes :=
  if p.terminal.isCanonical then p.terminal.cookedBuffer ++ p.terminal.lineBuffer else p.inputBuf

/-- **Nothing is lost or reordered**: what was kept is what was read and what the slave has before
it. -/
def KeepsInput (s : Pty × Typist) : Prop := s.2.kept ++ s.2.line = s.2.returned ++ s.1.visible

/-- **The condition**: a switch of modes finds nothing that waits. -/
def SwitchesEmpty (s : Pty × Typist) : ModeEvent → Prop
  | .setAttr a =>
    (s.1.terminal.readTermios a).isCanonical = s.1.terminal.isCanonical ∨ s.1.visible = []
  | _ => True

/-- The buffers of the other mode are empty. -/
def OneMode (s : Pty × Typist) : Prop :=
  if s.1.terminal.isCanonical then
    s.1.inputBuf = [] ∧ s.2.line = s.1.terminal.lineBuffer ∧
      s.2.kept = s.2.returned ++ s.1.terminal.cookedBuffer
  else s.1.terminal.cookedBuffer = [] ∧ s.1.terminal.lineBuffer = [] ∧ s.2.line = [] ∧
    s.2.kept = s.2.returned ++ s.1.inputBuf

variable {s : Pty × Typist}

theorem OneMode.keepsInput (h : OneMode s) : KeepsInput s := by
  rw [KeepsInput, visible]
  cases hmode : s.1.terminal.isCanonical with
  | true =>
    rw [OneMode, if_pos hmode] at h
    rw [if_pos rfl, h.2.2, h.2.1, List.append_assoc]
  | false =>
    rw [OneMode, hmode, if_neg Bool.false_ne_true] at h
    rw [if_neg Bool.false_ne_true, h.2.2.1, h.2.2.2, List.append_nil]

/-- In raw mode a byte that is no signal is not edited. -/
theorem press_key_raw {t : LineDiscipline} (hraw : t.isCanonical = false) {byte : UInt8}
    (hsig : (t.key byte).signum = none) : t.press (t.key byte) = t := by
  rw [key, keyBy] at hsig ⊢
  split at hsig
  · rfl
  simp only [hraw, Bool.not_false, if_true] at hsig ⊢
  split_ifs at hsig ⊢
  · cases hsig
  · cases hsig
  · cases hsig
  · rfl

theorem OneMode.typed (h : OneMode s) (byte : UInt8) : OneMode (modeNext s (.typed byte)) := by
  simp only [OneMode, modeNext, terminal_processMasterInput, isCanonical_press,
    inputBuf_processMasterInput, Typist.typed] at h ⊢
  cases hmode : s.1.terminal.isCanonical with
  | true =>
    simp only [hmode, if_true, Bool.true_or] at h ⊢
    obtain ⟨hin, hline, hkept⟩ := h
    cases s.1.terminal.key byte with
    | signal =>
      cases hflush : s.1.terminal.lflag NOFLSH <;>
        simp [Key.signum, press, clear, Typist.press, hflush, hin, hline,
          hkept]
    | _ => simp [Key.signum, press, Typist.press, hin, hline, hkept]
  | false =>
    simp only [hmode, Bool.false_eq_true, if_false, Bool.false_or] at h ⊢
    obtain ⟨hcooked, hbuffer, hline, hkept⟩ := h
    rcases hsig : (s.1.terminal.key byte).signum with _ | signum
    · rw [press_key_raw hmode hsig]
      simp [hcooked, hbuffer, hline, hkept]
    cases hkey : s.1.terminal.key byte with
    | signal =>
      cases hflush : s.1.terminal.lflag NOFLSH <;>
        simp [press, clear, Typist.press, hflush, hcooked, hbuffer,
          hline, hkept]
    | _ => simp [hkey, Key.signum] at hsig

theorem OneMode.read (h : OneMode s) (n : ℕ) : OneMode (modeNext s (.read n)) := by
  rcases Bool.eq_false_or_eq_true s.1.terminal.isCanonical with hmode | hmode
  · have hmode' : (s.1.terminal.readCooked n).2.isCanonical = true := hmode
    simp only [OneMode, modeNext, slaveRead, hmode, hmode', if_true] at h ⊢
    obtain ⟨hin, hline, hkept⟩ := h
    exact ⟨hin, hline, by
      rw [hkept, readCooked, List.append_assoc, List.take_append_drop]⟩
  simp only [OneMode, modeNext, slaveRead, hmode, Bool.false_eq_true, if_false] at h ⊢
  obtain ⟨hcooked, hbuffer, hline, hkept⟩ := h
  exact ⟨hcooked, hbuffer, hline, by rw [hkept, List.append_assoc, List.take_append_drop]⟩

/-- **A switch of modes** takes the buffers of the old one out of sight. -/
theorem keepsInput_setAttr_iff (h : OneMode s) (a : TerminalState) :
    (SwitchesEmpty s (.setAttr a) → OneMode (modeNext s (.setAttr a))) ∧
      (KeepsInput (modeNext s (.setAttr a)) → SwitchesEmpty s (.setAttr a)) := by
  have hsame : (s.1.terminal.readTermios a).cookedBuffer = s.1.terminal.cookedBuffer ∧
    (s.1.terminal.readTermios a).lineBuffer = s.1.terminal.lineBuffer := ⟨rfl, rfl⟩
  rcases Bool.eq_false_or_eq_true s.1.terminal.isCanonical with hmode | hmode <;>
    rcases Bool.eq_false_or_eq_true (s.1.terminal.readTermios a).isCanonical
      with hmode' | hmode' <;>
    simp_all [OneMode, SwitchesEmpty, KeepsInput, modeNext, visible]

/-- **Nothing is left behind exactly if every switch of modes finds nothing that waits.** -/
theorem modes_keep_input_iff (p : Pty) (g : Typist) (hstart : OneMode (p, g))
    (events : List ModeEvent) : (∀ k, KeepsInput ((events.take k).foldl modeNext (p, g))) ↔
      Runs modeNext SwitchesEmpty (p, g) events := by
  refine Runs.forall_take_iff (I := OneMode) (.of_forall fun _ _ => trivial) hstart
    (fun _ h => h.keepsInput) ?_ ?_
  · rintro s e h - hadm
    cases e with
    | typed byte => exact h.typed byte
    | read n => exact h.read n
    | setAttr a => exact (keepsInput_setAttr_iff h a).1 hadm
  rintro s e h - hkeeps
  cases e with
  | typed => trivial
  | read => trivial
  | setAttr a => exact (keepsInput_setAttr_iff h a).2 hkeeps

/-- A letter is read before the switch. -/
theorem modes_keep_input_read :
    KeepsInput (([ModeEvent.typed 0x61, .read 1, .setAttr .new].take 3).foldl modeNext
      (newRaw, ⟨[], [], []⟩)) :=
  (modes_keep_input_iff newRaw ⟨[], [], []⟩ ⟨rfl, rfl, rfl, rfl⟩
    [.typed 0x61, .read 1, .setAttr .new]).mpr ⟨trivial, trivial, .inr rfl, trivial⟩ 3

/-- A letter waits at the switch, and is not read after it. -/
theorem modes_lose_input :
    let s := [ModeEvent.typed 0x61, .setAttr .new].foldl modeNext (newRaw, ⟨[], [], []⟩)
    s.2.kept = [0x61] ∧ (s.1.slaveRead 1).1 = [] := by
  decide

end Pty

end PosixKernel
