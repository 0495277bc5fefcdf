import PosixKernel.Process

/-!
# Terminals

The line discipline of a terminal (`terminal.rs`), the two sides of a pseudo-terminal (`pty.rs`) and
the calls that read and write them. What is typed in canonical mode is edited in a line and, line by
line, becomes readable in the cooked buffer; otherwise a byte is readable at once, in the input
buffer of the pseudo-terminal. Control characters are compared with the byte that input processing
makes of the one typed.

## Main definitions

* `LineDiscipline.key`, `LineDiscipline.press` — what a byte means and does;
* `Pty.processMasterInput`, `Pty.sysRead` — a pseudo-terminal.
-/

namespace PosixKernel

def SIGINT : ℕ := 2
def SIGQUIT : ℕ := 3

def ISIG : UInt32 := 0o0001
def ICANON : UInt32 := 0o0002
def ECHO : UInt32 := 0o0010
def ECHOE : UInt32 := 0o0020
def ECHOK : UInt32 := 0o0040
def ECHONL : UInt32 := 0o0100
def NOFLSH : UInt32 := 0o0200

def INLCR : UInt32 := 0o0100
def IGNCR : UInt32 := 0o0200
def ICRNL : UInt32 := 0o0400

def OPOST : UInt32 := 0o0001
def ONLCR : UInt32 := 0o0004

instance : NeZero NCCS := ⟨by decide⟩

def VINTR : Fin NCCS := 0
def VQUIT : Fin NCCS := 1
def VERASE : Fin NCCS := 2
def VKILL : Fin NCCS := 3
def VEOF : Fin NCCS := 4
def VSUSP : Fin NCCS := 10
def VEOL : Fin NCCS := 11

def NL : UInt8 := 0x0A
def CR : UInt8 := 0x0D

/-! ### The line discipline -/

/-- A terminal with the line that is being edited and the lines that are complete. -/
structure LineDiscipline extends TerminalState where
  lineBuffer : Bytes
  cookedBuffer : Bytes

def LineDiscipline.new : LineDiscipline := ⟨.new, [], []⟩

/-- What a typed byte means. -/
inductive Key
  | ignored
  | signal (signum : ℕ) (byte : UInt8)
  | raw
  | erase
  | kill
  | eof
  | newline (byte : UInt8)
  | regular (byte : UInt8)
  deriving DecidableEq

def Key.signum : Key → Option ℕ
  | .signal signum _ => some signum
  | _ => none

namespace LineDiscipline

def lflag (t : LineDiscipline) (flag : UInt32) : Bool := hasFlag t.cLflag flag

def isCanonical (t : LineDiscipline) : Bool := t.lflag ICANON

/-- What input processing makes of a byte; a carriage return may be dropped. -/
def mapInput (t : LineDiscipline) (byte : UInt8) : Option UInt8 :=
  if hasFlag t.cIflag ICRNL ∧ byte = CR then some NL
  else if hasFlag t.cIflag INLCR ∧ byte = NL then some CR
  else if hasFlag t.cIflag IGNCR ∧ byte = CR then none
  else some byte

/-- The tests of `process_input_byte` in their order; `is` knows the control characters. -/
def keyBy (t : LineDiscipline) (is : Fin NCCS → UInt8 → Bool) (byte : UInt8) : Key :=
  match t.mapInput byte with
  | none => .ignored
  | some byte =>
    if t.lflag ISIG && is VINTR byte then .signal SIGINT byte
    else if t.lflag ISIG && is VQUIT byte then .signal SIGQUIT byte
    else if t.lflag ISIG && is VSUSP byte then .signal SIGTSTP byte
    else if !t.isCanonical then .raw
    else if is VERASE byte then .erase
    else if is VKILL byte then .kill
    else if is VEOF byte then .eof
    else if byte = NL || is VEOL byte then .newline byte
    else .regular byte

/-- What a byte means here. -/
def key (t : LineDiscipline) : UInt8 → Key := t.keyBy fun v byte => byte = t.cCc v

/-- Forget what has been typed. -/
def clear (t : LineDiscipline) : LineDiscipline := { t with lineBuffer := [], cookedBuffer := [] }

/-- What a byte does. -/
def press (t : LineDiscipline) : Key → LineDiscipline
  | .ignored | .raw => t
  | .signal _ _ => if t.lflag NOFLSH then t else t.clear
  | .erase => { t with lineBuffer := t.lineBuffer.dropLast }
  | .kill => { t with lineBuffer := [] }
  | .eof => { t with cookedBuffer := t.cookedBuffer ++ t.lineBuffer, lineBuffer := [] }
  | .newline b => { t with cookedBuffer := t.cookedBuffer ++ t.lineBuffer ++ [b], lineBuffer := [] }
  | .regular b => { t with lineBuffer := t.lineBuffer ++ [b] }

/-- Backspace, space, backspace. -/
def rubout : Bytes := [0x08, 0x20, 0x08]

/-- What a byte shows. -/
def echo (t : LineDiscipline) : Key → Bytes
  | .signal _ b => if t.lflag ECHO then [0x5E, b ^^^ 0x40, NL] else []
  | .erase => if t.lineBuffer ≠ [] ∧ t.lflag ECHO ∧ t.lflag ECHOE then rubout else []
  | .kill => if t.lflag ECHO ∧ t.lflag ECHOK then t.lineBuffer.flatMap fun _ => rubout else []
  | .newline b => if t.lflag ECHO ∨ t.lflag ECHONL ∧ b = NL then [b] else []
  | .regular b => if t.lflag ECHO then [b] else []
  | .ignored | .raw | .eof => []

/-- `process_input_byte`: what is shown, a signal, and what becomes of the terminal. -/
def processInputByte (t : LineDiscipline) (byte : UInt8) :
    (Bytes × Option ℕ) × LineDiscipline :=
  ((t.echo (t.key byte), (t.key byte).signum), t.press (t.key byte))

def readCooked (t : LineDiscipline) (n : ℕ) : Bytes × LineDiscipline :=
  (t.cookedBuffer.take n, { t with cookedBuffer := t.cookedBuffer.drop n })

/-- `tcsetattr`. -/
def readTermios (t : LineDiscipline) (a : TerminalState) : LineDiscipline :=
  { t with
    cIflag := a.cIflag
    cOflag := a.cOflag
    cCflag := a.cCflag
    cLflag := a.cLflag
    cCc := a.cCc }

/-- Output processing. -/
def processOutput (t : LineDiscipline) (data : Bytes) : Bytes :=
  data.flatMap fun b =>
    if hasFlag t.cOflag OPOST ∧ hasFlag t.cOflag ONLCR ∧ b = NL then [CR, NL] else [b]

theorem toTerminalState_press (t : LineDiscipline) (k : Key) :
    (t.press k).toTerminalState = t.toTerminalState := by
  cases k with
  | signal =>
    simp only [press]
    split <;> rfl
  | _ => rfl

end LineDiscipline

/-! ### Pseudo-terminals -/

def PtySide.other : PtySide → PtySide
  | .master => .slave
  | .slave => .master

/-- A pseudo-terminal with its terminal and its buffers. -/
structure Pty extends PtyPair where
  terminal : LineDiscipline
  inputBuf : Bytes
  outputBuf : Bytes

namespace Pty

def new : Pty := ⟨.new, .new, [], []⟩

/-- What a typed byte does; its signal is that of `processInputByte`. -/
def processMasterInput (p : Pty) (byte : UInt8) : Pty :=
  let t := p.terminal
  let r := t.processInputByte byte
  let raw := r.1.2.isNone && !t.isCanonical
  { p with
    terminal := r.2
    inputBuf := (if r.1.2.isSome && !t.lflag NOFLSH then [] else p.inputBuf) ++
      if raw then [byte] else []
    outputBuf := p.outputBuf ++
      t.processOutput (r.1.1 ++ if raw && t.lflag ECHO then [byte] else []) }

def slaveRead (p : Pty) (n : ℕ) : Bytes × Pty :=
  if p.terminal.isCanonical then
    ((p.terminal.readCooked n).1, { p with terminal := (p.terminal.readCooked n).2 })
  else (p.inputBuf.take n, { p with inputBuf := p.inputBuf.drop n })

def slaveWrite (p : Pty) (data : Bytes) : Pty :=
  { p with outputBuf := p.outputBuf ++ p.terminal.processOutput data }

def masterRead (p : Pty) (n : ℕ) : Bytes × Pty :=
  (p.outputBuf.take n, { p with outputBuf := p.outputBuf.drop n })

/-- Write to a side. The process that writes to a side whose other side is closed also gets
`SIGPIPE`. -/
def sysWrite (p : Pty) (s : PtySide) (data : Bytes) : Except Errno ℕ × Pty :=
  if data = [] then (.ok 0, p)
  else if p.refs s.other = 0 then (.error Errno.EIO, p)
  else
    (.ok data.length,
      match s with
      | .master => data.foldl processMasterInput p
      | .slave => p.slaveWrite data)

def sideRead (p : Pty) : PtySide → ℕ → Bytes × Pty
  | .master => p.masterRead
  | .slave => p.slaveRead

/-- Read from a side. Once the other side is closed this is its end. -/
def sysRead (p : Pty) (s : PtySide) (n : ℕ) : Except Errno Bytes × Pty :=
  if p.refs s.other = 0 then (.ok [], p)
  else
    let r := p.sideRead s n
    (if r.1 = [] then .error .EAGAIN else .ok r.1, r.2)

end Pty

end PosixKernel
