import PosixKernel.Process
import PosixKernel.SignalSets

/-!
# Threads and their Signals

A process with its threads (`process.rs`). The main thread has no record of its own: its
mask is the mask of the process, and the signals directed at it are those of the process.
Every other thread has a record with its own mask, its own pending signals, and the mask
that a `sigsuspend` set aside. A signal is therefore pending in one of several places, the
process or one of its threads, and a thread takes it from its own place first.

## Main results

* `ThreadedProcess.pendingAt_setPendingAt` — the places where signals are pending are
  independent of each other;
* `ThreadedProcess.inMask_pendingFor`, `ThreadedProcess.has_sourceOf` — a signal is pending
  for a thread when it is pending in the place the thread takes it from;
* `ThreadedProcess.SameButPending` — what taking and sending signals leaves alone.
-/

namespace PosixKernel

/-! ### Threads -/

/-- The signals of a thread: its own pending ones, its mask, and the mask that a wait set
aside. -/
structure PerThreadSignalState extends PendingSignals where
  blocked : UInt64
  sigsuspendSavedMask : Option UInt64
  deriving DecidableEq

/-- A thread other than the main one. -/
structure ThreadInfo where
  tid : ℕ
  signals : PerThreadSignalState
  deriving DecidableEq

/-- A new thread. -/
def ThreadInfo.new (tid : ℕ) : ThreadInfo := ⟨tid, ⟨.empty, 0, none⟩⟩

/-- The alternate signal stack of a process. -/
structure AltStack where
  sp : UInt64
  flags : UInt32
  size : UInt64
  depth : ℕ
  deriving DecidableEq

def SS_ONSTACK : UInt32 := 1
def SS_DISABLE : UInt32 := 2
def SA_ONSTACK : UInt32 := 0x08000000

/-- What a process records about its threads. -/
structure ThreadRecord where
  threads : List ThreadInfo
  nextTid : ℕ
  sigsuspendSavedMask : Option UInt64
  altStack : AltStack
  deriving DecidableEq

/-- The record of a process that has only its main thread: a new one, a forked or spawned
child, and a process after exec. -/
def ThreadRecord.single : ThreadRecord := ⟨[], 0, none, ⟨0, SS_DISABLE, 0, 0⟩⟩

/-- A process with its threads. -/
structure ThreadedProcess extends Process, ThreadRecord

/-- A new process. -/
def ThreadedProcess.new (pid : ℕ) : ThreadedProcess := ⟨Process.new pid, .single⟩

/-- Where a signal is pending. -/
inductive Target
  | process
  | thread (tid : ℕ)
  deriving DecidableEq

/-- Change the first thread with a number. -/
def updThreads (tid : ℕ) (f : ThreadInfo → ThreadInfo) : List ThreadInfo → List ThreadInfo
  | [] => []
  | t :: ts => if t.tid = tid then f t :: ts else t :: updThreads tid f ts

/-- The thread of a number after one thread changed. -/
theorem find?_updThreads (tid q : ℕ) {f : ThreadInfo → ThreadInfo} (hf : ∀ t, (f t).tid = t.tid)
    (ts : List ThreadInfo) : (updThreads tid f ts).find? (fun t => t.tid = q) =
      if q = tid then (ts.find? fun t => t.tid = q).map f else ts.find? fun t => t.tid = q := by
  induction ts with
  | nil => simp [updThreads]
  | cons t ts ih =>
    rw [updThreads]
    by_cases ht : t.tid = tid
    · rw [if_pos ht]
      by_cases hq : q = tid
      · simp [hq, hf, ht]
      have htq : t.tid ≠ q := fun h => hq (h.symm.trans ht)
      have hftq : (f t).tid ≠ q := by rwa [hf]
      rw [if_neg hq, List.find?_cons_of_neg (by simpa using hftq),
        List.find?_cons_of_neg (by simpa using htq)]
    rw [if_neg ht]
    by_cases htq : t.tid = q
    · have hq : q ≠ tid := fun h => ht (htq.trans h)
      simp [htq, hq]
    · rw [List.find?_cons_of_neg (by simpa using htq), ih,
        List.find?_cons_of_neg (by simpa using htq)]

namespace ThreadedProcess

/-- Whether a number names the main thread. The host uses 0 for calls from it. -/
def isMainThread (p : ThreadedProcess) (tid : ℕ) : Bool := tid = 0 || tid = p.pid

/-- The first thread with a number. -/
def getThread (p : ThreadedProcess) (tid : ℕ) : Option ThreadInfo :=
  p.threads.find? fun t => t.tid = tid

/-- The record of a thread other than the main one. -/
def worker (p : ThreadedProcess) (tid : ℕ) : Option ThreadInfo :=
  if p.isMainThread tid then none else p.getThread tid

/-- Change the signals of a thread. -/
def updThread (p : ThreadedProcess) (tid : ℕ)
    (f : PerThreadSignalState → PerThreadSignalState) : ThreadedProcess :=
  { p with threads := updThreads tid (fun t => { t with signals := f t.signals }) p.threads }

/-- Change the signals of the process. -/
def updSignals (p : ThreadedProcess) (f : SignalState → SignalState) : ThreadedProcess :=
  { p with signals := f p.signals }

/-- The mask of a thread; an unknown thread counts as the main one. -/
def blockedFor (p : ThreadedProcess) (tid : ℕ) : UInt64 :=
  match p.worker tid with
  | some t => t.signals.blocked
  | none => p.signals.blocked

/-- Replace the mask of a thread. -/
def setBlockedFor (p : ThreadedProcess) (tid : ℕ) (mask : UInt64) : ThreadedProcess :=
  match p.worker tid with
  | some _ => p.updThread tid fun s => { s with blocked := mask }
  | none => p.updSignals fun s => { s with blocked := mask }

/-- What could be delivered to a thread if nothing were blocked. -/
def pendingFor (p : ThreadedProcess) (tid : ℕ) : UInt64 :=
  match p.worker tid with
  | some t => p.signals.pending ||| t.signals.pending
  | none => p.signals.pending

/-- What can be delivered to a thread. -/
def deliverableFor (p : ThreadedProcess) (tid : ℕ) : UInt64 :=
  p.pendingFor tid &&& ~~~ p.blockedFor tid

/-- The mask that a wait of a thread set aside; an unknown thread has none. -/
def sigsuspendSavedMaskFor (p : ThreadedProcess) (tid : ℕ) : Option UInt64 :=
  if p.isMainThread tid then p.sigsuspendSavedMask
  else (p.getThread tid).bind fun t => t.signals.sigsuspendSavedMask

/-- Set or drop the mask that a wait of a thread sets aside. -/
def setSigsuspendSavedMaskFor (p : ThreadedProcess) (tid : ℕ) (val : Option UInt64) :
    ThreadedProcess :=
  if p.isMainThread tid then { p with sigsuspendSavedMask := val }
  else p.updThread tid fun s => { s with sigsuspendSavedMask := val }

/-- Take back the mask that a wait of a thread set aside. -/
def takeSigsuspendSavedMaskFor (p : ThreadedProcess) (tid : ℕ) :
    Option UInt64 × ThreadedProcess :=
  (p.sigsuspendSavedMaskFor tid, p.setSigsuspendSavedMaskFor tid none)

/-- The signals pending in a place. -/
def pendingAt (p : ThreadedProcess) : Target → PendingSignals
  | .process => p.signals.shared
  | .thread tid =>
    match p.worker tid with
    | some t => t.signals.toPendingSignals
    | none => .empty

/-- Replace the signals pending in a place. -/
def setPendingAt (p : ThreadedProcess) (w : PendingSignals) : Target → ThreadedProcess
  | .process => p.updSignals fun s => s.withShared w
  | .thread tid => p.updThread tid fun s => { s with toPendingSignals := w }

/-- Where a thread takes a signal from: its own place if the signal is pending there,
otherwise the process. -/
def sourceOf (p : ThreadedProcess) (tid signum : ℕ) : Target :=
  if (p.pendingAt (.thread tid)).has signum then .thread tid else .process

/-- Take one pending instance of a signal for a thread. -/
def dequeueSignalFor (p : ThreadedProcess) (tid signum : ℕ) : (ℤ × ℤ) × ThreadedProcess :=
  let source := p.sourceOf tid signum
  let r := (p.pendingAt source).consumeOne signum
  (r.1, p.setPendingAt r.2 source)

/-- Make a signal pending in a place. -/
def raiseAt (p : ThreadedProcess) (target : Target) (signum : ℕ) (siValue siCode : ℤ) :
    ThreadedProcess :=
  p.setPendingAt ((p.pendingAt target).raiseInternal signum siValue siCode) target

/-- Whether a place is there. -/
def knows (p : ThreadedProcess) : Target → Bool
  | .process => true
  | .thread tid => (p.worker tid).isSome

/-! ### Lookups after a change -/

section Lookups

variable (p : ThreadedProcess)

/-- The same of a process. -/
theorem getThread_updThread (tid q : ℕ) (f : PerThreadSignalState → PerThreadSignalState) :
    (p.updThread tid f).getThread q =
      if q = tid then (p.getThread q).map fun t => { t with signals := f t.signals }
      else p.getThread q :=
  find?_updThreads tid q (f := fun t => { t with signals := f t.signals }) (fun _ => rfl) p.threads

/-- And of its workers. -/
theorem worker_updThread (tid q : ℕ) (f : PerThreadSignalState → PerThreadSignalState) :
    (p.updThread tid f).worker q =
      if q = tid then (p.worker q).map fun t => { t with signals := f t.signals }
      else p.worker q := by
  have hmain : (p.updThread tid f).isMainThread q = p.isMainThread q := rfl
  rw [worker, hmain, worker]
  split
  · rw [Option.map_none, ite_self]
  · exact p.getThread_updThread tid q f

/-- A change of a thread's signals leaves the numbers. -/
theorem tids_updThread (tid : ℕ) (f : PerThreadSignalState → PerThreadSignalState) :
    (p.updThread tid f).threads.map ThreadInfo.tid = p.threads.map ThreadInfo.tid := by
  rw [updThread]
  generalize p.threads = ts
  induction ts with
  | nil => rfl
  | cons t ts ih =>
    simp only [updThreads]
    split
    · rfl
    · rw [List.map_cons, List.map_cons, ih]

/-- The signals of the process are no worker's. -/
theorem worker_updSignals (f : SignalState → SignalState) (q : ℕ) :
    (p.updSignals f).worker q = p.worker q := rfl

variable {f : PerThreadSignalState → PerThreadSignalState}

/-- A change of the signals of a thread that leaves its pending ones alone. -/
theorem pendingAt_updThread (tid : ℕ) (hf : ∀ s, (f s).toPendingSignals = s.toPendingSignals)
    (k : Target) : (p.updThread tid f).pendingAt k = p.pendingAt k := by
  cases k with
  | process => rfl
  | thread q =>
    rw [pendingAt, pendingAt, worker_updThread]
    split_ifs with hq
    · rcases p.worker q with _ | t
      · rfl
      · exact hf t.signals
    · rfl

/-- A change beside the masks leaves what is blocked. -/
theorem blockedFor_updThread (tid : ℕ) (hf : ∀ s, (f s).blocked = s.blocked) (q : ℕ) :
    (p.updThread tid f).blockedFor q = p.blockedFor q := by
  rw [blockedFor, blockedFor, worker_updThread]
  split_ifs with hq
  · rcases p.worker q with _ | t
    · rfl
    · exact hf t.signals
  · rfl

/-- A change of the signals of a thread that leaves alone the mask it set aside. -/
theorem sigsuspendSavedMaskFor_updThread (tid : ℕ)
    (hf : ∀ s, (f s).sigsuspendSavedMask = s.sigsuspendSavedMask) (q : ℕ) :
    (p.updThread tid f).sigsuspendSavedMaskFor q = p.sigsuspendSavedMaskFor q := by
  have hmain : (p.updThread tid f).isMainThread q = p.isMainThread q := rfl
  rw [sigsuspendSavedMaskFor, sigsuspendSavedMaskFor, hmain, getThread_updThread]
  split
  · rfl
  split_ifs with hq
  · rcases p.getThread q with _ | t
    · rfl
    · exact hf t.signals
  · rfl

/-- A change of a thread's signals leaves who is known. -/
theorem knows_updThread (tid : ℕ) (f : PerThreadSignalState → PerThreadSignalState)
    (k : Target) : (p.updThread tid f).knows k = p.knows k := by
  cases k with
  | process => rfl
  | thread =>
    rw [knows, knows, worker_updThread]
    split
    · rw [Option.isSome_map]
    · rfl

/-- **The places are independent**: replacing what is pending in one leaves the others as
they are. -/
theorem pendingAt_setPendingAt (w : PendingSignals) {k : Target} (hk : p.knows k = true)
    (k' : Target) : (p.setPendingAt w k).pendingAt k' = if k' = k then w else p.pendingAt k' := by
  cases k with
  | process =>
    cases k' with
    | process => rfl
    | thread => rfl
  | thread tid =>
    cases k' with
    | process => rfl
    | thread q =>
      rw [setPendingAt, pendingAt, worker_updThread]
      by_cases hq : q = tid
      · subst hq
        obtain ⟨t, ht⟩ := Option.isSome_iff_exists.mp hk
        rw [if_pos rfl, if_pos rfl, ht]
        rfl
      · rw [if_neg hq, if_neg (fun h => hq (Target.thread.inj h)), pendingAt]

/-- What is pending in a place with no signals is nothing. -/
theorem knows_of_has {k : Target} {signum : ℕ} (h : (p.pendingAt k).has signum = true) :
    p.knows k = true := by
  cases k with
  | process => rfl
  | thread tid =>
    rw [pendingAt] at h
    rw [knows]
    rcases hworker : p.worker tid with _ | t
    · rw [hworker] at h
      cases (PendingSignals.has_empty signum).symm.trans h
    · rfl

/-- A signal comes from a place the process knows. -/
theorem knows_sourceOf (tid signum : ℕ) : p.knows (p.sourceOf tid signum) = true := by
  rw [sourceOf]
  split
  next h => exact p.knows_of_has h
  next => rfl

/-- A signal is pending for a thread when it is pending in the process or in the place of
the thread. -/
theorem inMask_pendingFor (tid signum : ℕ) :
    inMask (p.pendingFor tid) signum =
      ((p.pendingAt .process).has signum || (p.pendingAt (.thread tid)).has signum) := by
  have hempty : PendingSignals.empty.has signum = false := PendingSignals.has_empty signum
  rw [pendingFor, pendingAt, pendingAt]
  rcases p.worker tid with _ | t
  · simp only [hempty, Bool.or_false]
    rfl
  · exact inMask_or _ _ _

/-- What is pending for a thread is pending in the place the thread takes it from. -/
theorem has_sourceOf {tid signum : ℕ} (h : inMask (p.pendingFor tid) signum = true) :
    (p.pendingAt (p.sourceOf tid signum)).has signum = true := by
  rw [inMask_pendingFor, Bool.or_eq_true] at h
  rw [sourceOf]
  split
  next hown => exact hown
  next hown => exact h.resolve_right hown

/-- What can be delivered is pending and not blocked. -/
theorem inMask_deliverableFor (tid signum : ℕ) : inMask (p.deliverableFor tid) signum =
      (inMask (p.pendingFor tid) signum && !inMask (p.blockedFor tid) signum) := by
  rw [deliverableFor, inMask_and_not]

end Lookups

/-! ### What a change of the pending signals leaves alone -/

/-- Two states of a process that differ at most in what is pending and in whether the
process has exited. -/
structure SameButPending (p q : ThreadedProcess) : Prop where
  pid : q.pid = p.pid
  actions : q.signals.actions = p.signals.actions
  blocked : ∀ tid, q.blockedFor tid = p.blockedFor tid
  saved : ∀ tid, q.sigsuspendSavedMaskFor tid = p.sigsuspendSavedMaskFor tid
  knows : ∀ k, q.knows k = p.knows k
  tids : q.threads.map ThreadInfo.tid = p.threads.map ThreadInfo.tid
  nextTid : q.nextTid = p.nextTid
  signalfds : q.signalfds = p.signalfds

namespace SameButPending

variable {p q r : ThreadedProcess}

/-- A process is the same as itself. -/
theorem refl (p : ThreadedProcess) : p.SameButPending p :=
  ⟨rfl, rfl, fun _ => rfl, fun _ => rfl, fun _ => rfl, rfl, rfl, rfl⟩

/-- Being the same but for pending signals composes. -/
theorem trans (h : p.SameButPending q) (h' : q.SameButPending r) : p.SameButPending r :=
  ⟨h'.pid.trans h.pid, h'.actions.trans h.actions,
    fun tid => (h'.blocked tid).trans (h.blocked tid),
    fun tid => (h'.saved tid).trans (h.saved tid), fun k => (h'.knows k).trans (h.knows k),
    h'.tids.trans h.tids, h'.nextTid.trans h.nextTid, h'.signalfds.trans h.signalfds⟩

variable (p : ThreadedProcess)

/-- Setting pending signals changes nothing else. -/
theorem setPendingAt (w : PendingSignals) (k : Target) : p.SameButPending (p.setPendingAt w k) := by
  cases k with
  | process => exact ⟨rfl, rfl, fun _ => rfl, fun _ => rfl, fun _ => rfl, rfl, rfl, rfl⟩
  | thread tid =>
    refine ⟨rfl, rfl, fun q => ?_, fun q => ?_, fun k => p.knows_updThread tid _ k,
      p.tids_updThread tid _, rfl, rfl⟩
    · exact p.blockedFor_updThread tid (fun _ => by rfl) q
    · exact p.sigsuspendSavedMaskFor_updThread tid (fun _ => by rfl) q

/-- Nor does taking one. -/
theorem dequeueSignalFor (tid signum : ℕ) :
    p.SameButPending (p.dequeueSignalFor tid signum).2 := setPendingAt p _ _

/-- Nor does raising one. -/
theorem raiseAt (k : Target) (signum : ℕ) (siValue siCode : ℤ) :
    p.SameButPending (p.raiseAt k signum siValue siCode) := setPendingAt p _ _

/-- Nor does an exit. -/
theorem exited (state : ProcessState) (status : ℤ) :
    p.SameButPending { p with state := state, exitStatus := status } :=
  ⟨rfl, rfl, fun _ => rfl, fun _ => rfl, fun _ => rfl, rfl, rfl, rfl⟩

end SameButPending

/-! ### What a change of a mask leaves alone -/

/-- Two states of a process with the same signals pending in the same places. -/
structure SamePending (p q : ThreadedProcess) : Prop where
  pid : q.pid = p.pid
  actions : q.signals.actions = p.signals.actions
  places : ∀ k, q.pendingAt k = p.pendingAt k
  tids : q.threads.map ThreadInfo.tid = p.threads.map ThreadInfo.tid
  nextTid : q.nextTid = p.nextTid
  signalfds : q.signalfds = p.signalfds

namespace SamePending

variable {p q r : ThreadedProcess}

/-- A process has the same pending signals as itself. -/
theorem refl (p : ThreadedProcess) : p.SamePending p :=
  ⟨rfl, rfl, fun _ => rfl, rfl, rfl, rfl⟩

/-- Having the same pending signals composes. -/
theorem trans (h : p.SamePending q) (h' : q.SamePending r) : p.SamePending r :=
  ⟨h'.pid.trans h.pid, h'.actions.trans h.actions, fun k => (h'.places k).trans (h.places k),
    h'.tids.trans h.tids, h'.nextTid.trans h.nextTid, h'.signalfds.trans h.signalfds⟩

variable (p : ThreadedProcess)

/-- Setting a mask leaves what is pending. -/
theorem setBlockedFor (tid : ℕ) (mask : UInt64) : p.SamePending (p.setBlockedFor tid mask) := by
  rw [ThreadedProcess.setBlockedFor]
  rcases p.worker tid with _ | t
  · refine ⟨rfl, rfl, fun k => ?_, rfl, rfl, rfl⟩
    cases k <;> rfl
  · exact ⟨rfl, rfl, p.pendingAt_updThread tid fun _ => rfl, p.tids_updThread tid _, rfl, rfl⟩

/-- So does saving one. -/
theorem setSigsuspendSavedMaskFor (tid : ℕ) (val : Option UInt64) :
    p.SamePending (p.setSigsuspendSavedMaskFor tid val) := by
  rw [ThreadedProcess.setSigsuspendSavedMaskFor]
  split
  · refine ⟨rfl, rfl, fun k => ?_, rfl, rfl, rfl⟩
    cases k <;> rfl
  · exact ⟨rfl, rfl, p.pendingAt_updThread tid fun _ => rfl, p.tids_updThread tid _, rfl, rfl⟩

/-- The end of the process and its alternate stack concern no pending signal. -/
theorem exited (state : ProcessState) (status : ℤ) :
    p.SamePending { p with state := state, exitStatus := status } :=
  ⟨rfl, rfl, fun k => by cases k <;> rfl, rfl, rfl, rfl⟩

/-- So does the alternate stack. -/
theorem altStack (a : AltStack) : p.SamePending { p with altStack := a } :=
  ⟨rfl, rfl, fun k => by cases k <;> rfl, rfl, rfl, rfl⟩

end SamePending

/-- A dequeue takes one instance from where the signal is pending. -/
theorem pendingAt_dequeueSignalFor (p : ThreadedProcess) (tid signum : ℕ) (k : Target) :
    (p.dequeueSignalFor tid signum).2.pendingAt k =
      if k = p.sourceOf tid signum then ((p.pendingAt k).consumeOne signum).2
      else p.pendingAt k := by
  rw [dequeueSignalFor]
  simp only [pendingAt_setPendingAt _ _ (p.knows_sourceOf tid signum)]
  split
  next h => rw [h]
  next => rfl

/-- A thread takes signals from its own place or from the process, not from another thread. -/
theorem pendingAt_dequeueSignalFor_of_ne (p : ThreadedProcess) {tid t : ℕ} (ht : t ≠ tid)
    (signum : ℕ) :
    (p.dequeueSignalFor tid signum).2.pendingAt (.thread t) = p.pendingAt (.thread t) := by
  rw [pendingAt_dequeueSignalFor, if_neg]
  rw [sourceOf]
  split
  · exact fun h => ht (Target.thread.inj h)
  · exact Target.noConfusion

/-- Raising puts one instance where it is directed. -/
theorem pendingAt_raiseAt (p : ThreadedProcess) {k : Target} (hk : p.knows k = true)
    (signum : ℕ) (siValue siCode : ℤ) (k' : Target) :
    (p.raiseAt k signum siValue siCode).pendingAt k' =
      if k' = k then (p.pendingAt k).raiseInternal signum siValue siCode else p.pendingAt k' :=
  p.pendingAt_setPendingAt _ hk k'

end ThreadedProcess

end PosixKernel
