import PosixKernel.KernelView

/-!
# Wait Statuses

A process ends by `exit` with a code, or by the default action of a signal, and its parent
learns which from one number. The kernel keeps the code of an exit as it is, and the number of
a signal with 128 added; the host tells the two apart by their size.

## Main results

* `Worker.tells_reportEnd` — a parent is told the wait status that the host reports, at once
  if it waits and otherwise when it waits next;
* `wait_status_iff` — when that status is the one that was meant;
* `wait_status_confused` — when it is not.
-/

namespace PosixKernel

/-! ### What a parent is told -/

namespace Worker

/-- Between two states of the host a parent is told that a child has ended, and with which
status: by the answer to a wait that was open, or by the answer to its next wait. -/
def Tells (w w' : Worker) (parentPid childPid : ℕ) (status : ℤ) : Prop :=
  w'.answers = w.answers ++ [.child parentPid childPid status] ∨
    w'.answers = w.answers ∧
      (w'.handleWaitpid parentPid childPid 0).answers =
        w.answers ++ [.child parentPid childPid status]

variable {M : Machine} {sigchld : System → ℕ → System} {w : Worker} {parentPid pid : ℕ}

/-- A kept status is the answer to the parent's next wait for the child. -/
theorem answers_handleWaitpid {status : ℤ} (hpid : 0 < pid) (hchild : pid ∈ w.children parentPid)
    (hkept : w.exitedChildren.get pid = some status) (options : UInt32) :
    (w.handleWaitpid parentPid pid options).answers =
      w.answers ++ [.child parentPid pid status] := by
  have hmatches : ∀ c, w.childMatchesWaitTarget c pid parentPid = decide (c = pid) := by
    intro c
    rw [childMatchesWaitTarget, if_pos (Int.natCast_pos.mpr hpid)]
    simp
  have hfind : w.findExitedChild parentPid pid = some pid := by
    rcases hfound : w.findExitedChild parentPid pid with _ | c
    · have hnone := List.find?_eq_none.mp hfound pid hchild
      simp [hmatches, hasExited, hkept] at hnone
    have hc := List.find?_some hfound
    simp only [hmatches, Bool.and_eq_true, decide_eq_true_eq] at hc
    rw [hc.2]
  have hsome : (w.children parentPid).isEmpty = false := by
    rw [List.isEmpty_eq_false_iff]
    exact List.ne_nil_of_mem hchild
  rw [handleWaitpid, hsome, if_neg Bool.false_ne_true, hfind]
  simp only [hkept, Option.getD_some]
  rfl

theorem tells_iff_of_kept (w' : Worker) {status : ℤ} (hpid : 0 < pid)
    (hanswers : w'.answers = w.answers) (hchild : pid ∈ w'.children parentPid)
    (hkept : w'.exitedChildren.get pid = some status) (told : ℤ) :
    w.Tells w' parentPid pid told ↔ told = status := by
  rw [Tells, answers_handleWaitpid hpid hchild hkept, hanswers]
  simp [eq_comm]

/-- **The parent is told the status that the host reports**, unless it reaps its children
without a wait. -/
theorem tells_reportEnd (hpid : 0 < pid) (hparent : w.childToParent.get pid = some parentPid)
    (hchild : pid ∈ w.children parentPid)
    (hauto : w.kernel.kernelHasSaNocldwait parentPid = false) (status told : ℤ) :
    w.Tells ((w.reportEnd sigchld pid status).deactivateProcess pid) parentPid pid told ↔
      told = status := by
  obtain ⟨k, -, hreport⟩ := reportEnd_of_parent sigchld hparent hauto status
  rw [hreport]
  rcases wakeWaitingParent_cases (w.ended k pid status) parentPid pid status with
    hwake | ⟨waiting, keep, hwake⟩
  · rw [hwake]
    refine tells_iff_of_kept _ hpid ?_ ?_ ?_ told
    · rfl
    · exact hchild
    · exact SlotTable.get_put_self _ _ _
  rw [hwake]
  have hanswers : ∀ w' : Worker, w'.answers = w.answers ++ [.child parentPid pid status] →
      (w.Tells w' parentPid pid told ↔ told = status) := by
    intro w' h
    rw [Tells, h]
    simp [eq_comm]
  exact hanswers _ (by cases keep <;> rfl)

/-- The parent of a process that calls exit is told what the host makes of the code. -/
theorem tells_handleExit {p : Process} (hp : w.kernel.procs.get pid = some p) (hpid : 0 < pid)
    (hparent : w.childToParent.get pid = some parentPid) (hchild : pid ∈ w.children parentPid)
    (hauto : w.kernel.kernelHasSaNocldwait parentPid = false) (hnew : pid ∉ w.hostReaped)
    (code told : ℤ) : w.Tells (w.handleExit M sigchld pid code) parentPid pid told ↔
      told = exitWaitStatus code code := by
  have hsignals := System.signals_sysExit M.host w.kernel.kernel p code
  have hstatus : (w.kernel.after M (.exit pid code)).kernelGetProcessExitStatus pid = code := by
    rw [System.after_exit hp]
    exact System.kernelGetProcessExitStatus_commit (System.life_sysExit _ _ p code)
  have hauto' : (w.kernel.after M (.exit pid code)).kernelHasSaNocldwait parentPid = false := by
    rw [System.after_exit hp, System.kernelHasSaNocldwait_commit hp hsignals, hauto]
  simp only [handleExit, hstatus]
  rw [if_neg hnew]
  exact tells_reportEnd
    (w := { w with
      kernel := w.kernel.after M (.exit pid code), hostReaped := addOnce w.hostReaped pid })
    hpid hparent hchild hauto' _ told

theorem tells_handleProcessTerminated (hpid : 0 < pid)
    (hparent : w.childToParent.get pid = some parentPid) (hchild : pid ∈ w.children parentPid)
    (hauto : w.kernel.kernelHasSaNocldwait parentPid = false) (hnew : pid ∉ w.hostReaped)
    (status told : ℤ) : w.Tells (w.handleProcessTerminated sigchld pid status) parentPid pid told ↔
      told = status := by
  rw [handleProcessTerminated, if_neg hnew]
  exact tells_reportEnd (w := { w with hostReaped := addOnce w.hostReaped pid })
    hpid hparent hchild hauto status told

end Worker

/-! ### Ends -/

/-- How the host learns that a signal has ended a process: it asks about the process after a
call or before a retry, or it looks through all processes after a `kill`. -/
inductive Notice
  | asked
  | searched
  deriving DecidableEq

/-- How a process ends: it calls exit, a signal ends it, or a signal ends it and its own exit
reaches the host before the host has noticed. -/
inductive Ending
  | exit (code : Int32)
  | killed (signum : ℕ) (notice : Notice)
  | killedBeforeExit (signum : ℕ) (code : Int32)
  deriving DecidableEq

namespace Ending

/-- The signal, if there is one, is one that ends a process by its default action. -/
def Possible : Ending → Prop
  | .exit _ => True
  | .killed signum _ => validSignal signum = true ∧ (defaultAction signum).isFatal = true
  | .killedBeforeExit signum _ => validSignal signum = true ∧ (defaultAction signum).isFatal = true

/-- The wait status that says how the process has ended. -/
def meant : Ending → ℤ
  | .exit code => code.toInt % 256 * 256
  | .killed signum _ => signum
  | .killedBeforeExit signum _ => signum

/-- The wait status that the host makes of it. -/
def told : Ending → ℤ
  | .exit code => exitWaitStatus code.toInt code.toInt
  | .killed signum _ => terminatedWaitStatus (128 + signum)
  | .killedBeforeExit _ code => exitWaitStatus code.toInt code.toInt

/-- Whether the host tells an exit from a signal: the code is below 128 or a multiple of 256;
and a signal is noticed before the process exits, unless the code of that exit looks like the
signal. -/
def KeptApart : Ending → Prop
  | .exit code => code.toInt < 128 ∨ code.toInt % 256 = 0
  | .killed _ _ => True
  | .killedBeforeExit signum code => 128 ≤ code.toInt ∧ (code.toInt - 128) % 128 = signum

/-- **Meaning and encoding.** -/
theorem meant_eq_told_iff (e : Ending) (h : e.Possible) : e.meant = e.told ↔ e.KeptApart := by
  cases e with
  | exit =>
    simp only [meant, told, KeptApart, exitWaitStatus]
    split <;> omega
  | killed =>
    have hvalid := validSignal_iff.mp h.1
    simp only [meant, told, KeptApart, terminatedWaitStatus, iff_true]
    omega
  | killedBeforeExit =>
    have hvalid := validSignal_iff.mp h.1
    simp only [meant, told, KeptApart, exitWaitStatus]
    split <;> omega

end Ending

/-- The host after a process has ended. -/
def Worker.ends (M : Machine) (sigchld : System → ℕ → System) (w : Worker) (pid : ℕ) :
    Ending → Worker
  | .exit code => w.handleExit M sigchld pid code.toInt
  | .killed signum .asked =>
    let w := { w with kernel := w.kernel.after M (.die pid signum) }
    (w.noticeDeath sigchld pid).getD w
  | .killed signum .searched =>
    { w with kernel := w.kernel.after M (.die pid signum) }.reapKilled sigchld pid
  | .killedBeforeExit signum code =>
    { w with kernel := w.kernel.after M (.die pid signum) }.handleExit M sigchld pid code.toInt

section

variable {M : Machine} {sigchld : System → ℕ → System} {w : Worker} {parentPid pid : ℕ}
  {p : Process}

/-- The parent is told what the host makes of the end. -/
theorem Worker.tells_ends (hp : w.kernel.procs.get pid = some p) (hpid : 0 < pid)
    (hparent : w.childToParent.get pid = some parentPid) (hchild : pid ∈ w.children parentPid)
    (hauto : w.kernel.kernelHasSaNocldwait parentPid = false) (hnew : pid ∉ w.hostReaped)
    (hregistered : pid ∈ w.processes) (e : Ending) (told : ℤ) :
    w.Tells (w.ends M sigchld pid e) parentPid pid told ↔ told = e.told := by
  -- what a signal that ends the process leaves in the kernel
  have hkilled : ∀ signum : ℕ,
      (w.kernel.after M (.die pid signum)).procs.get pid =
        some (dieBySignal ⟨w.kernel.kernel, p⟩ signum).proc ∧
      (w.kernel.after M (.die pid signum)).kernelGetProcessExitStatus pid = 128 + signum ∧
      (w.kernel.after M (.die pid signum)).kernelHasSaNocldwait parentPid = false := by
    intro signum
    rw [System.after_die hp]
    refine ⟨?_, System.kernelGetProcessExitStatus_commit rfl, ?_⟩
    · rw [System.get_commit, if_pos rfl]
    · rw [System.kernelHasSaNocldwait_commit hp rfl, hauto]
  cases e with
  | exit code => exact tells_handleExit hp hpid hparent hchild hauto hnew code.toInt told
  | killed signum notice =>
    obtain ⟨-, hstatus, hauto'⟩ := hkilled signum
    let w' := { w with kernel := w.kernel.after M (.die pid signum) }
    have hended : ¬ (128 + signum : ℤ) < 0 := by omega
    cases notice with
    | asked =>
      simp only [ends, noticeDeath, hstatus, if_pos (not_lt.mp hended), Option.getD_some]
      exact tells_handleProcessTerminated (w := w') hpid hparent hchild hauto' hnew _ told
    | searched =>
      simp only [ends, reapKilled, hstatus, if_neg hended, if_neg hnew, if_pos hregistered]
      exact tells_handleProcessTerminated (w := w') hpid hparent hchild hauto' hnew _ told
  | killedBeforeExit signum code =>
    obtain ⟨hp', -, hauto'⟩ := hkilled signum
    exact tells_handleExit (w := { w with kernel := w.kernel.after M (.die pid signum) })
      hp' hpid hparent hchild hauto' hnew code.toInt told

end

/-- **Wait statuses.** A registered process ends, in any state of the host, by an exit with
any code or by any signal whose default action ends it; its parent does not reap its children
without a wait. The status that the parent is told says how the process has
ended, exactly if the two kinds of end are kept apart: the code of an exit is below 128 or a
multiple of 256, and a signal is noticed before the process exits, or the code of that exit
looks like the signal. -/
theorem wait_status_iff (M : Machine) (sigchld : System → ℕ → System) (w : Worker)
    (parentPid pid : ℕ) (p : Process) (e : Ending) (he : e.Possible)
    (hp : w.kernel.procs.get pid = some p) (hpid : 0 < pid)
    (hparent : w.childToParent.get pid = some parentPid) (hchild : pid ∈ w.children parentPid)
    (hauto : w.kernel.kernelHasSaNocldwait parentPid = false) (hnew : pid ∉ w.hostReaped)
    (hregistered : pid ∈ w.processes) :
    w.Tells (w.ends M sigchld pid e) parentPid pid e.meant ↔ e.KeptApart := by
  rw [Worker.tells_ends hp hpid hparent hchild hauto hnew hregistered]
  exact e.meant_eq_told_iff he

/-- A process with a spawned child, both registered. -/
def parentAndChild : Worker :=
  [.create 10, .spawn 10 [] [] [] .empty, .register 2].foldl
    (fun w a => w.next (.on .barren) ⟨a, fun k _ => k⟩) .boot

theorem wait_status_exit_one :
    parentAndChild.Tells (parentAndChild.ends (.on .barren) (fun k _ => k) 2 (.exit 1)) 10 2 256 :=
  (wait_status_iff (.on .barren) (fun k _ => k) parentAndChild 10 2
    ((parentAndChild.kernel.procs.get 2).get (by decide +kernel)) (.exit 1) trivial
    (by simp) (by decide) (by decide +kernel) (by decide +kernel)
    (by decide +kernel) (by decide +kernel) (by decide +kernel)).mpr (.inl (by decide))

/-- **Exit with 200 is told as death by signal 72**, and a process that `SIGTERM` has ended as
an exit with 0 if its exit reaches the host first. -/
theorem wait_status_confused :
    parentAndChild.Tells (parentAndChild.ends (.on .barren) (fun k _ => k) 2 (.exit 200)) 10 2 72 ∧
      ¬ parentAndChild.Tells (parentAndChild.ends (.on .barren) (fun k _ => k) 2 (.exit 200))
        10 2 (200 * 256) ∧ parentAndChild.Tells
        (parentAndChild.ends (.on .barren) (fun k _ => k) 2 (.killedBeforeExit 15 0)) 10 2 0 := by
  have htold : ∀ e told,
      parentAndChild.Tells (parentAndChild.ends (.on .barren) (fun k _ => k) 2 e) 10 2 told ↔
        told = e.told :=
    Worker.tells_ends (p := (parentAndChild.kernel.procs.get 2).get (by decide +kernel))
      (by simp) (by decide) (by decide +kernel) (by decide +kernel) (by decide +kernel)
      (by decide +kernel) (by decide +kernel)
  rw [htold, htold, htold]
  decide

end PosixKernel
