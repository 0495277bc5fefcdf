import PosixKernel.Exec

/-!
# Execs that Fail

An exec goes through the kernel twice: `sys_execve` asks the host for the program, and
`kernel_exec_setup` then replaces the process. Both may fail after they have already given
something up: the first the devices of the process, the second its pending descriptor
actions and its close-on-exec descriptors.

## Main results

* `get_closeFds` — which descriptors are left after closing some;
* `exec_failure_unchanged_iff` — when a failed exec leaves the process as it was.
-/

namespace PosixKernel

variable {H : HostIO} {E : ProcfsEnv}

/-- Execute a program. The framebuffer binding and the ownership of the mouse and the sound
device are given up before the host is asked. `hostExec` is the host's answer. -/
def sysExecve (hostExec : List HostCall → Bytes → Except Errno Unit) (c : Ctx) (path : Bytes) :
    Except Errno Unit × Ctx :=
  if path = [] then (.error .ENOENT, c)
  else
    let c := if c.proc.fbBinding.isSome then
        (c.updProc fun p => { p with fbBinding := none }).updKernel (maybeReleaseFb0 c.proc.pid)
      else c
    let c := c.updKernel (maybeReleaseMice c.proc.pid)
    let c := c.updKernel (maybeReleaseDsp c.proc.pid)
    (hostExec c.kernel.log (resolvePath path c.proc.cwd), c)

/-- A process continues as before: its record, and who owns the devices. -/
structure Ctx.Unchanged (c c' : Ctx) : Prop where
  proc : c'.proc = c.proc
  owners : c'.kernel.deviceOwner = c.kernel.deviceOwner

theorem Ctx.Unchanged.refl (c : Ctx) : c.Unchanged c := ⟨rfl, rfl⟩

/-! ### Devices -/

theorem deviceOwner_maybeReleaseDevice (dev dev' : VirtualDevice) (pid : ℕ) (k : Kernel) :
    (maybeReleaseDevice dev pid k).deviceOwner dev' =
      if dev' = dev ∧ k.deviceOwner dev = pid then -1 else k.deviceOwner dev' := by
  rw [maybeReleaseDevice]
  by_cases howner : k.deviceOwner dev = pid
  · rw [if_pos howner]
    by_cases hdev : dev' = dev
    · rw [hdev, if_pos ⟨rfl, howner⟩]
      exact Function.update_self _ _ _
    · rw [if_neg fun h => hdev h.1]
      exact Function.update_of_ne hdev _ _
  · rw [if_neg howner, if_neg fun h => howner h.2]

/-- A failed `sys_execve` leaves the process as it was exactly if it had no device to give
up, or was refused at once. -/
theorem sysExecve_unchanged_iff {hostExec : List HostCall → Bytes → Except Errno Unit}
    {c c' : Ctx} {path : Bytes} {e : Errno} (h : sysExecve hostExec c path = (.error e, c')) :
    c.Unchanged c' ↔ path = [] ∨
      (c.proc.fbBinding = none ∧ c.kernel.deviceOwner .Mice ≠ c.proc.pid ∧
        c.kernel.deviceOwner .Dsp ≠ c.proc.pid) := by
  rw [sysExecve] at h
  by_cases hpath : path = []
  · rw [if_pos hpath] at h
    cases h
    exact iff_of_true (.refl c) (.inl hpath)
  rw [if_neg hpath] at h
  have hc' := (Prod.mk.inj h).2
  rw [or_iff_right hpath]
  rcases hfb : c.proc.fbBinding with _ | b
  · rw [hfb, Option.isSome_none, if_neg (by decide)] at hc'
    constructor
    · intro hsame
      refine ⟨rfl, fun howner => ?_, fun howner => ?_⟩
      · have hmice := congrFun hsame.owners .Mice
        rw [← hc'] at hmice
        simp [Ctx.updKernel, maybeReleaseDsp, maybeReleaseMice, deviceOwner_maybeReleaseDevice,
          howner] at hmice
      have hdsp := congrFun hsame.owners .Dsp
      rw [← hc'] at hdsp
      simp [Ctx.updKernel, maybeReleaseDsp, maybeReleaseMice, deviceOwner_maybeReleaseDevice,
        howner] at hdsp
    rintro ⟨-, hmice, hdsp⟩
    rw [← hc']
    simp only [Ctx.updKernel, maybeReleaseMice, maybeReleaseDsp, maybeReleaseDevice, if_neg hmice,
      if_neg hdsp]
    exact .refl c
  refine iff_of_false (fun hsame => ?_) fun hnone => absurd hnone.1 (by simp)
  have hproc := congrArg Process.fbBinding hsame.proc
  rw [hfb, Option.isSome_some, if_pos rfl] at hc'
  rw [← hc', hfb] at hproc
  cases hproc

/-! ### Descriptors -/

theorem get_closeFds (c : Ctx) (fds : List ℕ) (j : ℕ) :
    (closeFds H c fds).proc.fdTable.entries.get j =
      if j ∈ fds then none else c.proc.fdTable.entries.get j := by
  induction fds generalizing c with
  | nil => simp [closeFds]
  | cons i fds ih =>
    show (closeFds H (sysClose H c i).2 fds).proc.fdTable.entries.get j = _
    have hclosed := (lookup_sysClose (H := H) c i j).2
    simp only [FdTable.lookup_natCast, Nat.cast_inj] at hclosed
    rw [ih, hclosed]
    by_cases hmem : j ∈ fds
    · rw [if_pos hmem, if_pos (List.mem_cons_of_mem _ hmem)]
    · rw [if_neg hmem]
      simp [hmem]

theorem get_of_mem_cloexecFds {p : Process} {i : ℕ} (h : i ∈ cloexecFds p) :
    ∃ e, p.fdTable.entries.get i = some e := by
  obtain ⟨⟨j, e⟩, hmem, rfl⟩ := List.mem_map.mp h
  exact ⟨e, SlotTable.mem_entries.mp (List.mem_filter.mp hmem).1⟩

/-- Closing the close-on-exec descriptors changes the process if there are any. -/
theorem closeCloexec_eq_iff (c : Ctx) :
    (closeCloexec H c).proc = c.proc ↔ cloexecFds c.proc = [] := by
  constructor
  · intro hsame
    rcases hfds : cloexecFds c.proc with _ | ⟨i, fds⟩
    · rfl
    have hi : i ∈ cloexecFds c.proc := hfds ▸ List.mem_cons_self
    obtain ⟨e, he⟩ := get_of_mem_cloexecFds hi
    have hgone := get_closeFds (H := H) c (cloexecFds c.proc) i
    rw [if_pos hi] at hgone
    have hget : (closeCloexec H c).proc.fdTable.entries.get i = some e := by rw [hsame, he]
    cases hgone.symm.trans hget
  intro hnil
  rw [closeCloexec, hnil]
  rfl

/-- Where a setup can fail: in the pending actions, or after the closes. -/
theorem kernelExecSetup_eq_error {c c' : Ctx} {e : Errno}
    (h : kernelExecSetup H E c = (.error e, c')) :
    applyFdActions H E (c.updProc fun p => { p with forkFdActions := [] }) c.proc.forkFdActions =
      (.error e, c') ∨
    c' = closeCloexec H (applyFdActions H E
      (c.updProc fun p => { p with forkFdActions := [] }) c.proc.forkFdActions).2 := by
  rw [kernelExecSetup] at h
  split at h
  · rename_i hrun
    left
    rw [hrun, ← h]
  rename_i hrun
  right
  rw [hrun]
  dsimp only at h
  split at h
  · exact (Prod.mk.inj h).2.symm
  split at h
  · exact (Prod.mk.inj h).2.symm
  · cases congrArg Prod.fst h

/-- The pending actions are gone after a failed setup. -/
theorem forkFdActions_of_error {c c' : Ctx} {e : Errno}
    (h : kernelExecSetup H E c = (.error e, c')) : c'.proc.forkFdActions = [] := by
  have hactions := sameSettings_applyFdActions (H := H) (E := E)
    (c.updProc fun p => { p with forkFdActions := [] }) c.proc.forkFdActions
  rcases kernelExecSetup_eq_error h with hrun | rfl
  · rw [hrun] at hactions
    rw [hactions]
    rfl
  have hclose := sameSettings_closeFds (H := H) (applyFdActions H E
    (c.updProc fun p => { p with forkFdActions := [] }) c.proc.forkFdActions).2
    (cloexecFds (applyFdActions H E
      (c.updProc fun p => { p with forkFdActions := [] }) c.proc.forkFdActions).2.proc)
  rw [closeCloexec, hactions.trans hclose]
  rfl

/-- A failed `kernel_exec_setup` leaves the process as it was exactly if nothing was pending
and nothing was marked close-on-exec. -/
theorem kernelExecSetup_unchanged_iff {c c' : Ctx} {e : Errno}
    (h : kernelExecSetup H E c = (.error e, c')) :
    c.Unchanged c' ↔ c.proc.forkFdActions = [] ∧ cloexecFds c.proc = [] := by
  have hdrained := forkFdActions_of_error h
  by_cases hactions : c.proc.forkFdActions = []
  · have hstart : (c.updProc fun p => { p with forkFdActions := [] }) = c := by
      rw [Ctx.updProc, ← hactions]
    have hc' : c' = closeCloexec H c := by
      rcases kernelExecSetup_eq_error h with hrun | hrun
      · rw [hactions] at hrun
        cases congrArg Prod.fst hrun
      · rwa [hstart, hactions] at hrun
    constructor
    · intro hsame
      rw [hc'] at hsame
      exact ⟨hactions, (closeCloexec_eq_iff c).mp hsame.proc⟩
    rintro ⟨-, hnil⟩
    rw [hc', closeCloexec, hnil]
    exact .refl c
  · refine iff_of_false (fun hsame => hactions ?_) fun hpending => hactions hpending.1
    rw [← hsame.proc, hdrained]

/-- **Failed execs.** A failed `sys_execve` leaves the process as it was exactly if the path
was empty or it had no device to give up; a failed `kernel_exec_setup` does exactly if the
process had no pending descriptor action and no close-on-exec descriptor. -/
theorem exec_failure_unchanged_iff (H : HostIO) (E : ProcfsEnv)
    (hostExec : List HostCall → Bytes → Except Errno Unit) (c c' : Ctx) (path : Bytes) (e : Errno) :
    (sysExecve hostExec c path = (.error e, c') → (c.Unchanged c' ↔ path = [] ∨
        (c.proc.fbBinding = none ∧ c.kernel.deviceOwner .Mice ≠ c.proc.pid ∧
          c.kernel.deviceOwner .Dsp ≠ c.proc.pid))) ∧ (kernelExecSetup H E c = (.error e, c') →
      (c.Unchanged c' ↔ c.proc.forkFdActions = [] ∧ cloexecFds c.proc = [])) :=
  ⟨sysExecve_unchanged_iff, kernelExecSetup_unchanged_iff⟩

/-- A process that has the mouse open. -/
def mouseReader : Ctx :=
  (sysOpen .barren .bare ⟨.boot, .new 2⟩ (ascii "/dev/input/mice") O_RDONLY 0).2

/-- A process that holds no device fails to find a program and goes on. -/
theorem exec_failure_of_new_process :
    let c : Ctx := ⟨.boot, .new 2⟩
    sysExecve (fun _ _ => .error .ENOENT) c (ascii "/bin/none") = (.error .ENOENT, c) ∧
    c.Unchanged c := by
  intro c
  have hfail : sysExecve (fun _ _ => .error .ENOENT) c (ascii "/bin/none") =
      (.error .ENOENT, c) := rfl
  exact ⟨hfail, ((exec_failure_unchanged_iff .barren .bare _ c c _ _).1 hfail).mpr
    (.inr ⟨rfl, by decide, by decide⟩)⟩

/-- Failing to find a program costs a process the mouse; failing in a pending descriptor
action costs it the actions. -/
theorem exec_failure_changes :
    mouseReader.kernel.deviceOwner .Mice = 2 ∧
    (sysExecve (fun _ _ => .error .ENOENT) mouseReader (ascii "/bin/none")).1 = .error .ENOENT ∧
    (sysExecve (fun _ _ => .error .ENOENT) mouseReader
      (ascii "/bin/none")).2.kernel.deviceOwner .Mice = -1 ∧
    (let c : Ctx := ⟨.boot, { Process.new 2 with forkFdActions := [.Close 9, .Close 0] }⟩
    (kernelExecSetup .barren .bare c).1 = .error .EBADF ∧
      (kernelExecSetup .barren .bare c).2.proc.forkFdActions = []) := by
  decide +kernel

end PosixKernel
