import PosixKernel.Inherited

/-!
# Opening and Closing Host Files

A host file handle is opened by one process, shared with children, and closed by the last
holder that lets go through a close. The kernel closes nothing for descriptions that
disappear otherwise: those of a process that is removed, those of a child that a failed
spawn takes back, and those that an exec finds without a descriptor.

## Main results

* `System.FilesSound` — every handle is open exactly while it is held, and its record and
  its holders agree;
* `filesSound_step` — kept by every step that makes no description on a file disappear
  unclosed;
* `hostFiles_closedOnce_run` — in such runs a handle is closed once for every time it was
  opened, when the last description on it goes.
-/

namespace PosixKernel

open SlotTable

/-! ### Files that would disappear -/

/-- A description on a host file that is no standard stream. -/
def OpenFileDesc.isFile (o : OpenFileDesc) : Bool := o.hostFiles ≠ [] && 3 ≤ o.hostHandle

/-- A process has no file open. -/
def Process.NoFiles (p : Process) : Prop := ∀ e ∈ p.ofdTable.entries, e.2.isFile = false

/-- Every file of a process has a descriptor that an exec keeps. -/
def Process.FilesReachable (p : Process) : Prop :=
  ∀ e ∈ p.ofdTable.entries, e.2.isFile = true →
    ((execFds p).map fun f => f.2.ofdRef).contains e.1 = true

instance (p : Process) : Decidable p.NoFiles := by unfold Process.NoFiles; infer_instance

instance (p : Process) : Decidable p.FilesReachable := by
  unfold Process.FilesReachable; infer_instance

theorem OpenFileDesc.isFile_of_mem {o : OpenFileDesc} {h : ℤ} (hpos : 3 ≤ h)
    (hmem : .hostFile h ∈ o.resources) : o.isFile = true := by
  obtain ⟨hle, hhandle, hkind⟩ := mem_hostFile.mp hmem
  have hfiles : o.hostFiles = [.hostFile o.hostHandle] := by
    rw [hostFiles, if_pos (by omega)]
    rcases hkind with hft | hft | hft | hft <;> rw [hft]
  rw [isFile, hfiles]
  simp
  omega

theorem Process.NoFiles.holds {p : Process} (hnone : p.NoFiles) {h : ℤ} (hpos : 3 ≤ h) :
    p.holds (.hostFile h) = 0 := by
  by_contra hne
  obtain ⟨i, o, ho, hmem⟩ := holds_hostFile_pos.mp (Nat.pos_of_ne_zero hne)
  have hfile := hnone (i, o) (mem_entries.mpr ho)
  rw [OpenFileDesc.isFile_of_mem hpos hmem] at hfile
  cases hfile

/-- An exec keeps the files of a process in which all are reachable. -/
theorem Process.FilesReachable.holds {p : Process} (hreach : p.FilesReachable)
    (hfits : ∀ i o, p.ofdTable.get i = some o → i < 2 ^ 32 ∧ o.Fits) (pid : ℕ) {h : ℤ}
    (hpos : 3 ≤ h) : (execImage p pid).holds (.hostFile h) = p.holds (.hostFile h) := by
  rw [holds_hostFile, holds_hostFile]
  refine total_congr fun i => ?_
  rw [get_execOfds hfits]
  rcases ho : p.ofdTable.get i with _ | o
  · rfl
  by_cases hkept : ((execFds p).map fun f => f.2.ofdRef).contains i = true
  · rw [Option.filter_some_pos (by exact hkept)]
    rfl
  rw [Option.filter_some_neg (by simpa using hkept), weight_some, eq_comm]
  refine List.count_eq_zero.mpr fun hmem => hkept ?_
  exact hreach (i, o) (mem_entries.mpr ho) (OpenFileDesc.isFile_of_mem hpos hmem)

/-- Dropping other things does not concern a handle. -/
theorem hostFile_foldl_drop {r : Resource} {rs : List Resource} (hmem : r ∉ rs) (k : Kernel) :
    (rs.foldl Kernel.drop k).count r = k.count r ∧ (rs.foldl Kernel.drop k).opened r = k.opened r ∧
      (rs.foldl Kernel.drop k).closed r = k.closed r := by
  induction rs generalizing k with
  | nil => exact ⟨rfl, rfl, rfl⟩
  | cons r' rs ih =>
    obtain ⟨hne, hmem⟩ := not_or.mp (mt List.mem_cons.mpr hmem)
    obtain ⟨hcount, hopened, hclosed⟩ := ih hmem (k.drop r')
    exact ⟨hcount.trans ((k.count_drop r r').trans (if_neg (Ne.symm hne))),
      hopened.trans (k.opened_drop r r'), hclosed.trans (k.closed_drop_ne (Ne.symm hne))⟩

/-! ### The invariant -/

namespace System

/-- The books of a handle: a standard stream is never opened; any other handle is open exactly
while it is held, and its record counts the holders beyond the first. -/
structure FileTurn (s : System) (h : ℤ) : Prop where
  turn : 3 ≤ h → OpenInTurn (s.kernel.count (.hostFile h)) (s.held (.hostFile h))
    (s.kernel.opened (.hostFile h)) (s.kernel.closed (.hostFile h))
  std : h < 3 → s.kernel.opened (.hostFile h) = 0

/-- The books of all handles are in order. -/
structure FilesSound (s : System) : Prop where
  sane : s.Sane
  fits : s.Fits
  files : ∀ h, s.FileTurn h

variable {M : Machine} {s s' : System} {pid : ℕ} {p : Process} {h : ℤ}

variable (hs : s.FileTurn h)

include hs

/-- Processes with as many holders, and the same books. -/
theorem FileTurn.congr (hheld : 3 ≤ h → s'.held (.hostFile h) = s.held (.hostFile h))
    (hcount : s'.kernel.count (.hostFile h) = s.kernel.count (.hostFile h))
    (hopened : s'.kernel.opened (.hostFile h) = s.kernel.opened (.hostFile h))
    (hclosed : s'.kernel.closed (.hostFile h) = s.kernel.closed (.hostFile h)) : s'.FileTurn h := by
  refine ⟨fun hpos => ?_, fun hstd => hopened.trans (hs.std hstd)⟩
  rw [hheld hpos, hcount, hopened, hclosed]
  exact hs.turn hpos

/-- **Descriptor calls** of a process. -/
theorem FileTurn.commit (hfresh : M.host.Fresh) (hp : s.procs.get pid = some p) {c : Ctx}
    (hmoves : Moves M.host ⟨s.kernel, p⟩ c) : (s.commit pid c).FileTurn h := by
  refine ⟨fun hpos => ?_, fun hstd => (hmoves.opened_std hfresh hstd).trans (hs.std hstd)⟩
  have hheld := held_commit hp c (.hostFile h)
  have hle := holds_le_held hp (.hostFile h)
  -- the holders in the other processes stay
  have hturn := hs.turn hpos
  rw [← Nat.sub_add_cancel hle] at hturn
  have hnew := hmoves.openInTurn hfresh hpos hturn
  rwa [show s.held (.hostFile h) - p.holds (.hostFile h) + c.proc.holds (.hostFile h) =
    (s.commit pid c).held (.hostFile h) by omega] at hnew

/-- **A child** that is counted for the files it inherits. -/
theorem FileTurn.insert (hp : s.procs.get pid = some p) {child : Process}
    {procs : SlotTable Process} (hchild : child.holds (.hostFile h) = p.holds (.hostFile h))
    (hprocs : procs.total (·.holds (.hostFile h)) =
      s.held (.hostFile h) + child.holds (.hostFile h)) :
    (System.mk (bumpInheritedResourceRefcounts s.kernel child) procs).FileTurn h := by
  have hlog : (bumpInheritedResourceRefcounts s.kernel child).log = s.kernel.log :=
    Kernel.log_foldl_take child.inherited s.kernel
  refine ⟨fun hpos => ?_, fun hstd => (Kernel.opened_congr hlog _).trans (hs.std hstd)⟩
  have hcount : (bumpInheritedResourceRefcounts s.kernel child).count (.hostFile h) =
      s.kernel.count (.hostFile h) + child.holds (.hostFile h) := by
    rw [← child.count_inherited_of_ne (by simp)]
    exact (Kernel.meter_count (.hostFile h)).foldl_take fun _ => trivial
  show OpenInTurn ((bumpInheritedResourceRefcounts s.kernel child).count (.hostFile h))
    (procs.total (·.holds (.hostFile h)))
    ((bumpInheritedResourceRefcounts s.kernel child).opened (.hostFile h))
    ((bumpInheritedResourceRefcounts s.kernel child).closed (.hostFile h))
  rw [hcount, hprocs, Kernel.opened_congr hlog, Kernel.closed_congr hlog]
  exact (hs.turn hpos).take (by rw [hchild]; exact holds_le_held hp _)

theorem FileTurn.forked {parentPid childPid : ℕ} {parent : Process} (hfits : parent.Fits)
    (hparent : s.procs.get parentPid = some parent) (hfree : s.procs.get childPid = none) :
    (s.forked parentPid childPid parent).FileTurn h := by
  have hchild : (forkedChild parent childPid).holds (.hostFile h) = parent.holds (.hostFile h) := by
    rw [Process.holds_hostFile, Process.holds_hostFile]
    exact Process.total_ofds_congr (fun _ => rfl) (ofds_forkedChild hfits childPid)
  refine hs.insert hparent hchild ?_
  rw [total_modify_of_eq (m := Process.forkedOnce) _ _ fun _ => rfl,
    total_put_of_free _ _ hfree]
  rfl

theorem FileTurn.spawned {parentPid : ℕ} {parent child : Process}
    (hparent : s.procs.get parentPid = some parent) {argv envp : List Bytes} {attrs : SpawnAttrs}
    (hchild : child = spawnedChild parent parentPid s.allocateSpawnPid argv envp attrs) :
    (s.insertSpawned child).FileTurn h := by
  have htables := spawnedChild_tables parent parentPid s.allocateSpawnPid argv envp attrs
  rw [← hchild] at htables
  refine hs.insert hparent ?_ ?_
  · rw [Process.holds_hostFile, Process.holds_hostFile, htables.2.2.1]
  · rw [total_put_of_free _ _ (by rw [htables.1, get_allocateSpawnPid])]
    rfl

/-- **A process without files** goes. -/
theorem FileTurn.removed (hp : s.procs.get pid = some p) (hnone : p.NoFiles) :
    (s.removed pid p).FileTurn h := by
  obtain ⟨hcount, hopened, hclosed⟩ :=
    hostFile_foldl_drop (hostFile_not_mem_returned p h) s.kernel
  refine hs.congr (fun hpos => ?_) hcount hopened hclosed
  have hclear := total_clear s.procs (·.holds (.hostFile h)) pid
  rwa [hp, weight_some, hnone.holds hpos, Nat.add_zero] at hclear

omit hs

/-- **A process that is replaced** and keeps its files. -/
theorem FileTurn.execed {c : Ctx} (hs : (s.commit pid c).FileTurn h) (hp : s.procs.get pid = some p)
    (hsame : 3 ≤ h → (execImage c.proc c.proc.pid).holds (.hostFile h) =
      c.proc.holds (.hostFile h)) : (s.commit pid (execed c)).FileTurn h := by
  refine hs.congr (fun hpos => ?_) rfl rfl rfl
  have hbefore := held_commit hp c (.hostFile h)
  have hafter := held_commit hp (PosixKernel.execed c) (.hostFile h)
  have hkept : (PosixKernel.execed c).proc.holds (.hostFile h) = c.proc.holds (.hostFile h) :=
    hsame hpos
  omega

/-! ### Steps -/

/-- The child of a spawn as its file actions leave it: the state in which a spawn that
failed begins to take it back. -/
def actedChild (H : HostIO) (env : System → ProcfsEnv) (s : System) (parentPid : ℕ)
    (argv envp : List Bytes) (actions : List FileAction) (attrs : SpawnAttrs) (parent : Process) :
    Process :=
  let child := spawnedChild parent parentPid s.allocateSpawnPid argv envp attrs
  let s := s.insertSpawned child
  (applySpawnFileActions H (env s) ⟨s.kernel, child⟩ actions).2.proc

/-- **The steps that lose no file**: a process that is removed has no file open, nor has a
child that a failed spawn takes back, and an exec finds a descriptor for every file. Closing,
duplicating, opening, forking, exiting and dying are free. -/
def fileStep (M : Machine) (s : System) : Action → Except Errno Reply → Prop
  | .call _ call, _ => call.isMove = true
  | .spawn parentPid argv envp actions attrs, .error _ => ∀ parent ∈ s.procs.get parentPid,
      (s.actedChild M.host M.env parentPid argv envp actions attrs parent).NoFiles
  | .exec pid, _ => ∀ p ∈ s.procs.get pid,
      (closeCloexec M.host ⟨s.kernel, p⟩).proc.FilesReachable
  | .remove pid, _ => ∀ p ∈ s.procs.get pid, p.NoFiles
  | _, _ => True

instance (M : Machine) (s : System) (a : Action) (r : Except Errno Reply) :
    Decidable (fileStep M s a r) :=
  match a, r with
  | .call _ call, _ => inferInstanceAs (Decidable (call.isMove = true))
  | .spawn .., .error _ | .exec _, _ | .remove _, _ =>
    inferInstanceAs (Decidable (∀ p ∈ s.procs.get _, _))
  | .spawn .., .ok _ | .create _, _ | .fork .., _ | .exit .., _ | .die .., _ => instDecidableTrue

theorem fileTurn_create (hs : ∀ h, s.FileTurn h) (pid : ℕ) :
    ∀ h, (s.createProcess pid).2.FileTurn h := by
  refine createProcess_induction (I := fun s => ∀ h, s.FileTurn h) hs pid ?_
  intro s n argv hs hfree _ h
  refine (hs h).congr (fun hpos => ?_) rfl rfl rfl
  have hnew : { Process.new n with argv := argv }.holds (.hostFile h) = 0 :=
    Process.NoFiles.holds (p := { Process.new n with argv := argv })
      (by show (Process.new 0).NoFiles; decide) hpos
  have hput := total_put_of_free (t := s.procs) (·.holds (.hostFile h))
    { Process.new n with argv := argv } hfree
  rwa [hnew, Nat.add_zero] at hput

/-- **Every step that loses no file** keeps the books. -/
theorem filesSound_step (hfresh : M.host.Fresh) {a : Action} {r : Except Errno Reply}
    (hs : s.FilesSound) (hstep : s.step M a = some (r, s')) (hadm : fileStep M s a r)
    (hfits : s'.Fits) : s'.FilesSound := by
  refine ⟨sane_step hs.sane hs.fits hstep, hfits, ?_⟩
  have hmove : ∀ {pid p c}, s.procs.get pid = some p → Proceeds M.host ⟨s.kernel, p⟩ c →
      ∀ h, (s.commit pid c).FileTurn h := by
    intro pid p c hp hproceeds h
    exact (hs.files h).commit hfresh hp (hproceeds (hs.sane.ctx hp).ok).1
  cases took_of_step hstep with
  | refused => exact hs.files
  | created pid => exact fileTurn_create hs.files pid
  | called hp hrun => exact hmove hp (Call.proceeds _ hadm hrun)
  | execed hp hexec =>
    have hclosed := hmove hp (proceeds_closeCloexec ⟨s.kernel, _⟩)
    rcases kernelExecSetup_plain (hs.sane.procs _ _ hp).plain hexec with rfl | rfl
    · exact hclosed
    · exact fun h => (hclosed h).execed hp fun hpos => (hadm _ hp).holds
        (ofdFits_closeFds _ fun i o ho => (hs.fits.process hp).ofd ho) _ hpos
  | exited hp status => exact hmove hp (proceeds_sysExit _ status)
  | died hp signum => exact hmove hp (proceeds_dieBySignal _ signum)
  | forked hparent hfree =>
    exact fun h => (hs.files h).forked (hs.fits.process hparent) hparent hfree
  | @spawned _ _ _ actions _ parent child c hparent hchild hc _ _ hend =>
    intro h
    have hinserted := (hs.files h).spawned hparent hchild
    obtain ⟨-, hget, hmoves⟩ := hs.sane.spawned hparent hchild hc
    have hacted := hinserted.commit hfresh hget hmoves
    rcases hend with ⟨-, rfl⟩ | ⟨e, rfl, rfl⟩
    · exact hacted
    have hnone : c.proc.NoFiles := by
      have := hadm parent hparent
      rwa [actedChild, ← hchild, ← hc] at this
    exact hacted.removed (by rw [get_commit, if_pos rfl]) hnone
  | removed hp =>
    exact fun h => ((hs.files h).removed hp (hadm _ hp)).congr (fun _ => rfl) rfl rfl rfl

theorem filesSound_boot : boot.FilesSound := by
  refine ⟨sane_boot, fun e he => absurd he (by simp [boot, entries, empty]), ?_⟩
  exact fun h => ⟨fun _ => ⟨fun _ => ⟨rfl, rfl⟩, fun hpos => absurd hpos (Nat.lt_irrefl 0)⟩,
    fun _ => rfl⟩

/-- **Host files are closed once for every open, when the last description on them goes**, in
every run that loses no file: as long as a process has a description on a handle that the
host gave out, it has been closed once less than it was opened, and the kernel records the
holders beyond the first; once no process has one, it has been closed as often as it was
opened. -/
theorem hostFiles_closedOnce_run (hfresh : M.host.Fresh) (hrun : Run M (fileStep M) boot s)
    (hopened : 0 < s.kernel.opened (.hostFile h)) :
      (0 < s.held (.hostFile h) →
        s.kernel.opened (.hostFile h) = s.kernel.closed (.hostFile h) + 1 ∧
          s.kernel.count (.hostFile h) + 1 = s.held (.hostFile h)) ∧
      (s.held (.hostFile h) = 0 →
        s.kernel.opened (.hostFile h) = s.kernel.closed (.hostFile h)) := by
  have hsound : s.FilesSound := hrun.invariant filesSound_boot fun _ _ _ _ hs hstep hadm hfits =>
    filesSound_step hfresh hs hstep hadm hfits
  have hpos : 3 ≤ h := by
    by_contra hstd
    have := (hsound.files h).std (by omega)
    omega
  have hturn := (hsound.files h).turn hpos
  exact ⟨hturn.held, fun hfree => (hturn.free hfree).1⟩

/-- Two processes share a file, and the second of them to close it closes it on the host;
another open then gets the same number, and is closed once more. -/
theorem hostFiles_closedOnce_shared : ∃ s, Run (.on .lowest) (fileStep (.on .lowest)) boot s ∧
    s.kernel.opened (.hostFile 3) = 2 ∧ s.held (.hostFile 3) = 0 ∧
    s.kernel.closed (.hostFile 3) = 2 := by
  obtain ⟨s, hs, hopened, hheld⟩ : ∃ s ∈ perform (.on .lowest) (fileStep (.on .lowest)) boot
      [.create 2, .call 2 (.open (ascii "/f") 0 0), .call 2 (.dup 3), .spawn 2 [] [] [] .empty,
        .call 2 (.close 3), .call 2 (.close 4), .call 3 (.close 3), .call 3 (.close 4), .remove 3,
        .call 2 (.open (ascii "/g") 0 0), .call 2 (.close 3)],
      s.kernel.opened (.hostFile 3) = 2 ∧ s.held (.hostFile 3) = 0 := by decide +kernel
  have hrun := run_of_perform hs
  have hclosed := hostFiles_closedOnce_run (M := .on .lowest) (h := 3) HostIO.fresh_lowest hrun
    (by omega)
  exact ⟨s, hrun, hopened, hheld, (hclosed.2 hheld).symm.trans hopened⟩

/-- **A file that is never closed**: its process dies by a signal and is removed. -/
theorem hostFiles_leaked : ∃ s, Run (.on .counting) (fun _ _ _ => True) boot s ∧
    s.kernel.opened (.hostFile 100) = 1 ∧ s.held (.hostFile 100) = 0 ∧
    s.kernel.closed (.hostFile 100) = 0 := by
  obtain ⟨s, hs, h⟩ : ∃ s ∈ perform (.on .counting) (fun _ _ _ => True) boot
      [.create 2, .call 2 (.open (ascii "/f") 0 0), .die 2 9, .remove 2],
      s.kernel.opened (.hostFile 100) = 1 ∧ s.held (.hostFile 100) = 0 ∧
        s.kernel.closed (.hostFile 100) = 0 := by
    decide +kernel
  exact ⟨s, run_of_perform hs, h⟩

end System

end PosixKernel
