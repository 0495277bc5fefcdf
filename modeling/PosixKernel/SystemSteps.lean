import PosixKernel.Holders

/-!
# What Steps of the System Do

The steps that only make moves, taken apart: descriptor calls and the end of a process are
moves of one process; a spawn puts a child in the table, lets it make moves, and takes it
out again if an action fails. Every invariant of the system is checked on these parts.

## Main results

* `Call.proceeds`, `proceeds_sysExit` — steps that are moves of one process;
* `System.spawnChild_cases` — the parts of a spawn;
* `System.took_of_step` — what a step does;
* `System.Ok.commit`, `System.Ok.insert`, `System.Ok.removed` — what all invariants need.
-/

namespace PosixKernel

variable {H : HostIO} {E : ProcfsEnv}

/-! ### Moves of one process -/

/-- The calls that are sequences of moves. -/
def Call.isMove : Call → Bool
  | .open .. | .close _ | .dup _ | .dup2 .. | .fcntlSetFd .. | .chdir _ | .fchdir _ => true
  | _ => false

/-- Each of the moving calls relates its contexts as the file actions do. -/
theorem Followed.call {R : Ctx → Ctx → Prop} (h : Followed H E R)
    (hdup : ∀ c fd, R c (PosixKernel.sysDup c fd).2) {c c' : Ctx} (call : Call)
    {r : Except Errno Reply} (hcall : call.isMove = true)
    (hrun : call.run H E c = some (r, c')) : R c c' := by
  cases call with
  | «open» path oflags mode =>
    obtain rfl := returned_eq hrun
    exact h.sysOpen c path oflags mode
  | close fd =>
    obtain rfl := returned_eq hrun
    exact h.sysClose c fd
  | dup fd =>
    obtain rfl := returned_eq hrun
    exact hdup c fd
  | dup2 oldfd newfd =>
    obtain rfl := returned_eq hrun
    exact h.sysDup2 c oldfd newfd
  | fcntlSetFd fd =>
    obtain rfl := returned_eq hrun
    rw [sysFcntlSetFd]
    rcases c.proc.fdTable.get fd with e | entry
    · exact h.refl c
    · exact h.setFlags c fd _
  | chdir path =>
    obtain rfl := returned_eq hrun
    exact h.sysChdir c path
  | fchdir fd =>
    obtain rfl := returned_eq hrun
    exact h.sysFchdir c fd
  | _ => cases hcall

/-- The moving calls proceed by moves. -/
theorem Call.proceeds {c c' : Ctx} (call : Call) {r : Except Errno Reply}
    (hcall : call.isMove = true) (hrun : call.run H E c = some (r, c')) : Proceeds H c c' :=
  (proceeds_followed E).call proceeds_sysDup call hcall hrun

/-- Closing the streams of directories makes no move. -/
theorem proceeds_closeStreams (c : Ctx) : Proceeds H c (closeStreams c) := by
  rw [closeStreams]
  generalize c.proc.dirStreams.entries = es
  induction es generalizing c with
  | nil => exact .refl c
  | cons e es ih =>
    refine Proceeds.trans ?_ (ih _)
    exact (Proceeds.logCall c rfl).trans (.proc rfl rfl rfl rfl)

/-- Nor does the mark of an exit. -/
theorem proceeds_ended (c : Ctx) (status : ℤ) :
    Proceeds H c (c.updProc fun p =>
      { p with
        lockTable := p.lockTable.filter fun l => l.2.pid ≠ p.pid
        state := .Exited
        exitStatus := status }) :=
  .proc rfl rfl rfl rfl

/-- An exit proceeds by the moves of its closing. -/
theorem proceeds_sysExit (c : Ctx) (status : ℤ) : Proceeds H c (sysExit H c status) :=
  ((proceeds_closeFds c _).trans (proceeds_closeStreams _)).trans (proceeds_ended _ status)

/-- A death by a signal makes no move. -/
theorem proceeds_dieBySignal (c : Ctx) (signum : ℕ) : Proceeds H c (dieBySignal c signum) :=
  .proc rfl rfl rfl rfl

namespace System

variable {s : System}

/-! ### Spawning and removing -/

/-- The system without a process. -/
def removed (s : System) (pid : ℕ) (p : Process) : System :=
  ⟨cleanupUnix pid (p.returned.foldl Kernel.drop s.kernel), s.procs.clear pid⟩

/-- A removal gives back what the process had. -/
theorem removeProcess_eq {pid : ℕ} {p : Process} (hp : s.procs.get pid = some p) :
    s.removeProcess pid = some (s.removed pid p) := by
  rw [removeProcess, hp]
  rfl

/-- **The parts of a spawn.** There is no parent; or a child with the tables of the parent is
put in the table and makes moves, and stays there or is taken out. -/
theorem spawnChild_cases {env : System → ProcfsEnv} {s' : System} {parentPid : ℕ}
    {argv envp : List Bytes} {actions : List FileAction} {attrs : SpawnAttrs} {r : Except Errno ℕ}
    (h : s.spawnChild H env parentPid argv envp actions attrs = (r, s')) :
    (s.procs.get parentPid = none ∧ r = .error .ESRCH ∧ s' = s) ∨
    ∃ parent child c, s.procs.get parentPid = some parent ∧
      child = spawnedChild parent parentPid s.allocateSpawnPid argv envp attrs ∧
      c = (applySpawnFileActions H (env (s.insertSpawned child))
        ⟨(s.insertSpawned child).kernel, child⟩ actions).2 ∧
      ((r = .ok child.pid ∧ s' = (s.insertSpawned child).commit child.pid c) ∨ ∃ e, r = .error e ∧
          s' = ((s.insertSpawned child).commit child.pid c).removed child.pid c.proc) := by
  rw [spawnChild] at h
  rcases hparent : s.procs.get parentPid with _ | parent
  · rw [hparent] at h
    cases h
    exact .inl ⟨rfl, rfl, rfl⟩
  rw [hparent] at h
  simp only at h
  have hpid := (spawnedChild_tables parent parentPid s.allocateSpawnPid argv envp attrs).1
  generalize hchild : spawnedChild parent parentPid s.allocateSpawnPid argv envp attrs = child
    at h hpid
  rw [← hpid] at h
  refine .inr ⟨parent, child, _, rfl, hchild.symm, rfl, ?_⟩
  rcases hres : applySpawnFileActions H (env (s.insertSpawned child))
    ⟨(s.insertSpawned child).kernel, child⟩ actions with ⟨e | u, c⟩
  · rw [hres] at h
    cases h
    refine .inr ⟨e, rfl, ?_⟩
    rw [removeProcess_eq (p := c.proc), Option.getD_some]
    rw [get_commit, if_pos rfl]
  rw [hres] at h
  cases h
  exact .inl ⟨rfl, rfl⟩

/-- The number of a spawned child is free. -/
theorem get_pid_spawned {parentPid : ℕ} {argv envp : List Bytes} {attrs : SpawnAttrs}
    {parent child : Process}
    (hchild : child = spawnedChild parent parentPid s.allocateSpawnPid argv envp attrs) :
    s.procs.get child.pid = none := by
  rw [hchild, (spawnedChild_tables parent parentPid _ argv envp attrs).1, get_allocateSpawnPid]

/-- The processes after a spawn. -/
theorem get_spawned (child : Process) (c : Ctx) (q : ℕ) :
    ((s.insertSpawned child).commit child.pid c).procs.get q =
      if q = child.pid then some c.proc else s.procs.get q := by
  rw [get_commit, insertSpawned, SlotTable.get_put]
  split <;> rfl

/-- A child that was taken back has left no trace in the table. -/
theorem get_takenBack {child : Process} (hfree : s.procs.get child.pid = none) (c : Ctx) (q : ℕ) :
    (((s.insertSpawned child).commit child.pid c).removed child.pid c.proc).procs.get q =
      s.procs.get q := by
  rw [removed, SlotTable.get_clear, get_spawned]
  split
  next hq => rw [hq, hfree]
  · rfl

/-- Removing a process also takes away the devices it owns. -/
theorem kernelRemoveProcess_cases (s : System) (pid : ℕ) :
    (s.procs.get pid = none ∧ (s.kernelRemoveProcess pid).2 = s) ∨
      ∃ p owner, s.procs.get pid = some p ∧
        (s.kernelRemoveProcess pid).2 =
          ⟨{ (s.removed pid p).kernel with deviceOwner := owner }, (s.removed pid p).procs⟩ := by
  have howner : ∀ (dev : VirtualDevice) (pid : ℕ) (k : Kernel),
      ∃ owner, maybeReleaseDevice dev pid k = { k with deviceOwner := owner } := by
    intro dev pid k
    rw [maybeReleaseDevice]
    split
    · exact ⟨_, rfl⟩
    · exact ⟨k.deviceOwner, rfl⟩
  rw [kernelRemoveProcess]
  rcases hp : s.procs.get pid with _ | p
  · rw [removeProcess, hp]
    exact .inl ⟨rfl, rfl⟩
  rw [removeProcess_eq hp]
  obtain ⟨o₁, h₁⟩ := howner .Fb0 pid (s.removed pid p).kernel
  obtain ⟨o₂, h₂⟩ := howner .Mice pid { (s.removed pid p).kernel with deviceOwner := o₁ }
  obtain ⟨o₃, h₃⟩ := howner .Dsp pid { (s.removed pid p).kernel with deviceOwner := o₂ }
  refine .inr ⟨p, o₃, rfl, ?_⟩
  simp [maybeReleaseFb0, maybeReleaseMice, maybeReleaseDsp, h₁, h₂, h₃]

/-- What holds after each process is put in holds after a creation. -/
theorem createProcess_induction {I : System → Prop} (h : I s)
    (pid : ℕ) (hnew : ∀ (s : System) n argv, I s → s.procs.get n = none → n = pid ∨ n = 1 →
      I ⟨s.kernel, s.procs.put n (some { Process.new n with argv := argv })⟩) :
    I (s.createProcess pid).2 := by
  have hinit : I s.ensureInit := by
    rw [ensureInit]
    split
    · exact h
    next hfree => exact hnew s 1 _ h hfree (.inr rfl)
  rw [createProcess]
  split
  · exact hinit
  next hfree => exact hnew s.ensureInit pid [] hinit hfree (.inl rfl)

/-- **What a step does.** It is refused; or a process makes a call, begins anew or ends; or a child
is born, or taken back at once; or a process goes. -/
inductive Took (M : Machine) (s : System) : Action → Except Errno Reply → System → Prop
  | refused {a : Action} {e : Errno}
      (hnobody : ∀ pid call, a = .call pid call → s.procs.get pid = none) : Took M s a (.error e) s
  | created (pid : ℕ) (r : Except Errno Reply) : Took M s (.create pid) r (s.createProcess pid).2
  | called {pid : ℕ} {call : Call} {p : Process} {r : Except Errno Reply} {c : Ctx}
      (hp : s.procs.get pid = some p)
      (hrun : call.run M.host (M.env s) ⟨s.kernel, p⟩ = some (r, c)) :
      Took M s (.call pid call) r (s.commit pid c)
  | execed {pid : ℕ} {p : Process} {r : Except Errno Unit} {c : Ctx} (hp : s.procs.get pid = some p)
      (hexec : kernelExecSetup M.host (M.env s) ⟨s.kernel, p⟩ = (r, c)) :
      Took M s (.exec pid) (r.map fun _ => .done) (s.commit pid c)
  | exited {pid : ℕ} {p : Process} (hp : s.procs.get pid = some p) (status : ℤ) :
      Took M s (.exit pid status) (.ok .done) (s.commit pid (sysExit M.host ⟨s.kernel, p⟩ status))
  | died {pid : ℕ} {p : Process} (hp : s.procs.get pid = some p) (signum : ℕ) :
      Took M s (.die pid signum) (.ok .done) (s.commit pid (dieBySignal ⟨s.kernel, p⟩ signum))
  | forked {parentPid childPid : ℕ} {parent : Process}
      (hparent : s.procs.get parentPid = some parent)
      (hfree : s.procs.get childPid = none) :
      Took M s (.fork parentPid childPid) (.ok .done) (s.forked parentPid childPid parent)
  | spawned {parentPid : ℕ} {argv envp : List Bytes} {actions : List FileAction}
      {attrs : SpawnAttrs}
      {parent child : Process} {c : Ctx} (hparent : s.procs.get parentPid = some parent)
      (hchild : child = spawnedChild parent parentPid s.allocateSpawnPid argv envp attrs)
      (hc : c = (applySpawnFileActions M.host (M.env (s.insertSpawned child))
        ⟨(s.insertSpawned child).kernel, child⟩ actions).2) {r : Except Errno Reply} {s' : System}
      (hend : (r = .ok (.num child.pid) ∧ s' = (s.insertSpawned child).commit child.pid c) ∨
        ∃ e, r = .error e ∧
          s' = ((s.insertSpawned child).commit child.pid c).removed child.pid c.proc) :
      Took M s (.spawn parentPid argv envp actions attrs) r s'
  | removed {pid : ℕ} {p : Process} (hp : s.procs.get pid = some p) (owner : VirtualDevice → ℤ)
      (r : Except Errno Reply) :
      Took M s (.remove pid) r
        ⟨{ (s.removed pid p).kernel with deviceOwner := owner }, (s.removed pid p).procs⟩

/-- Every step is one of the kinds of step. -/
theorem took_of_step {M : Machine} {s' : System} {a : Action} {r : Except Errno Reply}
    (hstep : s.step M a = some (r, s')) : Took M s a r s' := by
  cases a with
  | create pid =>
    obtain rfl := returned_eq hstep
    exact .created pid r
  | call =>
    rw [step] at hstep
    rcases onProcess_eq_some hstep with ⟨hnone, rfl, rfl⟩ | ⟨p, c, hp, hrun, rfl⟩
    · exact .refused fun _ _ heq => by cases heq; exact hnone
    · exact .called hp hrun
  | fork parentPid childPid =>
    cases hstep
    rcases hfork : s.forkProcess parentPid childPid with ⟨e | u, s'⟩
    · rw [forkProcess_eq_error hfork]
      exact .refused nofun
    · obtain ⟨parent, hparent, hfree, rfl⟩ := forkProcess_eq_ok hfork
      exact .forked hparent hfree
  | spawn parentPid argv envp actions attrs =>
    cases hstep
    rcases hspawn : s.spawnChild M.host M.env parentPid argv envp actions attrs with ⟨r, s'⟩
    rcases spawnChild_cases hspawn with ⟨-, rfl, rfl⟩ |
      ⟨parent, child, c, hparent, hchild, hc, hend⟩
    · exact .refused nofun
    refine .spawned hparent hchild hc ?_
    rcases hend with ⟨rfl, rfl⟩ | ⟨e, rfl, rfl⟩
    · exact .inl ⟨rfl, rfl⟩
    · exact .inr ⟨e, rfl, rfl⟩
  | exec =>
    rw [step] at hstep
    rcases onProcess_eq_some hstep with ⟨-, rfl, rfl⟩ | ⟨p, c, hp, hrun, rfl⟩
    · exact .refused nofun
    · cases hrun
      exact .execed hp rfl
  | exit pid status =>
    rw [step] at hstep
    rcases onProcess_eq_some hstep with ⟨-, rfl, rfl⟩ | ⟨p, c, hp, hrun, rfl⟩
    · exact .refused nofun
    · cases hrun
      exact .exited hp status
  | die pid signum =>
    rw [step] at hstep
    rcases onProcess_eq_some hstep with ⟨-, rfl, rfl⟩ | ⟨p, c, hp, hrun, rfl⟩
    · exact .refused nofun
    · cases hrun
      exact .died hp signum
  | remove pid =>
    cases hstep
    rcases kernelRemoveProcess_cases s pid with ⟨hnone, heq⟩ | ⟨p, owner, hp, heq⟩
    · rw [heq, kernelRemoveProcess, removeProcess, hnone]
      exact .refused nofun
    · rw [heq]
      exact .removed hp owner _

/-! ### What all invariants need -/

/-- Pipes are global, and every description counts a reference. -/
structure Ok (s : System) : Prop where
  centralized : s.kernel.centralized = true
  positive : ∀ pid p, s.procs.get pid = some p → p.ofdTable.Positive

/-- The context of each process can make moves. -/
theorem Ok.ctx (h : s.Ok) {pid : ℕ} {p : Process} (hp : s.procs.get pid = some p) :
    (Ctx.mk s.kernel p).Ok :=
  ⟨h.centralized, h.positive pid p hp⟩

/-- It may be committed. -/
theorem Ok.commit (h : s.Ok) {pid : ℕ} {c : Ctx} (hc : c.Ok) : (s.commit pid c).Ok := by
  refine ⟨hc.centralized, fun q p hp => ?_⟩
  rw [get_commit] at hp
  split at hp
  · cases hp
    exact hc.positive
  · exact h.positive q p hp

/-- A child may be inserted. -/
theorem Ok.insert (h : s.Ok) {pid : ℕ} {child : Process} (hchild : child.ofdTable.Positive) :
    (System.mk (bumpInheritedResourceRefcounts s.kernel child)
      (s.procs.put pid (some child))).Ok := by
  exact ⟨(Kernel.centralized_foldl_take _ _).trans h.centralized,
    SlotTable.forall_put hchild h.positive⟩

/-- A process may change beside its descriptions. -/
theorem Ok.modify (h : s.Ok) (pid : ℕ) {f : Process → Process}
    (hf : ∀ p, (f p).ofdTable = p.ofdTable) : (System.mk s.kernel (s.procs.modify pid f)).Ok := by
  refine ⟨h.centralized, SlotTable.forall_modify (fun p hp => ?_) h.positive⟩
  rwa [hf]

/-- A new process may be put in. -/
theorem Ok.created (h : s.Ok) (pid n : ℕ) (argv : List Bytes) :
    (System.mk s.kernel (s.procs.put pid (some { Process.new n with argv := argv }))).Ok := by
  refine ⟨h.centralized, SlotTable.forall_put (fun i o ho => ?_) h.positive⟩
  rcases i with _ | _ | _ | i
  · cases ho
    exact Nat.one_pos
  · cases ho
    exact Nat.one_pos
  · cases ho
    exact Nat.one_pos
  · cases ho

/-- A process may be removed. -/
theorem Ok.removed (h : s.Ok) (pid : ℕ) (p : Process) : (s.removed pid p).Ok := by
  exact ⟨(Kernel.centralized_foldl_drop _ _).trans h.centralized,
    fun q p' hp => h.positive q p' (SlotTable.get_of_get_clear hp)⟩

end System

/-- The descriptions of a forked child count as many references as the parent's. -/
theorem positive_forkedChild {p : Process} (hfits : p.Fits) (h : p.ofdTable.Positive)
    (childPid : ℕ) : (forkedChild p childPid).ofdTable.Positive := by
  intro i o ho
  have hget : (forkedChild p childPid).ofdTable.get i =
      (p.ofdTable.get i).map (·.inheritedBy childPid) := hfits.get_ofdTableImage childPid i
  rw [hget] at ho
  obtain ⟨o', ho', rfl⟩ := Option.map_eq_some_iff.mp ho
  exact h i o' ho'

/-- A spawned child refers to its descriptions. -/
theorem positive_spawnedChild {p : Process} (h : p.ofdTable.Positive) (parentPid childPid : ℕ)
    (argv envp : List Bytes) (attrs : SpawnAttrs) :
    (spawnedChild p parentPid childPid argv envp attrs).ofdTable.Positive := by
  rwa [(spawnedChild_tables p parentPid childPid argv envp attrs).2.2.1]

end PosixKernel
