import PosixKernel.GroupKill
import PosixKernel.Worker

/-!
# The Kernel as the Host Sees It

The host asks the kernel whether a process has ended and how, and whether a parent reaps its
children without a wait. This is what creating, forking, spawning, ending and removing a
process change in the answers, and what the calls on descriptors change: none of them makes a
process appear or go, and a process that has ended in one of them was ended by a signal.

## Main results

* `System.lives_forkProcess`, `System.lives_spawnChild`, `System.lives_kernelRemoveProcess`,
  `System.lives_after_exit` — processes come and go;
* `System.performs_step` — the calls on descriptors.
-/

namespace PosixKernel

open Process SlotTable

/-! ### Ends in the kernel -/

namespace System

variable {M : Machine} {s : System} {pid : ℕ} {p : Process}

/-- What an exit commits. -/
theorem after_exit (hp : s.procs.get pid = some p) (status : ℤ) :
    s.after M (.exit pid status) = s.commit pid (sysExit M.host ⟨s.kernel, p⟩ status) := by
  rw [after, step, onProcess, hp]
  rfl

/-- What a death by a signal commits. -/
theorem after_die (hp : s.procs.get pid = some p) (signum : ℕ) :
    s.after M (.die pid signum) = s.commit pid (dieBySignal ⟨s.kernel, p⟩ signum) := by
  rw [after, step, onProcess, hp]
  rfl

/-- The kernel keeps the code of an exit as it is. -/
theorem kernelGetProcessExitStatus_commit {c : Ctx} {status : ℤ}
    (hlife : c.proc.life = (.Exited, status)) :
    (s.commit pid c).kernelGetProcessExitStatus pid = status := by
  obtain ⟨hstate, hstatus⟩ := Prod.mk.inj hlife
  rw [kernelGetProcessExitStatus, get_commit, if_pos rfl]
  simp [hstate, hstatus]

/-- Whether a process reaps its children is a matter of its signals. -/
theorem kernelHasSaNocldwait_commit {c : Ctx} (hp : s.procs.get pid = some p)
    (hsignals : c.proc.signals = p.signals) (q : ℕ) :
    (s.commit pid c).kernelHasSaNocldwait q = s.kernelHasSaNocldwait q := by
  rw [kernelHasSaNocldwait, kernelHasSaNocldwait, get_commit]
  split_ifs with hq
  · rw [hq, hp]
    simp [hsignals]
  · rfl

/-- A process that exits has the status it exits with. -/
theorem life_sysExit (H : HostIO) (k : Kernel) (p : Process) (status : ℤ) :
    (sysExit H ⟨k, p⟩ status).proc.life = (.Exited, status) :=
  life_of_standing (p := p.ended status) (standing_sysExit ⟨k, p⟩ status)

/-- It keeps its signals. -/
theorem signals_sysExit (H : HostIO) (k : Kernel) (p : Process) (status : ℤ) :
    (sysExit H ⟨k, p⟩ status).proc.signals = p.signals :=
  signals_of_standing (p := p.ended status) (standing_sysExit ⟨k, p⟩ status)

end System

/-! ### The kernel as the host sees it -/

/-- The status a process has ended with; none while it lives. -/
def Process.ending (p : Process) : Option ℤ :=
  if p.state = .Exited then some p.exitStatus else none

/-- How a process ended is read from its life. -/
theorem Process.ending_of_life {p q : Process} (h : q.life = p.life) : q.ending = p.ending := by
  obtain ⟨hstate, hstatus⟩ := Prod.mk.inj h
  rw [ending, ending, hstate, hstatus]

namespace System

/-- Whether a number has a process, and how the process has ended, if it has. -/
def lives (s : System) (pid : ℕ) : Option (Option ℤ) := (s.procs.get pid).map ending

/-- The kernel has handled a signal that ends nobody. -/
def Spares (s s' : System) : Prop :=
  ∀ q, s'.lives q = s.lives q ∧ s'.kernelHasSaNocldwait q = s.kernelHasSaNocldwait q

/-- The kernel has performed a call: processes stay, and those that have ended since were
ended by a signal. -/
def Performs (s s' : System) : Prop :=
  ∀ q l, s.lives q = some l →
    s'.lives q = some l ∨
      ∃ signum : ℕ, s'.lives q = some (some (128 + (signum : ℤ)))

/-- A process has ended. -/
def HasEnded (s : System) (pid : ℕ) : Prop :=
  ∃ status, s.lives pid = some (some status)

variable {M : Machine} {s s' : System} {pid q : ℕ}

/-- The status of a process that exited. -/
theorem kernelGetProcessExitStatus_of_lives {status : ℤ} (h : s.lives pid = some (some status)) :
    s.kernelGetProcessExitStatus pid = status := by
  obtain ⟨p, hp, hending⟩ := Option.map_eq_some_iff.mp h
  rw [ending] at hending
  rw [kernelGetProcessExitStatus, hp]
  split at hending
  next hstate =>
    simp only [if_pos hstate]
    exact Option.some.inj hending
  next => cases hending

/-- A process with a status has ended. -/
theorem hasEnded_of_kernelGetProcessExitStatus (h : 0 ≤ s.kernelGetProcessExitStatus pid) :
    s.HasEnded pid := by
  rw [kernelGetProcessExitStatus] at h
  rcases hp : s.procs.get pid with _ | p
  · rw [hp] at h
    cases h
  rw [hp] at h
  simp only at h
  split at h
  next hstate => exact ⟨p.exitStatus, by rw [lives, hp, Option.map_some, ending, if_pos hstate]⟩
  next => cases h

/-- Who lives after a call of one process. -/
theorem lives_commit (c : Ctx) :
    (s.commit pid c).lives q = if q = pid then some c.proc.ending else s.lives q := by
  rw [lives, get_commit]
  split <;> rfl

/-- The processes after a removal. -/
theorem get_kernelRemoveProcess :
    (s.kernelRemoveProcess pid).2.procs.get q = if q = pid then none else s.procs.get q := by
  rcases kernelRemoveProcess_cases s pid with ⟨hnone, heq⟩ | ⟨p, owner, -, heq⟩
  · rw [heq]
    split
    next hq => rw [hq, hnone]
    next => rfl
  · rw [heq, removed]
    exact get_clear _ _ _

/-- Who lives after a removal. -/
theorem lives_kernelRemoveProcess :
    (s.kernelRemoveProcess pid).2.lives q = if q = pid then none else s.lives q := by
  rw [lives, get_kernelRemoveProcess]
  split <;> rfl

/-- A removal brings no process that waits for no child. -/
theorem kernelHasSaNocldwait_kernelRemoveProcess
    (h : (s.kernelRemoveProcess pid).2.kernelHasSaNocldwait q = true) :
    s.kernelHasSaNocldwait q = true := by
  rw [kernelHasSaNocldwait, get_kernelRemoveProcess] at h
  split at h
  next heq =>
    split at heq
    · cases heq
    · rwa [kernelHasSaNocldwait, heq]
  next => cases h

/-- Who lived before a creation lives after it. -/
theorem lives_createProcess {l : Option ℤ} (h : s.lives q = some l) :
    (s.createProcess pid).2.lives q = some l := by
  refine createProcess_induction (I := fun t => t.lives q = some l) h pid
    fun t n argv ht hfree _ => ?_
  have hne : q ≠ n := by
    rintro rfl
    rw [lives, hfree] at ht
    cases ht
  rwa [lives, get_put, if_neg hne]

/-- Settling a forked child ends nobody. -/
theorem lives_settleForkChild : (s.settleForkChild pid).lives q = s.lives q := by
  rw [lives, settleForkChild, get_modify]
  split
  next hq =>
    rw [hq, lives]
    rcases s.procs.get pid with _ | p <;> rfl
  next => rfl

/-- A fork leaves the lives of all processes alone and adds a live child. -/
theorem lives_forkProcess {parentPid childPid : ℕ}
    (h : s.forkProcess parentPid childPid = (.ok (), s')) : s.lives childPid = none ∧
      ∀ q, (s'.settleForkChild childPid).lives q =
        if q = childPid then some none else s.lives q := by
  obtain ⟨parent, hparent, hnew, rfl⟩ := forkProcess_eq_ok h
  have hne : parentPid ≠ childPid := by
    rintro rfl
    rw [hparent] at hnew
    exact Option.some_ne_none parent hnew
  refine ⟨by rw [lives, hnew]; rfl, fun q => ?_⟩
  rw [lives_settleForkChild, lives, forked, get_modify, get_put,
    get_put, if_neg hne, hparent]
  by_cases hq : q = childPid
  · rw [if_pos hq, if_pos hq, if_neg (hq ▸ hne.symm)]
    rfl
  rw [if_neg hq, if_neg hq, lives]
  by_cases hqp : q = parentPid
  · rw [if_pos hqp, hqp, hparent]
    rfl
  · rw [if_neg hqp]

/-- A spawn leaves the lives of all processes alone, and adds a live child if it succeeds. -/
theorem lives_spawnChild {parentPid : ℕ} {argv envp : List Bytes} {actions : List FileAction}
    {attrs : SpawnAttrs} {r : Except Errno ℕ}
    (h : s.spawnChild M.host M.env parentPid argv envp actions attrs = (r, s')) :
    (∃ e, r = .error e ∧ ∀ q, s'.lives q = s.lives q) ∨
      ∃ childPid, r = .ok childPid ∧ s.lives childPid = none ∧
        ∀ q, s'.lives q = if q = childPid then some none else s.lives q := by
  rcases spawnChild_cases h with ⟨-, hr, rfl⟩ | ⟨parent, child, c, hparent, hchild, hc, hend⟩
  · exact .inl ⟨_, hr, fun q => rfl⟩
  have hfree := get_pid_spawned hchild
  have hending : c.proc.ending = none := by
    have hlife := life_of_standing (standing_applySpawnFileActions (H := M.host)
      (E := M.env (s.insertSpawned child)) ⟨(s.insertSpawned child).kernel, child⟩ actions)
    rw [hc, ending_of_life hlife, hchild]
    simp only [spawnedChild, spawnGroup]
    split <;> split <;> rfl
  rcases hend with ⟨hr, rfl⟩ | ⟨e, hr, rfl⟩
  · refine .inr ⟨child.pid, hr, by rw [lives, hfree]; rfl, fun q => ?_⟩
    rw [lives, get_spawned]
    split
    · rw [← hending]
      rfl
    · rfl
  · exact .inl ⟨e, hr, fun q => by rw [lives, lives, get_takenBack hfree]⟩

/-- Who lives after an exit. -/
theorem lives_after_exit (status : ℤ) : (s.after M (.exit pid status)).lives q =
      if q = pid ∧ s.lives pid ≠ none then some (some status) else s.lives q := by
  rcases hp : s.procs.get pid with _ | p
  · have hsame : s.after M (.exit pid status) = s := by
      rw [after, step, onProcess, hp]
    rw [hsame, if_neg (by simp [lives, hp])]
  rw [after_exit hp, lives_commit,
    ending_of_life (p := p.ended status) (life_sysExit M.host s.kernel p status)]
  by_cases hq : q = pid
  · rw [if_pos hq, if_pos ⟨hq, by simp [lives, hp]⟩]
    rfl
  · rw [if_neg hq, if_neg fun h => hq h.1]

/-- An exit leaves who waits for no child. -/
theorem kernelHasSaNocldwait_after_exit (status : ℤ) :
    (s.after M (.exit pid status)).kernelHasSaNocldwait q = s.kernelHasSaNocldwait q := by
  rcases hp : s.procs.get pid with _ | p
  · rw [after, step, onProcess, hp]
  · rw [after_exit hp]
    exact kernelHasSaNocldwait_commit hp (signals_sysExit M.host s.kernel p status) q

end System

/-! ### Calls on descriptors -/

namespace System

variable {M : Machine} {s s' : System} {pid : ℕ}

/-- Doing nothing ends nobody. -/
theorem Performs.refl (s : System) : s.Performs s := fun _ _ h => .inl h

/-- A change of one process that leaves it as it is or lets a signal end it. -/
theorem performs_put {p p' : Process} {k : Kernel} (hp : s.procs.get pid = some p)
    (hp' : p'.ending = p.ending ∨ ∃ signum : ℕ, p'.ending = some (128 + (signum : ℤ))) :
    s.Performs ⟨k, s.procs.put pid (some p')⟩ := by
  intro q l hl
  rw [lives] at hl ⊢
  rw [get_put]
  by_cases hq : q = pid
  · rw [hq, hp] at hl
    rw [if_pos hq, ← hl]
    exact hp'.imp (congrArg some) fun ⟨signum, hsig⟩ => ⟨signum, congrArg some hsig⟩
  · rw [if_neg hq]
    exact .inl hl

/-- **The calls on descriptors, an exec of a live process, and death by a signal** are calls as
the host expects them. -/
theorem performs_step {a : Action} {r : Except Errno Reply} (hstep : s.step M a = some (r, s'))
    (ha : (∃ pid call, a = .call pid call) ∨ (∃ pid, a = .exec pid ∧ ¬ s.HasEnded pid) ∨
      ∃ pid signum, a = .die pid signum) : s.Performs s' := by
  have hprocess : ∀ {pid : ℕ} {f : Ctx → Outcome Ctx}, s.onProcess pid f = some (r, s') →
      (∀ p c, s.procs.get pid = some p → f ⟨s.kernel, p⟩ = some (r, c) →
        c.proc.ending = p.ending ∨ ∃ signum : ℕ, c.proc.ending = some (128 + (signum : ℤ))) →
      s.Performs s' := by
    intro pid f hon hf
    rcases onProcess_eq_some hon with ⟨-, -, rfl⟩ | ⟨p, c, hp, hc, rfl⟩
    · exact .refl _
    · exact performs_put hp (hf p c hp hc)
  rcases ha with ⟨pid, call, rfl⟩ | ⟨pid, rfl, hlives⟩ | ⟨pid, signum, rfl⟩
  · rw [step] at hstep
    refine hprocess hstep fun p c _ hc => .inl ?_
    exact ending_of_life (life_of_standing (call.standing hc))
  · rw [step] at hstep
    refine hprocess hstep fun p c hp hc => .inl ?_
    obtain ⟨hr, rfl⟩ := Prod.mk.inj (Option.some.inj hc)
    rcases hexec : kernelExecSetup M.host (M.env s) ⟨s.kernel, p⟩ with ⟨e | u, c⟩
    · exact ending_of_life (congrArg (·.2.2.2.2) (standing_kernelExecSetup_error hexec))
    obtain ⟨mid, -, -, -, rfl, -⟩ := kernelExecSetup_eq_ok hexec
    -- the rebuilt process runs, as the old one did
    have hrunning : p.ending = none := by
      rcases hend : p.ending with _ | status
      · rfl
      · exact absurd ⟨status, by rw [lives, hp, Option.map_some, hend]⟩ hlives
    rw [hrunning]
    rfl
  rw [step] at hstep
  refine hprocess hstep fun p c _ hc => .inr ⟨signum, ?_⟩
  obtain rfl := returned_eq hc
  rfl

/-- A death ends one process by a signal. -/
theorem performs_after_die (s : System) (pid signum : ℕ) :
    s.Performs (s.after M (.die pid signum)) := by
  rw [after]
  rcases hstep : s.step M (.die pid signum) with _ | ⟨r, s'⟩
  · exact .refl s
  · exact performs_step hstep (.inr (.inr ⟨pid, signum, rfl⟩))

end System

end PosixKernel
