import PosixKernel.Reaping

/-!
# Waits That Are Put Off

A wait that the host puts off is answered when a child that it asks for ends, or when no such
child is left. The host looks at one wait for every child that ends, the first one, and at the
waits for process groups when a process changes its group; nobody looks at the others. So every
open wait has a living child to wait for, and none that has ended, as long as an end leaves no
second wait behind that this one child was for.

## Main results

* `Worker.WaitsHold.reportEnd`, `Worker.WaitsHold.recheck`, `Worker.WaitsHold.deferred` — the
  steps that matter;
* `Worker.waits_next` — one step;
* `open_waits_of_run` — every run;
* `open_wait_forgotten` — a wait that nobody looks at.
-/

namespace PosixKernel

open SlotTable

/-! ### Groups in the kernel -/

namespace System

/-- Between two states of the kernel a process has kept its group, and has not come to life. -/
def Regards (s s' : System) (q : ℕ) : Prop :=
  s'.kernelGetpgidDirect q = s.kernelGetpgidDirect q ∧
    (s'.lives q = some none → s.lives q = some none)

variable {M : Machine} {s s' : System} {pid q : ℕ}

/-- A process that did not change is regarded alike. -/
theorem Regards.of_get (h : s'.procs.get q = s.procs.get q) : s.Regards s' q := by
  rw [Regards, kernelGetpgidDirect, kernelGetpgidDirect, lives, lives, h]
  exact ⟨rfl, id⟩

/-- An exit keeps every group and brings nobody to life. -/
theorem regards_after_exit (s : System) (pid : ℕ) (status : ℤ) (q : ℕ) :
    s.Regards (s.after M (.exit pid status)) q := by
  rcases hp : s.procs.get pid with _ | p
  · have hsame : s.after M (.exit pid status) = s := by
      rw [after, step, onProcess, hp]
    rw [hsame]
    exact .of_get rfl
  refine ⟨?_, ?_⟩
  · rw [after_exit hp, kernelGetpgidDirect, kernelGetpgidDirect, get_commit]
    split_ifs with hq
    · have hpgid := Process.pgid_of_standing (standing_sysExit (H := M.host) ⟨s.kernel, p⟩ status)
      rw [hq, hp]
      simp [hpgid, Process.ended]
    · rfl
  rw [lives_after_exit]
  split
  · exact fun h => absurd h (by simp)
  · exact id

/-- The number for a spawned child is nobody's. -/
theorem lives_allocateSpawnPid (s : System) : s.lives s.allocateSpawnPid = none := by
  rw [lives, get_allocateSpawnPid]
  rfl

/-- So does a removal, for the others. -/
theorem regards_kernelRemoveProcess (s : System) (hq : q ≠ pid) :
    s.Regards (s.kernelRemoveProcess pid).2 q :=
  .of_get (get_kernelRemoveProcess.trans (if_neg hq))

/-- A new process concerns its own number, and that of the first process. -/
theorem regards_createProcess (s : System) (pid : ℕ)
    (hq : q = pid ∨ q = 1 → s.procs.get q ≠ none) : s.Regards (s.createProcess pid).2 q := by
  refine .of_get (createProcess_induction (I := fun t => t.procs.get q = s.procs.get q) rfl pid
    fun t n argv ht hfree hn => ?_)
  have hne : q ≠ n := by
    rintro rfl
    exact hq hn (ht.symm.trans hfree)
  rw [get_put, if_neg hne, ht]

/-- So does a fork, for all but the child. -/
theorem regards_forkProcess {parentPid childPid : ℕ}
    (h : s.forkProcess parentPid childPid = (.ok (), s')) (hq : q ≠ childPid) :
    s.Regards (s'.settleForkChild childPid) q := by
  refine ⟨?_, fun hlives => ?_⟩
  · obtain ⟨parent, hparent, -, rfl⟩ := forkProcess_eq_ok h
    rw [kernelGetpgidDirect, kernelGetpgidDirect, settleForkChild, get_modify, if_neg hq,
      forked, get_modify, get_put, get_put]
    by_cases hqp : q = parentPid
    · subst hqp
      rw [if_pos rfl, if_neg hq, hparent]
      rfl
    · rw [if_neg hqp, if_neg hq]
  · rwa [(lives_forkProcess h).2, if_neg hq] at hlives

/-- So does a spawn, for all but the child. -/
theorem regards_spawnChild {parentPid : ℕ} {argv envp : List Bytes} {actions : List FileAction}
    {attrs : SpawnAttrs} {r : Except Errno ℕ}
    (h : s.spawnChild M.host M.env parentPid argv envp actions attrs = (r, s'))
    (hq : q ≠ s.allocateSpawnPid) : s.Regards s' q := by
  rcases spawnChild_cases h with ⟨-, -, rfl⟩ | ⟨parent, child, c, hparent, hchild, hc, hend⟩
  · exact .of_get rfl
  rcases hend with ⟨rfl, rfl⟩ | ⟨e, -, rfl⟩
  · refine .of_get ((get_spawned child c q).trans (if_neg ?_))
    rwa [spawnChild_pid h]
  · exact .of_get (get_takenBack (get_pid_spawned hchild) c q)

end System

/-! ### Open waits -/

/-- A wait for a process group. -/
def Waiter.isForGroup (x : Waiter) : Bool := x.pid = 0 || x.pid < -1

namespace Worker

/-- Whether a wait is for a child, as the kernel stands. -/
def wantedBy (w : Worker) (x : Waiter) (c : ℕ) : Bool :=
  w.childMatchesWaitTarget c x.pid x.parentPid

/-- A child of the waiting process that has not ended, and that the wait is for. -/
def Supported (w : Worker) (x : Waiter) (c : ℕ) : Prop :=
  w.childToParent.get c = some x.parentPid ∧ w.hasExited c = false ∧ w.wantedBy x c = true

/-- A child of the waiting process that has ended and was not taken, and that the wait is for. -/
def Overlooked (w : Worker) (x : Waiter) (c : ℕ) : Prop :=
  w.childToParent.get c = some x.parentPid ∧ w.hasExited c = true ∧ w.wantedBy x c = true

/-- Every open wait of a living process has a living child to wait for, and none that has
ended. -/
def WaitsHold (w : Worker) : Prop :=
  ∀ x ∈ w.waitingForChild, w.kernel.lives x.parentPid = some none →
    (∃ c, w.Supported x c) ∧ ∀ c, ¬ w.Overlooked x c

/-- Two states of the host say the same about a child and a parent. -/
structure SeesAlike (w w' : Worker) (p c : ℕ) : Prop where
  up : w'.childToParent.get c = w.childToParent.get c
  exited : w'.exitedChildren.get c = w.exitedChildren.get c
  child : w'.kernel.kernelGetpgidDirect c = w.kernel.kernelGetpgidDirect c
  parent : w'.kernel.kernelGetpgidDirect p = w.kernel.kernelGetpgidDirect p

variable {M : Machine} {sigchld : System → ℕ → System} {w w' : Worker} {x : Waiter} {p c : ℕ}

variable (h : w.SeesAlike w' x.parentPid c)

include h

/-- Hosts that see a child alike want it for the same waiters. -/
theorem SeesAlike.wantedBy : w'.wantedBy x c = w.wantedBy x c := by
  have hgroup : ∀ q, w'.kernel.kernelGetpgidDirect q = w.kernel.kernelGetpgidDirect q →
      w'.getProcessPgid q = w.getProcessPgid q := by
    intro q hq
    rw [getProcessPgid, getProcessPgid, hq]
  rw [Worker.wantedBy, Worker.wantedBy, childMatchesWaitTarget, childMatchesWaitTarget,
    hgroup c h.child, hgroup x.parentPid h.parent]

/-- It supports the same waits in both. -/
theorem SeesAlike.supported : w'.Supported x c ↔ w.Supported x c := by
  rw [Supported, Supported, h.up, hasExited, h.exited, h.wantedBy, hasExited]

/-- It is overlooked by the same waits in both. -/
theorem SeesAlike.overlooked : w'.Overlooked x c ↔ w.Overlooked x c := by
  rw [Overlooked, Overlooked, h.up, hasExited, h.exited, h.wantedBy, hasExited]

omit h

/-- The kernel does something that concerns no child on record and no waiting process. -/
theorem WaitsHold.aside (h : w.WaitsHold) {kernel : System}
    (hparents : ∀ x ∈ w.waitingForChild, w.kernel.Regards kernel x.parentPid)
    (hchildren : ∀ c p, w.childToParent.get c = some p →
      kernel.kernelGetpgidDirect c = w.kernel.kernelGetpgidDirect c)
    (processes hostReaped : List ℕ) (nextChildPid : ℕ) :
    { w with
      kernel := kernel
      processes := processes
      hostReaped := hostReaped
      nextChildPid := nextChildPid }.WaitsHold := by
  intro x hx hlives
  obtain ⟨⟨c, hc⟩, hnone⟩ := h x hx ((hparents x hx).2 hlives)
  have halike : ∀ c, w.childToParent.get c = some x.parentPid → w.SeesAlike
      { w with
        kernel := kernel
        processes := processes
        hostReaped := hostReaped
        nextChildPid := nextChildPid } x.parentPid c :=
    fun c hc => ⟨rfl, rfl, hchildren c _ hc, (hparents x hx).1⟩
  refine ⟨⟨c, (halike c hc.1).supported.mpr hc⟩, fun c' hc' => hnone c' ?_⟩
  exact (halike c' hc'.1).overlooked.mp hc'

/-- A child leaves the records and the kernel: the waits that this child was for have another
one. -/
theorem WaitsHold.without (c : ℕ)
    (hothers : ∀ x ∈ w'.waitingForChild, w.kernel.lives x.parentPid = some none →
      (∃ c', c' ≠ c ∧ w.Supported x c') ∧ ∀ c', c' ≠ c → ¬ w.Overlooked x c')
    (hkernel : w'.kernel = (w.kernel.kernelRemoveProcess c).2)
    (hup : ∀ c', w'.childToParent.get c' = if c' = c then none else w.childToParent.get c')
    (hexited : ∀ c', c' ≠ c → w'.exitedChildren.get c' = w.exitedChildren.get c') :
    w'.WaitsHold := by
  intro x hx hlives
  rw [hkernel, System.lives_kernelRemoveProcess] at hlives
  by_cases hparent : x.parentPid = c
  · rw [if_pos hparent] at hlives
    cases hlives
  rw [if_neg hparent] at hlives
  obtain ⟨⟨c', hne, hc'⟩, hnone⟩ := hothers x hx hlives
  have halike : ∀ c', c' ≠ c → w.SeesAlike w' x.parentPid c' := by
    intro c' hne
    refine ⟨?_, hexited c' hne, ?_, ?_⟩
    · rw [hup, if_neg hne]
    · rw [hkernel]
      exact (System.regards_kernelRemoveProcess w.kernel hne).1
    · rw [hkernel]
      exact (System.regards_kernelRemoveProcess w.kernel hparent).1
  refine ⟨⟨c', (halike c' hne).supported.mpr hc'⟩, fun c'' hc'' => ?_⟩
  have hne'' : c'' ≠ c := by
    rintro rfl
    have hcleared := hc''.1
    rw [hup, if_pos rfl] at hcleared
    cases hcleared
  exact hnone c'' hne'' ((halike c'' hne'').overlooked.mp hc'')

/-! ### Ends -/

/-- The waits that the end of a child wakes. -/
def wokenBy (w : Worker) (parentPid childPid : ℕ) (x : Waiter) : Bool :=
  x.parentPid = parentPid && w.childMatchesWaitTarget childPid x.pid parentPid

/-- An end leaves no wait behind that only this child was for: whoever else waits for the child
has another living child to wait for, and the wait that is answered takes the child. -/
def ReportFits (w : Worker) (c : ℕ) : Prop :=
  ∀ p, w.childToParent.get c = some p → w.kernel.lives p = some none →
    ∀ x ∈ w.waitingForChild.eraseP (w.wokenBy p c), w.wokenBy p c x = true →
      (∀ y, w.waitingForChild.find? (w.wokenBy p c) = some y →
        (y.isWaitid && hasFlag y.options WNOWAIT) = false) ∧
      ∃ c', c' ≠ c ∧ w.Supported x c'

/-- A waiter is woken by a child it wants of its own process. -/
theorem wokenBy_iff : w.wokenBy p c x = true ↔ x.parentPid = p ∧ w.wantedBy x c = true := by
  rw [wokenBy, Bool.and_eq_true, decide_eq_true_eq]
  constructor
  · rintro ⟨rfl, h⟩
    exact ⟨rfl, h⟩
  · rintro ⟨rfl, h⟩
    exact ⟨rfl, h⟩

variable {k : System}

/-- A kernel that regards all alike changes nothing that is seen. -/
theorem seesAlike_kernel (hk : ∀ q, w.kernel.Regards k q) (p c : ℕ) :
    w.SeesAlike { w with kernel := k } p c :=
  ⟨rfl, rfl, (hk c).1, (hk p).1⟩

/-- The status of a child is stored: the other children of a waiting process are as before. -/
theorem seesAlike_ended {st : ℤ} {c' : ℕ} (hk : ∀ q, w.kernel.Regards k q) (hne : c' ≠ c) :
    w.SeesAlike (w.ended k c st) p c' :=
  ⟨rfl, get_put_of_ne _ _ hne, (hk c').1, (hk p).1⟩

/-- The waits other than those that an end wakes, once its status is stored. -/
theorem WaitsHold.stored (h : w.WaitsHold) (st : ℤ) (hk : ∀ q, w.kernel.Regards k q)
    (hx : x ∈ w.waitingForChild) (hparent : w.childToParent.get c = some p)
    (hwoken : ¬ w.wokenBy p c x = true) (hlives : k.lives x.parentPid = some none) :
    (∃ c', c' ≠ c ∧ (w.ended k c st).Supported x c') ∧
      ∀ c', ¬ (w.ended k c st).Overlooked x c' := by
  obtain ⟨⟨c', hc'⟩, hnone⟩ := h x hx ((hk x.parentPid).2 hlives)
  -- a wait that the child was for would be woken
  have hnot : w.childToParent.get c = some x.parentPid → ¬ w.wantedBy x c = true := by
    intro hup hwanted
    exact hwoken (wokenBy_iff.mpr ⟨Option.some.inj (hup.symm.trans hparent), hwanted⟩)
  have hne : c' ≠ c := by
    rintro rfl
    exact hnot hc'.1 hc'.2.2
  refine ⟨⟨c', hne, (seesAlike_ended hk hne).supported.mpr hc'⟩, fun c'' hc'' => ?_⟩
  by_cases hc : c'' = c
  · subst hc
    exact hnot hc''.1 ((seesAlike_kernel hk _ c'').wantedBy.symm.trans hc''.2.2)
  · exact hnone c'' ((seesAlike_ended hk hc).overlooked.mp hc'')

/-- Whom an end wakes does not depend on what the kernel makes of `SIGCHLD`. -/
theorem wokenBy_ended (hk : ∀ q, w.kernel.Regards k q) (st : ℤ) (x : Waiter) :
    (decide (x.parentPid = p) && (w.ended k c st).childMatchesWaitTarget c x.pid p) =
      w.wokenBy p c x := by
  by_cases hp : x.parentPid = p
  · subst hp
    exact congrArg (decide (x.parentPid = x.parentPid) && ·) (seesAlike_kernel hk _ c).wantedBy
  · rw [wokenBy, decide_eq_false hp, Bool.false_and, Bool.false_and]

/-- The status is stored, and the first wait that the child is for is answered. -/
theorem WaitsHold.woken (h : w.WaitsHold) (hparent : w.childToParent.get c = some p)
    (hk : ∀ q, w.kernel.Regards k q) (hfits : w.ReportFits c) (st : ℤ) {y : Waiter}
    (hfound : w.waitingForChild.find? (w.wokenBy p c) = some y) :
    ({ w.ended k c st with waitingForChild := w.waitingForChild.eraseP (w.wokenBy p c) }.giveChild
      p c st (y.isWaitid && hasFlag y.options WNOWAIT)).WaitsHold := by
  have hmem : ∀ x ∈ w.waitingForChild.eraseP (w.wokenBy p c), x ∈ w.waitingForChild :=
    fun x hx => List.mem_of_mem_eraseP hx
  -- whoever else the child was for
  have hothers : ∀ x ∈ w.waitingForChild.eraseP (w.wokenBy p c), w.wokenBy p c x = true →
      k.lives x.parentPid = some none →
      (y.isWaitid && hasFlag y.options WNOWAIT) = false ∧ ∃ c', c' ≠ c ∧ w.Supported x c' := by
    intro x hx hwoken hlives
    obtain rfl := (wokenBy_iff.mp hwoken).1
    obtain ⟨htakes, hother⟩ := hfits _ hparent ((hk _).2 hlives) x hx hwoken
    exact ⟨htakes y hfound, hother⟩
  cases hkeep : (y.isWaitid && hasFlag y.options WNOWAIT) with
  | true =>
    intro x hx hlives
    have hwoken : ¬ w.wokenBy p c x = true := by
      intro hwoken
      have hfalse := (hothers x hx hwoken hlives).1
      rw [hkeep] at hfalse
      cases hfalse.symm
    obtain ⟨⟨c', -, hc'⟩, hnone⟩ := h.stored st hk (hmem x hx) hparent hwoken hlives
    exact ⟨⟨c', hc'⟩, hnone⟩
  | false =>
    refine WaitsHold.without (w := w.ended k c st) c ?_ rfl (get_clear w.childToParent c) ?_
    · intro x hx hlives
      by_cases hwoken : w.wokenBy p c x = true
      · obtain ⟨-, c', hne, hc'⟩ := hothers x hx hwoken hlives
        have hnone := (h x (hmem x hx) ((hk _).2 hlives)).2
        refine ⟨⟨c', hne, (seesAlike_ended hk hne).supported.mpr hc'⟩, ?_⟩
        exact fun c'' hne' hc'' => hnone c'' ((seesAlike_ended hk hne').overlooked.mp hc'')
      · obtain ⟨hsupported, hnone⟩ := h.stored st hk (hmem x hx) hparent hwoken hlives
        exact ⟨hsupported, fun c' _ => hnone c'⟩
    · exact fun c' hne => (get_clear _ _ _).trans (if_neg hne)

/-- **The end of a child is reported** to a parent that does not reap its children without a
wait. -/
theorem WaitsHold.reportEnd (h : w.WaitsHold) (hauto : w.WaitedFor w.kernel c)
    (hsig : ∀ k q r, System.Regards k (sigchld k q) r) (hfits : w.ReportFits c) (st : ℤ) :
    (w.reportEnd sigchld c st).WaitsHold := by
  cases hparent : w.childToParent.get c with
  | none =>
    rw [Worker.reportEnd, hparent]
    exact h
  | some p =>
    obtain ⟨k, hsent, hreport⟩ := reportEnd_of_parent sigchld hparent (hauto p hparent) st
    have hk : ∀ q, w.kernel.Regards k q := by
      rcases hsent with rfl | rfl
      · exact fun q => .of_get rfl
      · exact hsig _ p
    rw [hreport]
    simp only [wakeWaitingParent, wokenBy_ended hk st]
    rw [ended]
    cases hfound : w.waitingForChild.find? (w.wokenBy p c) with
    | none =>
      intro x hx hlives
      have hwoken := List.find?_eq_none.mp hfound x hx
      obtain ⟨⟨c', -, hc'⟩, hnone⟩ := h.stored st hk hx hparent hwoken hlives
      exact ⟨⟨c', hc'⟩, hnone⟩
    | some => exact h.woken hparent hk hfits st hfound

/-! ### Waits -/

/-- A wait is answered with a child that has ended. -/
theorem WaitsHold.giveChild (h : w.WaitsHold) (hended : w.hasExited c = true) (st : ℤ)
    (keep : Bool) : (w.giveChild p c st keep).WaitsHold := by
  cases keep with
  | true => exact h
  | false =>
    refine WaitsHold.without (w := w) c ?_ rfl (get_clear w.childToParent c)
      fun c' hne => (get_clear _ _ _).trans (if_neg hne)
    intro x hx hlives
    obtain ⟨⟨c', hc'⟩, hnone⟩ := h x hx hlives
    refine ⟨⟨c', ?_, hc'⟩, fun c'' _ => hnone c''⟩
    rintro rfl
    cases hc'.2.1.symm.trans hended

/-- A wait is put off that has a child to wait for. -/
theorem WaitsHold.deferred (h : w.WaitsHold) (hliving : ∃ c, w.Supported x c)
    (hended : ∀ c, ¬ w.Overlooked x c) :
    { w with waitingForChild := w.waitingForChild ++ [x] }.WaitsHold := by
  intro y hy hlives
  rcases List.mem_append.mp hy with hy | hy
  · exact h y hy hlives
  · obtain rfl := List.mem_singleton.mp hy
    exact ⟨hliving, hended⟩

/-- A `waitid` that is put off asks for a kind of number that the host knows, unless no child
has ended. -/
def WaitidFits (w : Worker) (parentPid : ℕ) (idtype id : ℤ) (options : UInt32) : Prop :=
  w.defersWaitid parentPid idtype id options = true →
    (idtype = P_PID ∨ idtype = P_ALL ∨ idtype = P_PGID) ∨
      ∀ c ∈ w.children parentPid, w.hasExited c = false

/-- A wait that is put off has a living child to wait for, and none that has ended. -/
theorem supported_of_defers {call : WaitCall} (hfaithful : call.Faithful)
    (hdefers : w.defers call = true) (htwo : TwoWay w.childToParent w.parentToChildren)
    (hfits : ∀ p idtype id options, call = .waitid p idtype id options →
      w.WaitidFits p idtype id options) :
    (∃ c, w.Supported call.waiter c) ∧ ∀ c, ¬ w.Overlooked call.waiter c := by
  have hwants : ∀ c, call.wants w c = w.wantedBy call.waiter c := by
    intro c
    rw [hfaithful, wantedBy, call.parentPid_waiter]
  suffices hchildren : (∃ c ∈ w.children call.parentPid,
      w.hasExited c = false ∧ call.wants w c = true) ∧
      ∀ c ∈ w.children call.parentPid, w.hasExited c = true → ¬ call.wants w c = true by
    obtain ⟨⟨c, hc, hliving⟩, hnone⟩ := hchildren
    rw [← call.parentPid_waiter] at hc hnone
    rw [hwants] at hliving
    refine ⟨⟨c, (htwo c _).mpr hc, hliving⟩, fun c hc => ?_⟩
    exact hnone c ((htwo c _).mp hc.1) hc.2.1 ((hwants c).trans hc.2.2)
  cases call with
  | wait4 =>
    simp only [defers, Bool.and_eq_true, Bool.not_eq_true', hasMatchingLivingChild,
      List.any_eq_true, findExitedChild, Option.isNone_iff_eq_none, List.find?_eq_none,
      not_and] at hdefers
    exact ⟨hdefers.1.2, hdefers.1.1⟩
  | waitid p idtype id options =>
    have hknown := hfits p idtype id options rfl hdefers
    simp only [defers, defersWaitid, Bool.and_eq_true, Bool.not_eq_true', List.any_eq_true,
      Option.isNone_iff_eq_none] at hdefers
    refine ⟨hdefers.1.2, fun c hc hended => ?_⟩
    rcases hknown with hknown | hliving
    · rw [findWaitidChild, if_pos hknown, List.find?_eq_none] at hdefers
      exact fun hwanted => hdefers.1.1 c hc (Bool.and_eq_true_iff.mpr ⟨hended, hwanted⟩)
    · cases hended.symm.trans (hliving c hc)

/-- A wait that comes in leaves every open wait a child to wait for. -/
theorem WaitsHold.handleWait (h : w.WaitsHold)
    (htwo : TwoWay w.childToParent w.parentToChildren) {call : WaitCall}
    (hfaithful : w.defers call = true → call.Faithful)
    (hfits : ∀ p idtype id options, call = .waitid p idtype id options →
      w.WaitidFits p idtype id options) : (w.handleWait call).WaitsHold := by
  rcases w.handleWait_cases call with ⟨a, -, heq⟩ | ⟨c, -, hended, -, heq⟩ | ⟨hdefers, heq⟩ <;>
    rw [heq]
  · exact h
  · exact h.giveChild hended _ _
  · obtain ⟨hliving, hnone⟩ := supported_of_defers (hfaithful hdefers) hdefers htwo hfits
    exact h.deferred hliving hnone

/-- **The waits are looked through** after a process has changed its group. -/
theorem WaitsHold.recheck (h : w.WaitsHold) (htwo : TwoWay w.childToParent w.parentToChildren)
    (hlives : ∀ q, k.lives q = some none → w.kernel.lives q = some none)
    (hgroups : ∀ x ∈ w.waitingForChild, x.isForGroup = true → k.lives x.parentPid = some none →
      ∀ c, ¬ Overlooked { w with kernel := k } x c) :
    { w with kernel := k }.recheckDeferredWaitpids.WaitsHold := by
  intro x hx hparent
  obtain ⟨hmem, hkept⟩ := List.mem_filter.mp hx
  by_cases hgroup : x.isForGroup = true
  · have hnone := hgroups x hmem hgroup hparent
    refine ⟨?_, hnone⟩
    rw [lostChildren, show (decide (x.pid = 0) || decide (x.pid < -1)) = true from hgroup,
      Bool.true_and, Bool.not_and, Bool.or_eq_true, Bool.not_not, Bool.not_eq_true',
      Option.isNone_eq_false_iff] at hkept
    rcases hkept with hliving | hended
    · obtain ⟨c, hc, hc'⟩ := List.any_eq_true.mp hliving
      rw [Bool.and_eq_true, Bool.not_eq_true'] at hc'
      exact ⟨c, (htwo c x.parentPid).mpr hc, hc'⟩
    obtain ⟨c, hfound⟩ := Option.isSome_iff_exists.mp hended
    have hc := List.find?_some hfound
    rw [Bool.and_eq_true] at hc
    exact absurd ⟨(htwo c x.parentPid).mpr (List.mem_of_find?_eq_some hfound), hc⟩ (hnone c)
  -- a wait for one child, or for any, does not depend on groups
  have hwants : ∀ c, Worker.wantedBy { w with kernel := k } x c = w.wantedBy x c := by
    intro c
    simp only [Waiter.isForGroup, Bool.or_eq_true, decide_eq_true_eq, not_or] at hgroup
    rw [wantedBy, wantedBy, childMatchesWaitTarget, childMatchesWaitTarget]
    by_cases hpos : 0 < x.pid
    · rw [if_pos hpos, if_pos hpos]
    · have hany : x.pid = -1 := by omega
      rw [if_neg hpos, if_neg hpos, if_pos hany, if_pos hany]
  obtain ⟨⟨c, hc⟩, hnone⟩ := h x hmem (hlives _ hparent)
  exact ⟨⟨c, hc.1, hc.2.1, (hwants c).trans hc.2.2⟩,
    fun c' hc' => hnone c' ⟨hc'.1, hc'.2.1, (hwants c').symm.trans hc'.2.2⟩⟩

/-! ### Ends of several processes -/

/-- Whom an end leaves behind does not depend on what the kernel has done since, if it regards
everybody as before. -/
theorem ReportFits.regards (hfits : w.ReportFits c) (hk : ∀ q, w.kernel.Regards k q) :
    { w with kernel := k }.ReportFits c := by
  intro p hparent hlives
  have hwoken : Worker.wokenBy { w with kernel := k } p c = w.wokenBy p c :=
    funext (wokenBy_ended hk 0)
  rw [hwoken]
  intro x hx hx'
  obtain ⟨htakes, c', hne, hc'⟩ := hfits p hparent ((hk p).2 hlives) x hx hx'
  exact ⟨htakes, c', hne, (seesAlike_kernel hk _ c').supported.mpr hc'⟩

/-- So does a kernel that regards all alike. -/
theorem WaitsHold.regards (h : w.WaitsHold) (hk : ∀ q, w.kernel.Regards k q) :
    { w with kernel := k }.WaitsHold :=
  h.aside (fun x _ => hk x.parentPid) (fun c _ _ => (hk c).1) w.processes w.hostReaped
    w.nextChildPid

variable (hsig : ∀ k q r, System.Regards k (sigchld k q) r)

include hsig

/-- So does a reported end. -/
theorem WaitsHold.terminated (h : w.WaitsHold) (hauto : w.WaitedFor w.kernel c)
    (hfits : w.ReportFits c) (st : ℤ) :
    (({ w with hostReaped := addOnce w.hostReaped c }.reportEnd sigchld c
      st).deactivateProcess c).WaitsHold :=
  WaitsHold.reportEnd (w := { w with hostReaped := addOnce w.hostReaped c }) h hauto hsig hfits st

/-- So does the end of a process. -/
theorem WaitsHold.handleProcessTerminated (h : w.WaitsHold) (hauto : w.WaitedFor w.kernel c)
    (hfits : w.ReportFits c) (st : ℤ) :
    (w.handleProcessTerminated sigchld c st).WaitsHold := by
  rw [Worker.handleProcessTerminated]
  split
  · exact h
  · exact h.terminated hsig hauto hfits st

/-- The host asks about the caller, and goes on if it lives. -/
theorem WaitsHold.noticeDeath (h : w.WaitsHold) (andThen : Worker → Worker) {pid : ℕ}
    (hauto : w.kernel.HasEnded pid → w.WaitedFor w.kernel pid)
    (hfits : w.kernel.HasEnded pid → w.ReportFits pid)
    (hthen : w.kernel.kernelGetProcessExitStatus pid < 0 → (andThen w).WaitsHold) :
    ((w.noticeDeath sigchld pid).getD (andThen w)).WaitsHold := by
  simp only [Worker.noticeDeath]
  split
  next hstatus =>
    have hended := System.hasEnded_of_kernelGetProcessExitStatus hstatus
    exact h.handleProcessTerminated hsig (hauto hended) (hfits hended) _
  next hlives => exact hthen (not_le.mp hlives)

/-- A process of the loop after a `kill` whose end, if it is reported, leaves no wait behind. -/
def ReapFits (w : Worker) (pid : ℕ) : Prop :=
  w.kernel.HasEnded pid → pid ∈ w.processes → w.ReportFits pid

/-- So does the end of a killed one. -/
theorem WaitsHold.reapKilled (h : w.WaitsHold) {pid : ℕ} (hwait : w.ReapsByWait)
    (hfits : w.ReapFits pid) : (w.reapKilled sigchld pid).WaitsHold := by
  simp only [Worker.reapKilled]
  split
  · exact h
  next hstatus =>
    have hended := System.hasEnded_of_kernelGetProcessExitStatus (not_lt.mp hstatus)
    split
    · exact h
    split
    next hregistered =>
      exact h.handleProcessTerminated hsig (fun p hp => hwait pid p hp hended hregistered)
        (hfits hended hregistered) _
    next => exact h

/-- **The loop after a kill**, if none of the ends that it reports leaves a wait behind. -/
theorem WaitsHold.reapAll (pids : List ℕ) (h : w.WaitsHold)
    (hfam : w.Families fun c st => (c ∈ pids ∧ c ∈ w.processes) ∧ 0 ≤ st)
    (hreaped : w.hostReaped = []) (hwait : w.ReapsByWait)
    (hspares : ∀ k q, System.Spares k (sigchld k q))
    (hfits : Runs (Worker.reapKilled sigchld) ReapFits w pids) :
    (pids.foldl (Worker.reapKilled sigchld) w).WaitsHold := by
  induction pids generalizing w with
  | nil => exact h
  | cons pid rest ih =>
    obtain ⟨hfam', hreaped', hwait'⟩ := hfam.reapKilled hspares hreaped hwait
    exact ih (h.reapKilled hsig hwait hfits.1) hfam' hreaped' hwait' hfits.2

omit hsig

/-! ### New children -/

/-- **A child is born**: its number is neither a waiting process's nor one with a stored
status. -/
theorem WaitsHold.recordChild (h : w.WaitsHold) {kernel : System}
    (hk : ∀ q, q ≠ c → w.kernel.Regards kernel q) (hnew : w.childToParent.get c = none)
    (hunstored : w.hasExited c = false) (hwaiting : ∀ x ∈ w.waitingForChild, x.parentPid ≠ c)
    (nextChildPid parentPid : ℕ) :
    ({ w with
      kernel := kernel
      nextChildPid := nextChildPid }.recordChild parentPid c).WaitsHold := by
  intro x hx hlives
  have hparent := hk x.parentPid (hwaiting x hx)
  obtain ⟨⟨c', hc'⟩, hnone⟩ := h x hx (hparent.2 hlives)
  have halike : ∀ c', c' ≠ c → w.SeesAlike
      ({ w with kernel := kernel, nextChildPid := nextChildPid }.recordChild parentPid c)
      x.parentPid c' :=
    fun c' hne => ⟨get_put_of_ne _ _ hne, rfl, (hk c' hne).1, hparent.1⟩
  have hne : c' ≠ c := by
    rintro rfl
    cases hnew.symm.trans hc'.1
  refine ⟨⟨c', (halike c' hne).supported.mpr hc'⟩, fun c'' hc'' => ?_⟩
  by_cases hc : c'' = c
  · rw [hc] at hc''
    cases hunstored.symm.trans hc''.2.1
  · exact hnone c'' ((halike c'' hc).overlooked.mp hc'')

/-- The number that a new child gets is neither a waiting process's nor one with a stored
status. -/
def Unheard (w : Worker) (c : ℕ) : Prop :=
  w.hasExited c = false ∧ ∀ x ∈ w.waitingForChild, x.parentPid ≠ c

/-- So does a fork. -/
theorem WaitsHold.handleFork (h : w.WaitsHold) (hset : w.Settled) (parentPid : ℕ)
    (hnew : w.Unheard w.freeChildPid) : (w.handleFork parentPid).2.WaitsHold := by
  simp only [Worker.handleFork]
  generalize w.freeChildPid = childPid at hnew ⊢
  rcases hfork : w.kernel.forkProcess parentPid childPid with ⟨e | u, k⟩
  · rwa [System.forkProcess_eq_error hfork]
  · exact h.recordChild (fun q hq => System.regards_forkProcess hfork hq)
      (hset.unrecorded (System.lives_forkProcess hfork).1) hnew.1 hnew.2 _ parentPid

/-- So does a spawn. -/
theorem WaitsHold.handleSpawnAfterResolve (h : w.WaitsHold) (hset : w.Settled) (parentPid : ℕ)
    (argv envp : List Bytes) (actions : List FileAction) (attrs : SpawnAttrs)
    (hnew : w.Unheard w.kernel.allocateSpawnPid) :
    (w.handleSpawnAfterResolve M parentPid argv envp actions attrs).2.WaitsHold := by
  simp only [Worker.handleSpawnAfterResolve]
  rcases hspawn : w.kernel.spawnChild M.host M.env parentPid argv envp actions attrs with
    ⟨e | childPid, k⟩
  · have hk : ∀ q, q ≠ w.kernel.allocateSpawnPid → w.kernel.Regards k q :=
      fun q hq => System.regards_spawnChild hspawn hq
    refine h.aside (fun x hx => hk _ (hnew.2 x hx)) (fun c p hc => (hk c ?_).1) w.processes
      w.hostReaped w.nextChildPid
    rintro rfl
    obtain ⟨l, hl, -⟩ := hset.accounted _ p hc
    rw [System.lives_allocateSpawnPid] at hl
    cases hl
  obtain rfl : childPid = w.kernel.allocateSpawnPid := System.spawnChild_pid hspawn
  have hfree := w.kernel.lives_allocateSpawnPid
  exact h.recordChild (fun q hq => System.regards_spawnChild hspawn hq)
    (hset.unrecorded hfree) hnew.1 hnew.2 _ parentPid

/-! ### Steps -/

/-- What leaves every open wait with a child to wait for. A call of the kernel regards everybody
as before, except that a change of groups may move processes, as long as no wait for a group
comes to cover a child that has ended; an end leaves no wait behind that only this child was
for; the number of a new process is not that of a waiting process that is gone, nor one with a
status stored; a `waitid` that is put off asks for a kind of number that the host knows; and a
start is taken back only from waits that have another child. -/
def WaitsFit (w : Worker) (e : WorkerEvent) : Prop :=
  match e.action with
  | .create pid =>
    ∀ x ∈ w.waitingForChild, x.parentPid = pid ∨ x.parentPid = 1 →
      w.kernel.procs.get x.parentPid ≠ none
  | .syscall pid k => (∀ q, w.kernel.Regards k q) ∧ (k.HasEnded pid → w.ReportFits pid)
  | .kill pid k ok =>
    (∀ q, w.kernel.Regards k q) ∧ (k.HasEnded pid → w.ReportFits pid) ∧
      (ok = true → Runs (reapKilled e.sigchld) ReapFits { w with kernel := k } w.processes)
  | .setpgid pid k ok =>
    (∀ q, k.lives q = some none → w.kernel.lives q = some none) ∧
      (k.HasEnded pid ∨ ok = false → ∀ q, w.kernel.Regards k q) ∧
      (k.HasEnded pid → w.ReportFits pid) ∧
      (ok = true → ∀ x ∈ w.waitingForChild, x.isForGroup = true →
        k.lives x.parentPid = some none → ∀ c, ¬ Overlooked { w with kernel := k } x c)
  | .unwatched k => ∀ q, w.kernel.Regards k q
  | .retry pid => w.kernel.HasEnded pid → w.ReportFits pid
  | .fork _ => w.Unheard w.freeChildPid
  | .spawn .. => w.Unheard w.kernel.allocateSpawnPid
  | .spawnFailed _ childPid =>
    ∀ x ∈ w.waitingForChild, w.kernel.lives x.parentPid = some none → w.Supported x childPid →
      ∃ c, c ≠ childPid ∧ w.Supported x c
  | .exit pid _ => w.ReportFits pid
  | .crashed pid => pid ∈ w.processes → w.ReportFits pid
  | .waitid parentPid idtype id options => w.WaitidFits parentPid idtype id options
  | _ => True

/-- A step that leaves every open wait with a child to wait for; nobody's group changes where the
kernel handles a `SIGCHLD`. -/
def Considerate (w : Worker) (e : WorkerEvent) : Prop :=
  w.Undisturbed e ∧ w.KeepsTarget e ∧ w.WaitsFit e ∧
    ∀ k q r, System.Regards k (e.sigchld k q) r

/-- A process that is nobody's child leaves the kernel. -/
theorem WaitsHold.removeFromKernelProcessTable (h : w.WaitsHold)
    (hnone : w.childToParent.get c = none) : (w.removeFromKernelProcessTable c).WaitsHold := by
  have hother : ∀ x c', w.Supported x c' → c' ≠ c := by
    rintro x c' hc' rfl
    cases hnone.symm.trans hc'.1
  refine WaitsHold.without (w := w) c ?_ rfl (fun c' => ?_) fun _ _ => rfl
  · intro x hx hlives
    obtain ⟨⟨c', hc'⟩, hnone⟩ := h x hx hlives
    exact ⟨⟨c', hother x c' hc', hc'⟩, fun c'' _ => hnone c''⟩
  split
  next heq => rw [heq]; exact hnone
  next => rfl

/-- **One step.** -/
theorem waits_next {e : WorkerEvent} (h : w.WaitsHold) (hset : w.Settled)
    (hreaped : w.hostReaped = []) (hsane : w.Sane) (he : w.Considerate e) :
    (w.next M e).WaitsHold := by
  obtain ⟨action, sigchld⟩ := e
  obtain ⟨⟨hgenuine, hclean, hspares⟩, hkeeps, hfits, hsig⟩ := he
  cases action with
  | create pid =>
    have hcreated : { w with kernel := (w.kernel.createProcess pid).2 }.WaitsHold := by
      refine h.aside (fun x hx => System.regards_createProcess _ _ (hfits x hx)) (fun c p hc => ?_)
        w.processes w.hostReaped w.nextChildPid
      refine (System.regards_createProcess _ _ fun _ hnone => ?_).1
      obtain ⟨l, hl, -⟩ := hset.accounted c p hc
      rw [System.lives, hnone] at hl
      cases hl
    simp only [next, registerProcess]
    generalize w.kernel.createProcess pid = made at hcreated
    rcases made with ⟨e | u, k⟩ <;> exact hcreated
  | register => exact h
  | prepareExec => exact h
  | syscall =>
    exact (h.regards hfits.1).noticeDeath hsig id hclean.2
      (fun hended => (hfits.2 hended).regards hfits.1) fun _ => h.regards hfits.1
  | kill pid k ok =>
    obtain ⟨hk, hcaller, hloop⟩ := hfits
    refine (h.regards hk).noticeDeath hsig _ (fun hended => hclean.2 pid hended (.inl rfl))
      (fun hended => (hcaller hended).regards hk) fun hlives => ?_
    cases ok with
    | true =>
      rw [if_pos rfl]
      have hothers : { w with
          kernel := k }.Families fun c st => (c ∈ w.processes ∧ c ∈ w.processes) ∧ 0 ≤ st := by
        refine (Families.performs hset hgenuine hclean.1).mono fun c p _ hc => ⟨?_, hc.2⟩
        rcases hc.1 with rfl | hother
        · exact absurd hc.2 (not_le.mpr hlives)
        · exact ⟨hother.2.2, hother.2.2⟩
      exact WaitsHold.reapAll hsig w.processes (h.regards hk) hothers hreaped
        (fun c p hc hended hreg => hclean.2 c hended (.inr hreg) p hc) hspares (hloop rfl)
    | false =>
      rw [if_neg Bool.false_ne_true]
      exact h.regards hk
  | setpgid pid k ok =>
    obtain ⟨hlives, hk, hcaller, hgroups⟩ := hfits
    by_cases hended : 0 ≤ k.kernelGetProcessExitStatus pid
    · have hended' := System.hasEnded_of_kernelGetProcessExitStatus hended
      have hk := hk (.inl hended')
      exact (h.regards hk).noticeDeath hsig _ hclean.2
        (fun hended => (hcaller hended).regards hk) fun hlives => absurd hended (not_le.mpr hlives)
    simp only [next, performed, Worker.noticeDeath, if_neg hended, Option.getD_none]
    cases ok with
    | true =>
      rw [if_pos rfl]
      exact h.recheck hset.twoWay hlives (hgroups rfl)
    | false =>
      rw [if_neg Bool.false_ne_true]
      exact h.regards (hk (.inr rfl))
  | unwatched => exact h.regards hfits
  | retry => exact h.noticeDeath hsig id hclean hfits fun _ => h
  | fork parentPid => exact h.handleFork hset parentPid hfits
  | forkRejected => exact h.removeFromKernelProcessTable hclean
  | spawn parentPid argv envp actions attrs =>
    exact h.handleSpawnAfterResolve hset parentPid argv envp actions attrs hfits
  | spawnFailed parentPid childPid =>
    refine WaitsHold.without (w := w) childPid ?_ rfl
      (get_clear w.childToParent childPid) fun _ _ => rfl
    intro x hx hlives
    obtain ⟨⟨c, hc⟩, hnone⟩ := h x hx hlives
    refine ⟨?_, fun c' _ => hnone c'⟩
    by_cases hcc : c = childPid
    · exact hfits x hx hlives (hcc ▸ hc)
    · exact ⟨c, hcc, hc⟩
  | exit pid status =>
    have hk := fun q => System.regards_after_exit (M := M) w.kernel pid status.toInt q
    simp only [next, Worker.handleExit]
    split
    · exact h.regards hk
    · refine (h.regards hk).terminated hsig (fun p hp => ?_) (ReportFits.regards hfits hk) _
      exact (System.kernelHasSaNocldwait_after_exit status.toInt).trans (hclean p hp)
  | crashed =>
    simp only [next, finalizeProcessWorker]
    split
    next hregistered =>
      rw [notifyHostProcessCrashed, if_neg (by simp [hreaped])]
      exact h.terminated hsig (hclean hregistered) (hfits hregistered) _
    next => exact h
  | unregister => exact h.removeFromKernelProcessTable hclean
  | wait4 parentPid target options =>
    refine h.handleWait hset.twoWay (fun _ => WaitCall.faithful_wait4 parentPid target options) ?_
    rintro _ _ _ _ ⟨⟩
  | waitid =>
    refine h.handleWait hset.twoWay
      (fun hdefers => faithful_of_defersWaitid hsane hdefers (hkeeps hdefers)) ?_
    rintro _ _ _ _ ⟨⟩
    exact hfits

end Worker

/-! ### Whole runs -/

/-- An open wait is in order: it is what the host kept of some call, the process that waits has a
living child that the call asks for, and no child that the call asks for has a status stored. -/
def Worker.InOrder (w : Worker) (x : Waiter) : Prop :=
  ∃ call : WaitCall, call.waiter = x ∧
    (∃ c ∈ w.children x.parentPid, w.kernel.lives c = some none ∧ call.wants w c = true) ∧
    ∀ c ∈ w.children x.parentPid, w.hasExited c = true → call.wants w c = false

/-- **Open waits.** In every state that a run of considerate steps reaches, every open wait of a
living process has a living child to wait for and none that has ended; and the waits that a
process has made are those that were answered and those that are open. -/
theorem open_waits_of_run (M : Machine) (events : List WorkerEvent)
    (hrun : Runs (Worker.next M) Worker.Considerate .boot events) :
    let w := events.foldl (Worker.next M) .boot
    (∀ x ∈ w.waitingForChild, w.kernel.lives x.parentPid = some none → w.InOrder x) ∧
      ∀ p, events.countP (fun e => e.action.waits = some p) =
        w.answers.countP (·.parentPid = p) + w.waitingForChild.countP (·.parentPid = p) := by
  intro w
  have hboot : Worker.boot.WaitsHold ∧ Worker.boot.Settled ∧ Worker.boot.hostReaped = [] ∧
      Worker.boot.Sane := by
    refine ⟨fun x hx => absurd hx List.not_mem_nil, ⟨TwoWay.empty, fun c p hc => ?_⟩, rfl,
      by decide, fun p c hc => ?_, fun x hx => absurd hx List.not_mem_nil⟩
    · cases hc
    · cases hc
  obtain ⟨hwaits, hset, -, hsane⟩ : w.WaitsHold ∧ w.Settled ∧ w.hostReaped = [] ∧ w.Sane := by
    refine hrun.invariant (I := fun w => w.WaitsHold ∧ w.Settled ∧ w.hostReaped = [] ∧ w.Sane) hboot
      ?_
    rintro v e ⟨hv, hset, hreaped, hsane⟩ he
    obtain ⟨hsettled, hnone⟩ := hset.next hreaped he.1
    exact ⟨Worker.waits_next hv hset hreaped hsane he, hsettled, hnone,
      (Worker.explained_next hsane he.2.1).sane⟩
  refine ⟨fun x hx hlives => ?_, fun p => ?_⟩
  · obtain ⟨call, rfl, hfaithful⟩ := hsane.faithful x hx
    obtain ⟨⟨c, hc⟩, hnone⟩ := hwaits _ hx hlives
    have hwants : ∀ c, call.wants w c = w.wantedBy call.waiter c := by
      intro c
      rw [hfaithful, Worker.wantedBy, WaitCall.parentPid_waiter]
    refine ⟨call, rfl, ⟨c, (hset.twoWay c _).mp hc.1, ?_, (hwants c).trans hc.2.2⟩, ?_⟩
    · -- a child on record without a stored status lives
      obtain ⟨l, hl, hend⟩ := hset.accounted c _ hc.1
      rcases l with _ | st
      · exact hl
      · have hstored := (hend st rfl).resolve_right id
        cases hc.2.1.symm.trans hstored
    intro c' hc' hended
    refine Bool.eq_false_iff.mpr fun hwanted => ?_
    exact hnone c' ⟨(hset.twoWay c' _).mpr hc', hended, (hwants c').symm.trans hwanted⟩
  have hcount : ∀ (v : Worker) (es : List WorkerEvent), v.Sane →
      Runs (Worker.next M) Worker.Considerate v es → (es.foldl (Worker.next M) v).accepted p =
        v.accepted p + es.countP (fun e => e.action.waits = some p) := by
    intro v es hv hes
    induction es generalizing v with
    | nil => rfl
    | cons e es ih =>
      have hstep := Worker.explained_next (M := M) hv hes.1.2.1
      rw [List.foldl_cons, ih _ hstep.sane hes.2, hstep.accepted, e.action.map_call,
        List.countP_cons]
      simp only [decide_eq_true_eq]
      omega
  exact ((hcount .boot events hboot.2.2.2 hrun).trans (Nat.zero_add _)).symm

/-- Two threads of a process with two children wait, one of them for child 2 and the other for
any. -/
def twoThreadsWait : List WorkerEvent :=
  [plainly (.create 10), plainly (.spawn 10 [] [] [] .empty), plainly (.register 2),
    plainly (.spawn 10 [] [] [] .empty), plainly (.register 3), plainly (.wait4 10 2 0),
    plainly (.wait4 10 (-1) 0)]

/-- Child 2 ends: the wait for it is answered, and the other one goes on waiting, for child 3. -/
theorem open_waits_two_threads :
    let w := (twoThreadsWait ++ [plainly (.crashed 2)]).foldl (Worker.next (.on .barren)) .boot
    w.answers = [.child 10 2 11] ∧ w.waitingForChild = [⟨10, -1, 0, false⟩] ∧
      w.InOrder ⟨10, -1, 0, false⟩ := by
  have hsig : ∀ (k : System) (q r : ℕ), System.Regards k k r := fun _ _ _ => .of_get rfl
  have hspares : ∀ (k : System) (q : ℕ), k.Spares k := fun _ _ _ => ⟨rfl, rfl⟩
  have hspawn : ∀ w : Worker, w.waitingForChild = [] →
      w.hasExited w.kernel.allocateSpawnPid = false →
      w.Considerate (plainly (.spawn 10 [] [] [] .empty)) := fun w hnobody hunstored =>
    ⟨⟨trivial, trivial, hspares⟩, trivial, ⟨hunstored, by simp [hnobody]⟩, hsig⟩
  have hrun : Runs (Worker.next (.on .barren)) Worker.Considerate .boot
      (twoThreadsWait ++ [plainly (.crashed 2)]) := by
    rw [Runs.concat_iff]
    refine ⟨⟨?_, hspawn _ (by decide +kernel) (by decide +kernel), ?_,
      hspawn _ (by decide +kernel) (by decide +kernel), ?_, ?_, ?_, trivial⟩, ?_⟩
    · exact ⟨⟨trivial, trivial, hspares⟩, trivial, fun x hx => absurd hx List.not_mem_nil, hsig⟩
    iterate 4 exact ⟨⟨trivial, trivial, hspares⟩, trivial, trivial, hsig⟩
    · set w := twoThreadsWait.foldl (Worker.next (.on .barren)) .boot
      have hparent : w.childToParent.get 2 = some 10 := by decide +kernel
      refine ⟨⟨trivial, fun _ p hp => ?_, hspares⟩, trivial, fun _ p hp _ x hx _ => ?_, hsig⟩
      · cases hparent.symm.trans hp
        decide +kernel
      cases hparent.symm.trans hp
      rw [show w.waitingForChild.eraseP (w.wokenBy 10 2) = [⟨10, -1, 0, false⟩] by
        decide +kernel, List.mem_singleton] at hx
      subst hx
      refine ⟨fun y hy => ?_, 3, by decide, ?_, ?_, ?_⟩
      · rw [show w.waitingForChild.find? (w.wokenBy 10 2) = some ⟨10, 2, 0, false⟩ by
          decide +kernel] at hy
        rw [← Option.some.inj hy]
        rfl
      · decide +kernel
      · decide +kernel
      · decide +kernel
  obtain ⟨hopen, -⟩ := open_waits_of_run (.on .barren) _ hrun
  have hwaiting : ((twoThreadsWait ++ [plainly (.crashed 2)]).foldl (Worker.next (.on .barren))
      .boot).waitingForChild = [⟨10, -1, 0, false⟩] := by decide +kernel
  refine ⟨by decide +kernel, hwaiting, hopen _ ?_ (by decide +kernel)⟩
  rw [hwaiting]
  exact List.mem_singleton_self _

/-- Two threads wait for the same child, which ends. -/
def bothWaitForChild : Worker :=
  [plainly (.wait4 10 2 0), plainly (.wait4 10 2 0), plainly (.crashed 2)].foldl
    (Worker.next (.on .barren)) parentAndChild

/-- One thread waits for a child without taking it, another waits for the same child, which
ends. -/
def oneKeepsChild : Worker :=
  [plainly (.waitid 10 P_PID 2 (4 ||| WNOWAIT)), plainly (.wait4 10 2 0),
    plainly (.crashed 2)].foldl (Worker.next (.on .barren)) parentAndChild

/-- **A wait that nobody looks at.** Of two waits for the same child the first is answered. The
second stays open without a child to wait for, or, if the first has left the child, with one
that has ended. -/
theorem open_wait_forgotten : (bothWaitForChild.kernel.lives 10 = some none ∧
        bothWaitForChild.answers = [.child 10 2 11] ∧
        bothWaitForChild.waitingForChild = [⟨10, 2, 0, false⟩] ∧
        bothWaitForChild.children 10 = []) ∧ oneKeepsChild.kernel.lives 10 = some none ∧
        oneKeepsChild.answers = [.child 10 2 11] ∧
        oneKeepsChild.waitingForChild = [⟨10, 2, 0, false⟩] ∧
        oneKeepsChild.findExitedChild 10 2 = some 2 ∧
        oneKeepsChild.hasMatchingLivingChild 10 2 = false := by
  refine ⟨⟨?_, ?_, ?_, ?_⟩, ?_, ?_, ?_, ?_, ?_⟩ <;> decide +kernel

end PosixKernel
