import PosixKernel.WaitStatus

/-!
# Who Is Whose Child

The host keeps the parent of every child and the children of every parent in two tables that
it changes one at a time, in every handler that starts or ends a process. The tables fit
together, and every child on record is a process of the kernel whose end, if it has come, is
on record as well, as long as the host sees every end and undoes every start on both sides.

## Main results

* `Worker.Families.reportEnd` — a reported end is on record;
* `Worker.Families.reapAll` — the loop after a `kill` leaves no end unreported;
* `Worker.Families.next` — one step;
* `families_of_run` — **every run**;
* `families_broken` — what breaks the record.
-/

namespace PosixKernel

/-! ### The record -/

namespace Worker

/-- The two tables fit together, and every child on record is a process of the kernel whose
end, if it has come, is on record or, with its status, still to be reported. -/
structure Families (w : Worker) (unreported : ℕ → ℤ → Prop) : Prop where
  twoWay : TwoWay w.childToParent w.parentToChildren
  accounted : ∀ c p, w.childToParent.get c = some p →
    ∃ l, w.kernel.lives c = some l ∧
      ∀ st, l = some st → (w.exitedChildren.get c).isSome = true ∨ unreported c st

/-- No end is still to be reported. -/
abbrev Settled (w : Worker) : Prop := w.Families fun _ _ => False

/-- Between two steps: no end is still to be reported, and none is being reported. -/
def AtRest (w : Worker) : Prop := w.Settled ∧ w.hostReaped = []

variable {M : Machine} {sigchld : System → ℕ → System} {w : Worker} {unreported : ℕ → ℤ → Prop}
  {pid parentPid : ℕ}

namespace Families

/-- More may be left unreported. -/
theorem mono {unreported' : ℕ → ℤ → Prop} (h : w.Families unreported)
    (hsub : ∀ c p, w.childToParent.get c = some p →
      unreported c (w.kernel.kernelGetProcessExitStatus c) →
      unreported' c (w.kernel.kernelGetProcessExitStatus c)) : w.Families unreported' := by
  refine ⟨h.twoWay, fun c p hc => ?_⟩
  obtain ⟨l, hl, hend⟩ := h.accounted c p hc
  refine ⟨l, hl, fun st hst => ?_⟩
  have hsub' := hsub c p hc
  rw [System.kernelGetProcessExitStatus_of_lives (hl.trans (congrArg some hst))] at hsub'
  exact (hend st hst).imp_right hsub'

/-- Handling a signal that ends nobody changes nothing. -/
theorem spared {k : System} (h : w.Families unreported) (hk : w.kernel.Spares k) :
    { w with kernel := k }.Families unreported := by
  refine ⟨h.twoWay, fun c p hc => ?_⟩
  obtain ⟨l, hl, hend⟩ := h.accounted c p hc
  exact ⟨l, ((hk c).1).trans hl, hend⟩

/-- A number that is free has no parent. -/
theorem unrecorded (h : w.Families unreported) (hnew : w.kernel.lives pid = none) :
    w.childToParent.get pid = none := by
  refine Option.eq_none_iff_forall_ne_some.mpr fun p hp => ?_
  obtain ⟨l, hl, -⟩ := h.accounted pid p hp
  rw [hnew] at hl
  cases hl

variable {childPid : ℕ}

/-- A new process of the kernel is recorded as a child. -/
theorem recordChild {k : System} (h : w.Settled) (hnew : w.kernel.lives childPid = none)
    (hk : ∀ q, k.lives q = if q = childPid then some none else w.kernel.lives q) (parentPid : ℕ) :
    ({ w with kernel := k }.recordChild parentPid childPid).Settled := by
  refine ⟨h.twoWay.link (h.unrecorded hnew) parentPid, fun c p hc => ?_⟩
  simp only [Worker.recordChild, SlotTable.get_put] at hc
  simp only [Worker.recordChild, hk]
  split at hc
  next heq => exact ⟨none, if_pos heq, fun st hst => absurd hst (Option.some_ne_none st).symm⟩
  next hne =>
    rw [if_neg hne]
    exact h.accounted c p hc

variable (h : w.Families unreported)

include h

/-- A process is no child on record any more, and leaves the kernel. -/
theorem forget {down : SlotTable (List ℕ)} {exited : SlotTable ℤ}
    (htwo : TwoWay (w.childToParent.clear childPid) down)
    (hexited : ∀ c, c ≠ childPid → exited.get c = w.exitedChildren.get c) :
    { w with
      kernel := (w.kernel.kernelRemoveProcess childPid).2
      childToParent := w.childToParent.clear childPid
      parentToChildren := down
      exitedChildren := exited }.Families unreported := by
  refine ⟨htwo, fun c p hc => ?_⟩
  simp only [SlotTable.get_clear] at hc
  split at hc
  · cases hc
  next hne =>
    simp only [System.lives_kernelRemoveProcess, if_neg hne, hexited c hne]
    exact h.accounted c p hc

/-- Giving a child to its parent keeps the families. -/
theorem giveChild (hhead : ∀ q, w.childToParent.get childPid = some q → q = parentPid)
    (status : ℤ) (keep : Bool) :
    (w.giveChild parentPid childPid status keep).Families unreported := by
  cases keep with
  | true => exact ⟨h.twoWay, h.accounted⟩
  | false =>
    have hconsumed := h.forget (h.twoWay.unlinkOff hhead) fun _ hne =>
      (SlotTable.get_clear _ childPid _).trans (if_neg hne)
    exact ⟨hconsumed.twoWay, hconsumed.accounted⟩

/-- A child that a parent lists has that parent on record. -/
theorem head (hc : childPid ∈ w.children parentPid) :
    ∀ q, w.childToParent.get childPid = some q → q = parentPid := by
  intro q hq
  rw [(h.twoWay childPid parentPid).mpr hc] at hq
  exact (Option.some.inj hq).symm

/-- So does a wait. -/
theorem handleWait (call : WaitCall) :
    (w.handleWait call).Families unreported ∧ (w.handleWait call).hostReaped = w.hostReaped := by
  rcases w.handleWait_cases call with ⟨a, -, heq⟩ | ⟨c, hc, -, -, heq⟩ | ⟨-, heq⟩ <;> rw [heq]
  · exact ⟨⟨h.twoWay, h.accounted⟩, rfl⟩
  · refine ⟨h.giveChild (h.head hc) _ _, ?_⟩
    cases call.keeps <;> rfl
  · exact ⟨⟨h.twoWay, h.accounted⟩, rfl⟩

/-! ### Reported ends -/

/-- **A reported end is on record**, or taken by a wait at once. -/
theorem reportEnd {unreported' : ℕ → ℤ → Prop} (status : ℤ)
    (hauto : ∀ p, w.childToParent.get pid = some p → w.kernel.kernelHasSaNocldwait p = false)
    (hsig : ∀ k q, System.Spares k (sigchld k q))
    (hrest : ∀ c st, unreported c st → c = pid ∨ unreported' c st) :
    (w.reportEnd sigchld pid status).Families unreported' := by
  rcases reportEnd_cases sigchld w pid status with ⟨hnone, heq⟩ | ⟨parentPid, hparent, -⟩
  · rw [heq]
    refine h.mono fun c p hc hun => (hrest c _ hun).resolve_left ?_
    rintro rfl
    rw [hnone] at hc
    cases hc
  have hstored : (w.ended w.kernel pid status).Families unreported' := by
    refine ⟨h.twoWay, fun c p hc => ?_⟩
    obtain ⟨l, hl, hend⟩ := h.accounted c p hc
    refine ⟨l, hl, fun st hst => ?_⟩
    simp only [ended, SlotTable.get_put]
    split_ifs with hcp
    · exact .inl rfl
    · exact (hend st hst).imp_right fun hun => (hrest c st hun).resolve_left hcp
  obtain ⟨k, hk, hreport⟩ := reportEnd_of_parent sigchld hparent (hauto parentPid hparent) status
  have hspared : (w.ended k pid status).Families unreported' := by
    rcases hk with rfl | rfl
    · exact hstored
    · exact hstored.spared (hsig _ parentPid)
  rw [hreport]
  rcases wakeWaitingParent_cases (w.ended k pid status) parentPid pid status with
    heq | ⟨waiting, keep, heq⟩
  · rwa [heq]
  rw [heq]
  have hwaiting : { w.ended k pid status with waitingForChild := waiting }.Families unreported' :=
    ⟨hspared.twoWay, hspared.accounted⟩
  refine hwaiting.giveChild (fun q hq => ?_) status keep
  rw [show w.childToParent.get pid = some q from hq] at hparent
  exact Option.some.inj hparent

omit h

end Families

/-- The children on record, the ends and the parents that reap without a wait get fewer; who is
registered, and whose end is being reported, stays. -/
structure Shrinks (w w' : Worker) : Prop where
  hostReaped : w'.hostReaped = w.hostReaped
  processes : w'.processes = w.processes
  children : ∀ c p, w'.childToParent.get c = some p → w.childToParent.get c = some p
  ends : ∀ q, w'.kernel.HasEnded q → w.kernel.HasEnded q
  parents : ∀ q, w'.kernel.kernelHasSaNocldwait q = true → w.kernel.kernelHasSaNocldwait q = true

/-- Giving a child only takes from the books. -/
theorem shrinks_giveChild (w : Worker) (parentPid childPid : ℕ) (status : ℤ) (keep : Bool) :
    w.Shrinks (w.giveChild parentPid childPid status keep) := by
  cases keep with
  | true => exact ⟨rfl, rfl, fun _ _ h => h, fun _ h => h, fun _ h => h⟩
  | false =>
    refine ⟨rfl, rfl, fun c p => SlotTable.get_of_get_clear, fun q hq => ?_, fun q hq => ?_⟩
    · obtain ⟨st, hst⟩ := hq
      have hst' : (w.kernel.kernelRemoveProcess childPid).2.lives q = some (some st) := hst
      rw [System.lives_kernelRemoveProcess] at hst'
      split at hst'
      · cases hst'
      · exact ⟨st, hst'⟩
    · exact System.kernelHasSaNocldwait_kernelRemoveProcess hq

variable (hsig : ∀ k q, System.Spares k (sigchld k q))

include hsig

/-- So does reporting an end. -/
theorem shrinks_reportEnd (status : ℤ) :
    w.Shrinks (w.reportEnd sigchld pid status) := by
  rcases reportEnd_cases sigchld w pid status with ⟨-, heq⟩ | ⟨p, hparent, ⟨-, heq⟩ | hauto⟩
  · rw [heq]
    exact ⟨rfl, rfl, fun _ _ h => h, fun _ h => h, fun _ h => h⟩
  · rw [heq]
    exact ⟨rfl, rfl, fun c p => SlotTable.get_of_get_clear, fun _ h => h, fun _ h => h⟩
  obtain ⟨k, hk, hreport⟩ := reportEnd_of_parent sigchld hparent hauto status
  have hspared : w.kernel.Spares k := by
    rcases hk with rfl | rfl
    · exact fun _ => ⟨rfl, rfl⟩
    · exact hsig _ p
  have hends : ∀ q, k.HasEnded q → w.kernel.HasEnded q :=
    fun q ⟨st, hst⟩ => ⟨st, (hspared q).1.symm.trans hst⟩
  have hparents : ∀ q, k.kernelHasSaNocldwait q = true → w.kernel.kernelHasSaNocldwait q = true :=
    fun q hq => (hspared q).2.symm.trans hq
  rw [hreport]
  rcases wakeWaitingParent_cases (w.ended k pid status) p pid status with
    heq | ⟨waiting, keep, heq⟩
  · rw [heq]
    exact ⟨rfl, rfl, fun _ _ h => h, hends, hparents⟩
  rw [heq]
  have hgive := shrinks_giveChild { w.ended k pid status with waitingForChild := waiting } p pid
    status keep
  exact ⟨hgive.hostReaped, hgive.processes, hgive.children, fun q hq => hends q (hgive.ends q hq),
    fun q hq => hparents q (hgive.parents q hq)⟩

/-- The end of one process, when no other is being reported. -/
theorem Families.terminated (unreported' : ℕ → ℤ → Prop) (h : w.Families unreported)
    (hreaped : w.hostReaped = []) (status : ℤ)
    (hauto : ∀ p, w.childToParent.get pid = some p → w.kernel.kernelHasSaNocldwait p = false)
    (hrest : ∀ c st, unreported c st → c = pid ∨ unreported' c st) :
    ((({ w with hostReaped := addOnce w.hostReaped pid }.reportEnd sigchld pid
      status).deactivateProcess pid).Families unreported') ∧
    (({ w with hostReaped := addOnce w.hostReaped pid }.reportEnd sigchld pid
      status).deactivateProcess pid).hostReaped = [] := by
  have hmarked : { w with hostReaped := addOnce w.hostReaped pid }.Families unreported :=
    ⟨h.twoWay, h.accounted⟩
  have hreported := hmarked.reportEnd status hauto hsig hrest
  refine ⟨⟨hreported.twoWay, hreported.accounted⟩, ?_⟩
  simp only [deactivateProcess, (shrinks_reportEnd hsig status).hostReaped, hreaped]
  simp [addOnce]

/-! ### The loop after a kill -/

/-- No registered child that has ended has a parent that reaps without a wait. -/
def ReapsByWait (w : Worker) : Prop :=
  ∀ c p, w.childToParent.get c = some p → w.kernel.HasEnded c → c ∈ w.processes →
    w.kernel.kernelHasSaNocldwait p = false

/-- Reaping a killed process leaves one less unreported. -/
theorem Families.reapKilled {rest : List ℕ}
    (h : w.Families fun c st => (c ∈ pid :: rest ∧ c ∈ w.processes) ∧ 0 ≤ st)
    (hreaped : w.hostReaped = []) (hwait : w.ReapsByWait) : (w.reapKilled sigchld pid).Families
        (fun c st => (c ∈ rest ∧ c ∈ (w.reapKilled sigchld pid).processes) ∧ 0 ≤ st) ∧
      (w.reapKilled sigchld pid).hostReaped = [] ∧ (w.reapKilled sigchld pid).ReapsByWait := by
  have hother : ∀ c, c ∈ pid :: rest ∧ c ∈ w.processes → c ≠ pid → c ∈ rest ∧ c ∈ w.processes :=
    fun c hc hne => ⟨(List.mem_cons.mp hc.1).resolve_left hne, hc.2⟩
  simp only [Worker.reapKilled, hreaped, List.not_mem_nil, if_false]
  split
  next hstatus =>
    -- the process lives
    refine ⟨h.mono fun c p _ hc => ⟨hother c hc.1 ?_, hc.2⟩, hreaped, hwait⟩
    rintro rfl
    exact absurd hc.2 (not_le.mpr hstatus)
  next hstatus =>
    split
    next hregistered =>
      rw [handleProcessTerminated, if_neg (by simp [hreaped])]
      have hended := System.hasEnded_of_kernelGetProcessExitStatus (not_lt.mp hstatus)
      generalize terminatedWaitStatus (w.kernel.kernelGetProcessExitStatus pid) = status
      obtain ⟨hfam, hnone⟩ := h.terminated hsig
        (fun c st => (c ∈ rest ∧ c ∈ w.processes.filter (· ≠ pid)) ∧ 0 ≤ st)
        hreaped status (fun p hp => hwait pid p hp hended hregistered)
        (fun c st hc => (em (c = pid)).imp_right fun hne =>
          ⟨⟨(hother c hc.1 hne).1, List.mem_filter.mpr ⟨hc.1.2, by simpa using hne⟩⟩, hc.2⟩)
      have hshrinks : Shrinks { w with hostReaped := addOnce w.hostReaped pid }
        ({ w with hostReaped := addOnce w.hostReaped pid }.reportEnd sigchld pid status) :=
        shrinks_reportEnd hsig status
      generalize { w with hostReaped := addOnce w.hostReaped pid }.reportEnd sigchld pid
        status = v at hfam hnone hshrinks ⊢
      have hleft : (v.deactivateProcess pid).processes = w.processes.filter (· ≠ pid) := by
        rw [deactivateProcess, hshrinks.processes]
      rw [hleft]
      refine ⟨hfam, hnone, fun c p hc hend hreg => ?_⟩
      rw [hleft] at hreg
      have hbefore := hwait c p (hshrinks.children c p hc) (hshrinks.ends c hend)
        (List.mem_of_mem_filter hreg)
      refine Bool.eq_false_iff.mpr fun hp => ?_
      rw [hshrinks.parents p hp] at hbefore
      cases hbefore.symm
    next hregistered =>
      refine ⟨h.mono fun c p _ hc => ⟨hother c hc.1 ?_, hc.2⟩, hreaped, hwait⟩
      rintro rfl
      exact hregistered hc.1.2

/-- **The loop after a kill** leaves no end of a registered process unreported. -/
theorem Families.reapAll (pids : List ℕ)
    (h : w.Families fun c st => (c ∈ pids ∧ c ∈ w.processes) ∧ 0 ≤ st)
    (hreaped : w.hostReaped = []) (hwait : w.ReapsByWait) :
    (pids.foldl (Worker.reapKilled sigchld) w).AtRest := by
  induction pids generalizing w with
  | nil => exact ⟨h.mono fun c p _ hc => absurd hc.1.1 List.not_mem_nil, hreaped⟩
  | cons pid rest ih =>
    obtain ⟨hfam, hnone, hwait'⟩ := h.reapKilled hsig hreaped hwait
    exact ih hfam hnone hwait'

omit hsig

/-! ### Steps -/

/-- A call of the kernel ends only children that the host looks at next. -/
def EndsOnly (w : Worker) (k : System) (seen : ℕ → Prop) : Prop :=
  ∀ c p, w.childToParent.get c = some p → k.HasEnded c → w.kernel.HasEnded c ∨ seen c

/-- The parent of a process, if it has one, does not reap its children without a wait. -/
def WaitedFor (w : Worker) (k : System) (pid : ℕ) : Prop :=
  ∀ p, w.childToParent.get pid = some p → k.kernelHasSaNocldwait p = false

/-- The kernel that comes with a call is one that has performed a call. -/
def Genuine (w : Worker) : WorkerAction → Prop
  | .syscall _ k => w.kernel.Performs k
  | .kill _ k _ => w.kernel.Performs k
  | .setpgid _ k _ => w.kernel.Performs k
  | .unwatched k => w.kernel.Performs k
  | _ => True

/-- What keeps the record whole. Whoever reports the end of a child finds a parent that does
not reap without a wait; children on record end only where the host looks: the caller, or any
registered child after a `kill` that succeeds and leaves the caller alive; no start of a
`fork` is taken back; that of a `posix_spawn` is taken back from the parent on record; and a
child on record is not unregistered. -/
def Clean (w : Worker) : WorkerAction → Prop
  | .syscall pid k => w.EndsOnly k (· = pid) ∧ (k.HasEnded pid → w.WaitedFor k pid)
  | .setpgid pid k _ => w.EndsOnly k (· = pid) ∧ (k.HasEnded pid → w.WaitedFor k pid)
  | .kill pid k ok =>
    w.EndsOnly k (fun c =>
      c = pid ∨ k.kernelGetProcessExitStatus pid < 0 ∧ ok = true ∧ c ∈ w.processes) ∧
    ∀ c, k.HasEnded c → c = pid ∨ c ∈ w.processes → w.WaitedFor k c
  | .unwatched k => w.EndsOnly k fun _ => False
  | .retry pid => w.kernel.HasEnded pid → w.WaitedFor w.kernel pid
  | .exit pid _ => w.WaitedFor w.kernel pid
  | .crashed pid => pid ∈ w.processes → w.WaitedFor w.kernel pid
  | .forkRejected childPid => w.childToParent.get childPid = none
  | .spawnFailed parentPid childPid => ∀ p, w.childToParent.get childPid = some p → p = parentPid
  | .unregister pid => w.childToParent.get pid = none
  | _ => True

/-- A step that leaves the record whole; a `SIGCHLD` ends nobody in it. -/
def Undisturbed (w : Worker) (e : WorkerEvent) : Prop :=
  w.Genuine e.action ∧ w.Clean e.action ∧ ∀ k q, System.Spares k (e.sigchld k q)

/-- What a call of the kernel leaves to report. -/
theorem Families.performs {k : System} {seen : ℕ → Prop} (h : w.Settled)
    (hk : w.kernel.Performs k) (hends : w.EndsOnly k seen) :
    { w with kernel := k }.Families fun c st => seen c ∧ 0 ≤ st := by
  refine ⟨h.twoWay, fun c p hc => ?_⟩
  obtain ⟨l, hl, hend⟩ := h.accounted c p hc
  have hstored : ∀ st, l = some st → (w.exitedChildren.get c).isSome = true :=
    fun st hst => (hend st hst).resolve_right id
  rcases hk c l hl with hsame | ⟨signum, hdied⟩
  · exact ⟨l, hsame, fun st hst => .inl (hstored st hst)⟩
  refine ⟨_, hdied, fun st hst => ?_⟩
  rcases hends c p hc ⟨_, hdied⟩ with ⟨status, hbefore⟩ | hseen
  · rw [hl] at hbefore
    exact .inl (hstored status (Option.some.inj hbefore))
  refine .inr ⟨hseen, ?_⟩
  rw [← Option.some.inj hst]
  omega

include hsig

/-- The end of the caller, if nothing else is to be reported. -/
theorem Families.handleProcessTerminated (h : w.Families fun c _ => c = pid)
    (hreaped : w.hostReaped = []) (hwait : w.WaitedFor w.kernel pid) (status : ℤ) :
    (w.handleProcessTerminated sigchld pid status).AtRest := by
  rw [Worker.handleProcessTerminated, if_neg (by simp [hreaped])]
  exact h.terminated hsig _ hreaped status hwait fun c _ hc => .inl hc

/-- The host asks about the caller, and goes on if it lives. -/
theorem Families.noticeDeath (andThen : Worker → Worker)
    (h : w.Families fun c st => c = pid ∧ 0 ≤ st)
    (hreaped : w.hostReaped = []) (hwait : w.kernel.HasEnded pid → w.WaitedFor w.kernel pid)
    (hthen : w.Settled → (andThen w).AtRest) :
    ((w.noticeDeath sigchld pid).getD (andThen w)).AtRest := by
  simp only [Worker.noticeDeath]
  split
  next hended =>
    exact (h.mono fun c p _ hc => hc.1).handleProcessTerminated hsig hreaped
      (hwait (System.hasEnded_of_kernelGetProcessExitStatus hended)) _
  next hlives =>
    refine hthen (h.mono fun c p _ hc => ?_)
    have hended := hc.2
    rw [hc.1] at hended
    exact hlives hended

variable (h : w.Settled)

include h

/-- A kill leaves the families at rest. -/
theorem Families.kill {k : System} {ok : Bool} (hreaped : w.hostReaped = [])
    (hk : w.kernel.Performs k) (hclean : w.Clean (.kill pid k ok)) :
    (w.performed sigchld pid k fun w =>
      if ok then w.reapKilledProcessesAfterSyscall sigchld else w).AtRest := by
  obtain ⟨hends, hwait⟩ := hclean
  have hafter := Families.performs h hk hends
  by_cases hdead : 0 ≤ k.kernelGetProcessExitStatus pid
  · -- the caller has ended, and the loop is not reached
    have hcaller : { w with kernel := k }.Families fun c _ => c = pid :=
      hafter.mono fun c p _ hc =>
        hc.1.resolve_right fun hother => absurd hother.1 (not_lt.mpr hdead)
    simp only [performed, Worker.noticeDeath, if_pos hdead, Option.getD_some]
    exact hcaller.handleProcessTerminated hsig hreaped
      (hwait pid (System.hasEnded_of_kernelGetProcessExitStatus hdead) (.inl rfl)) _
  have hothers : { w with
      kernel := k }.Families fun c st => (ok = true ∧ c ∈ w.processes) ∧ 0 ≤ st := by
    refine hafter.mono fun c p _ hc => ⟨?_, hc.2⟩
    rcases hc.1 with rfl | hother
    · exact absurd hc.2 hdead
    · exact hother.2
  simp only [performed, Worker.noticeDeath, if_neg hdead, Option.getD_none]
  cases ok with
  | true =>
    rw [if_pos rfl]
    exact Families.reapAll (w := { w with kernel := k }) hsig w.processes
      (hothers.mono fun c p _ hc => ⟨⟨hc.1.2, hc.1.2⟩, hc.2⟩) hreaped
      fun c p hc hended hreg => hwait c hended (.inr hreg) p hc
  | false =>
    rw [if_neg Bool.false_ne_true]
    exact ⟨hothers.mono fun c p _ hc => absurd hc.1.1 Bool.false_ne_true, hreaped⟩

/-- So does an exit. -/
theorem Families.handleExit (hreaped : w.hostReaped = []) (hwait : w.WaitedFor w.kernel pid)
    (status : ℤ) : (w.handleExit M sigchld pid status).AtRest := by
  have hexited : { w with
      kernel := w.kernel.after M (.exit pid status) }.Families fun c _ => c = pid := by
    refine ⟨h.twoWay, fun c p hc => ?_⟩
    obtain ⟨l, hl, hend⟩ := h.accounted c p hc
    simp only [System.lives_after_exit]
    by_cases hcp : c = pid
    · rw [if_pos ⟨hcp, by rw [← hcp, hl]; exact Option.some_ne_none l⟩]
      exact ⟨_, rfl, fun _ _ => .inr hcp⟩
    · rw [if_neg fun h => hcp h.1]
      exact ⟨l, hl, fun st hst => (hend st hst).imp_right False.elim⟩
  simp only [Worker.handleExit]
  rw [if_neg (by simp [hreaped])]
  refine hexited.terminated hsig _ hreaped _ (fun p hp => ?_) fun c _ hc => .inl hc
  exact (System.kernelHasSaNocldwait_after_exit status).trans (hwait p hp)

omit hsig

/-- So does a fork. -/
theorem Families.handleFork : (w.handleFork parentPid).2.Settled := by
  simp only [Worker.handleFork]
  generalize w.freeChildPid = childPid
  rcases hfork : w.kernel.forkProcess parentPid childPid with ⟨e | u, k⟩
  · rw [System.forkProcess_eq_error hfork]
    exact ⟨h.twoWay, h.accounted⟩
  obtain ⟨hnew, hlives⟩ := System.lives_forkProcess hfork
  have hrecorded := Families.recordChild h hnew hlives parentPid
  exact ⟨hrecorded.twoWay, hrecorded.accounted⟩

/-- So does a spawn. -/
theorem Families.handleSpawnAfterResolve (argv envp : List Bytes) (actions : List FileAction)
    (attrs : SpawnAttrs) :
    (w.handleSpawnAfterResolve M parentPid argv envp actions attrs).2.Settled := by
  simp only [Worker.handleSpawnAfterResolve]
  rcases hspawn : w.kernel.spawnChild M.host M.env parentPid argv envp actions attrs with ⟨r, k⟩
  rcases System.lives_spawnChild hspawn with ⟨e, rfl, hlives⟩ | ⟨childPid, rfl, hnew, hlives⟩
  · refine ⟨h.twoWay, fun c p hc => ?_⟩
    simp only [hlives]
    exact h.accounted c p hc
  · have hrecorded := Families.recordChild h hnew hlives parentPid
    exact ⟨hrecorded.twoWay, hrecorded.accounted⟩

/-- A process that is nobody's child leaves the kernel. -/
theorem Families.removeFromKernelProcessTable (hnone : w.childToParent.get pid = none) :
    (w.removeFromKernelProcessTable pid).Settled := by
  refine ⟨h.twoWay, fun c p hc => ?_⟩
  have hne : c ≠ pid := by
    rintro rfl
    rw [show w.childToParent.get c = some p from hc] at hnone
    exact Option.some_ne_none p hnone
  simp only [Worker.removeFromKernelProcessTable, System.lives_kernelRemoveProcess, if_neg hne]
  exact h.accounted c p hc

/-- **One step** that is not disturbed keeps the record whole. -/
theorem Families.next {e : WorkerEvent} (hreaped : w.hostReaped = []) (he : w.Undisturbed e) :
    (w.next M e).AtRest := by
  obtain ⟨action, sigchld⟩ := e
  obtain ⟨hgenuine, hclean, hsig⟩ := he
  have hfilter : ∀ pid, w.hostReaped.filter (· ≠ pid) = [] := fun pid => by rw [hreaped]; rfl
  cases action with
  | create pid =>
    have hlives : { w with kernel := (w.kernel.createProcess pid).2 }.Settled := by
      refine ⟨h.twoWay, fun c p hc => ?_⟩
      obtain ⟨l, hl, hend⟩ := h.accounted c p hc
      exact ⟨l, System.lives_createProcess hl, hend⟩
    simp only [Worker.next, registerProcess]
    generalize w.kernel.createProcess pid = made at hlives
    rcases made with ⟨e | u, k⟩ <;> exact ⟨⟨hlives.twoWay, hlives.accounted⟩, hfilter pid⟩
  | register pid => exact ⟨⟨h.twoWay, h.accounted⟩, hfilter pid⟩
  | prepareExec => exact ⟨⟨h.twoWay, h.accounted⟩, hreaped⟩
  | syscall =>
    exact (Families.performs h hgenuine hclean.1).noticeDeath hsig id hreaped hclean.2
      fun hset => ⟨hset, hreaped⟩
  | kill => exact Families.kill hsig h hreaped hgenuine hclean
  | setpgid =>
    refine (Families.performs h hgenuine hclean.1).noticeDeath hsig _ hreaped hclean.2
      fun hset => ?_
    split
    · exact ⟨⟨hset.twoWay, hset.accounted⟩, hreaped⟩
    · exact ⟨hset, hreaped⟩
  | unwatched =>
    exact ⟨(Families.performs h hgenuine hclean).mono fun c p _ hc => hc.1, hreaped⟩
  | retry =>
    exact Families.noticeDeath hsig id (h.mono fun c p _ hc => hc.elim) hreaped hclean
      fun hset => ⟨hset, hreaped⟩
  | fork =>
    refine ⟨h.handleFork, ?_⟩
    simp only [Worker.next, Worker.handleFork]
    split <;> exact hreaped
  | forkRejected => exact ⟨h.removeFromKernelProcessTable hclean, hreaped⟩
  | spawn parentPid argv envp actions attrs =>
    refine ⟨h.handleSpawnAfterResolve argv envp actions attrs, ?_⟩
    simp only [Worker.next, Worker.handleSpawnAfterResolve]
    split <;> exact hreaped
  | spawnFailed =>
    exact ⟨Families.forget h (h.twoWay.unlink hclean) fun _ _ => rfl, hreaped⟩
  | exit pid status => exact h.handleExit hsig hreaped hclean status.toInt
  | crashed =>
    simp only [Worker.next, finalizeProcessWorker]
    split
    next hregistered =>
      rw [notifyHostProcessCrashed, if_neg (by simp [hreaped])]
      exact h.terminated hsig _ hreaped _ (hclean hregistered) fun c _ hc => hc.elim
    next => exact ⟨h, hreaped⟩
  | unregister =>
    have hremoved := h.removeFromKernelProcessTable hclean
    exact ⟨⟨hremoved.twoWay, hremoved.accounted⟩, hreaped⟩
  | wait4 parentPid target options =>
    exact (h.handleWait (.wait4 parentPid target options)).imp_right (·.trans hreaped)
  | waitid parentPid idtype id options =>
    exact (h.handleWait (.waitid parentPid idtype id options)).imp_right (·.trans hreaped)

omit h

end Worker

/-- A process that is on record as a child. -/
def Worker.IsChild (w : Worker) (c : ℕ) : Prop :=
  ∃ p, w.childToParent.get c = some p ∨ c ∈ w.children p

/-- A process that lives, or a zombie with a stored status. -/
def Worker.LivesOrZombie (w : Worker) (c : ℕ) : Prop :=
  ∃ p, w.kernel.procs.get c = some p ∧
    (p.state ≠ .Exited ∨ p.state = .Exited ∧ (w.exitedChildren.get c).isSome = true)

/-- **Parents and children.** In every state that a run of undisturbed steps reaches, whatever
forks, spawns, ends, kills, crashes and waits it is made of, the two tables are inverse to each
other, and every child on record lives or is a zombie with a stored status. -/
theorem families_of_run (M : Machine) (events : List WorkerEvent)
    (hrun : Runs (Worker.next M) Worker.Undisturbed .boot events) :
    let w := events.foldl (Worker.next M) .boot
    (∀ c p, w.childToParent.get c = some p ↔ c ∈ w.children p) ∧
      ∀ c, w.IsChild c → w.LivesOrZombie c := by
  intro w
  have hboot : Worker.boot.AtRest := by
    refine ⟨⟨TwoWay.empty, fun c p hc => ?_⟩, rfl⟩
    cases hc
  obtain ⟨hset, -⟩ : w.AtRest :=
    hrun.invariant hboot fun _ _ h he => h.1.next h.2 he
  refine ⟨hset.twoWay, fun c ⟨p, hp⟩ => ?_⟩
  have hup : w.childToParent.get c = some p := hp.elim id (hset.twoWay c p).mpr
  obtain ⟨l, hl, hend⟩ := hset.accounted c p hup
  obtain ⟨proc, hproc, hending⟩ := Option.map_eq_some_iff.mp hl
  refine ⟨proc, hproc, ?_⟩
  by_cases hstate : proc.state = .Exited
  · rw [Process.ending, if_pos hstate] at hending
    exact .inr ⟨hstate, (hend _ hending.symm).resolve_right id⟩
  · exact .inl hstate

/-! ### Runs -/

/-- A step in which the kernel makes nothing of `SIGCHLD`. -/
def plainly (a : WorkerAction) : WorkerEvent := ⟨a, fun k _ => k⟩

/-- The kernel of `parentAndChild` after a signal has ended the child. -/
def childKilled : System := parentAndChild.kernel.after (.on .barren) (.die 2 15)

/-- A child is killed, the `kill` finds it, and its parent has another child. -/
theorem families_of_kill :
    let w := [plainly (.create 10), plainly (.spawn 10 [] [] [] .empty), plainly (.register 2),
      plainly (.kill 10 childKilled true), plainly (.spawn 10 [] [] [] .empty)].foldl
        (Worker.next (.on .barren)) .boot
    (∀ c p, w.childToParent.get c = some p ↔ c ∈ w.children p) ∧
      ∀ c, w.IsChild c → w.LivesOrZombie c := by
  have hspares : ∀ (k : System) (q : ℕ), k.Spares k := fun _ _ _ => ⟨rfl, rfl⟩
  have hchild : ∀ c p, parentAndChild.childToParent.get c = some p → c = 2 ∧ p = 10 := by
    intro c p h
    have hmem := SlotTable.mem_entries.mpr h
    rw [show parentAndChild.childToParent.entries = [(2, 10)] by decide +kernel] at hmem
    simpa using hmem
  have hkill : parentAndChild.Undisturbed (plainly (.kill 10 childKilled true)) := by
    refine ⟨?_, ⟨fun c p hc _ => ?_, fun c _ _ p hc => ?_⟩, hspares⟩
    · exact System.performs_after_die _ 2 15
    · obtain ⟨rfl, -⟩ := hchild c p hc
      exact .inr (.inr ⟨by decide +kernel, rfl, by decide +kernel⟩)
    · obtain ⟨rfl, rfl⟩ := hchild c p hc
      decide +kernel
  exact families_of_run (.on .barren) _
    ⟨⟨trivial, trivial, hspares⟩, ⟨trivial, trivial, hspares⟩, ⟨trivial, trivial, hspares⟩,
      hkill, ⟨trivial, trivial, hspares⟩, trivial⟩

/-- The kernel of `parentAndChild` after the parent has set `SIGCHLD` to be ignored. -/
def chldIgnored : System :=
  { parentAndChild.kernel with
    procs := parentAndChild.kernel.procs.modify 10 fun p =>
      { p with signals := p.signals.setHandler SIGCHLD .Ignore } }

/-- The parent reaps its children without a wait; the child ends, and the parent waits. -/
def reapedUnwaited : Worker :=
  [plainly (.syscall 10 chldIgnored), plainly (.crashed 2), plainly (.wait4 10 (-1) 0)].foldl
    (Worker.next (.on .barren)) parentAndChild

/-- A fork whose worker could not be started. -/
def forkUndone : Worker :=
  [plainly (.create 10), plainly (.fork 10), plainly (.forkRejected 100)].foldl
    (Worker.next (.on .barren)) .boot

/-- A signal ends the child where the host does not look. -/
def endedUnseen : Worker :=
  parentAndChild.next (.on .barren) (plainly (.unwatched childKilled))

/-- **What breaks the record.** A parent that reaps its children without a wait keeps listing a
child that has ended, which names no parent, and waits for it without end; a fork whose worker
could not be started leaves a child on record that the kernel does not know; and a child that a
signal has ended where the host does not look has no status stored. -/
theorem families_broken :
    (2 ∈ reapedUnwaited.children 10 ∧ reapedUnwaited.childToParent.get 2 = none ∧
        reapedUnwaited.waitingForChild = [⟨10, -1, 0, false⟩]) ∧
      (forkUndone.childToParent.get 100 = some 10 ∧
        (forkUndone.kernel.procs.get 100).isNone = true) ∧
      endedUnseen.childToParent.get 2 = some 10 ∧
        endedUnseen.kernel.kernelGetProcessExitStatus 2 = 143 ∧
        endedUnseen.exitedChildren.get 2 = none := by
  refine ⟨?_, ?_, ?_⟩ <;> decide +kernel

end PosixKernel
