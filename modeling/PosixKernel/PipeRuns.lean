import PosixKernel.PipeCounts
import PosixKernel.SystemSteps

/-!
# Pipe Counts in Runs of the System

The counts of the global pipes against the holders in all processes, through creating,
forking, spawning and removing processes and through the calls on pipes and sockets. A
socket that has shut a direction down keeps the number of the pipe, and forking, closing and
removing go by the number: they are right as long as nobody else holds that end, or, for a
new process, as long as the pipe is gone.

## Main results

* `System.PipesSound` — every count is the number of holders;
* `pipesSound_step` — one step of the system;
* `pipeCounts_exact_run` — whole runs.
-/

namespace PosixKernel

open Process SlotTable

/-! ### Ends that are shut down -/

/-- The pipe ends that the sockets of a process have shut down. -/
def Process.shutEnds (p : Process) : List Resource :=
  p.sockets.values.flatMap SocketInfo.shutEnds

/-- The shut ends of a process, counted. -/
theorem Process.count_shutEnds (p : Process) (r : Resource) :
    p.shutEnds.count r = p.shutHolds r := by
  have hzero : (p.ofdTable.total fun _ => 0) = 0 := total_eq_zero_iff.mpr fun _ _ _ => rfl
  rw [shutEnds, count_flatMap_values, shutHolds, sum, hzero, Nat.zero_add]

/-- What a process has shut down has no holder left. -/
def Process.ShutAlone (k : Kernel) (p : Process) : Prop := ∀ r ∈ p.shutEnds, k.count r = 0

/-- What a process has shut down is gone. -/
def Process.ShutGone (k : Kernel) (p : Process) : Prop := ∀ r ∈ p.shutEnds, ¬ k.Live r

instance (k : Kernel) (r : Resource) : Decidable (k.Live r) := by
  cases r <;> unfold Kernel.Live <;> infer_instance

instance (k : Kernel) (p : Process) : Decidable (p.ShutAlone k) :=
  inferInstanceAs (Decidable (∀ r ∈ p.shutEnds, k.count r = 0))

instance (k : Kernel) (p : Process) : Decidable (p.ShutGone k) :=
  inferInstanceAs (Decidable (∀ r ∈ p.shutEnds, ¬ k.Live r))

section Shut

variable {k : Kernel} {p : Process}

/-- One that is counted is listed. -/
theorem Process.mem_shutEnds {r : Resource} (h : 0 < p.shutHolds r) : r ∈ p.shutEnds := by
  rw [← p.count_shutEnds] at h
  exact List.count_pos_iff.mp h

/-- Ends shut by their only holder are dead. -/
theorem Process.ShutAlone.shutDead (h : p.ShutAlone k) : (Ctx.mk k p).ShutDead :=
  fun _ _ hpos => h _ (mem_shutEnds hpos)

end Shut

/-- A new process is paired. -/
theorem Process.paired_new (n : ℕ) (argv : List Bytes) :
    ({ new n with argv := argv } : Process).Paired := by
  refine ⟨fun i o ho hft => ?_, fun j => rfl, fun j s hs => absurd hs (by simp [socks, new])⟩
  rcases i with _ | _ | _ | i
  · cases ho
    cases hft
  · cases ho
    cases hft
  · cases ho
    cases hft
  · cases ho

/-! ### The invariant -/

/-- How many descriptions and sockets hold a pipe end, in all processes. -/
def System.pipeHolders (s : System) (r : Resource) : ℕ := s.procs.total (·.pipeHolds r)

/-- Every count of a global pipe is the number of holders. -/
structure System.PipesSound (s : System) : Prop extends s.Ok where
  wf : s.kernel.pipes.Wf
  paired : ∀ pid p, s.procs.get pid = some p → p.Paired
  exact : ∀ idx e, s.kernel.count (.pipe idx e) = s.pipeHolders (.pipe idx e)

namespace System.PipesSound

variable {s : System} {pid : ℕ} {p : Process}

variable (h : s.PipesSound)

include h

/-- Each process of a sound system is sound. -/
theorem ctx (hp : s.procs.get pid = some p) : (Ctx.mk s.kernel p).PipesSound where
  ok := h.toOk.ctx hp
  wf := h.wf
  paired := h.paired pid p hp
  covered idx e := by
    rw [h.exact]
    exact le_total (f := (·.pipeHolds (.pipe idx e))) hp

/-- **A call of one process.** -/
theorem commit (hp : s.procs.get pid = some p) {c : Ctx}
    (hkeeps : (Ctx.mk s.kernel p).KeepsPipes c) : (s.commit pid c).PipesSound where
  toOk := h.toOk.commit hkeeps.ok
  wf := hkeeps.wf
  paired q p' hp' := by
    rw [get_commit] at hp'
    split at hp'
    · cases hp'
      exact hkeeps.paired
    · exact h.paired q p' hp'
  exact idx e := by
    have hbalance := hkeeps.balance idx e
    have htotal := total_put s.procs (·.pipeHolds (.pipe idx e)) pid (some c.proc)
    rw [hp, weight_some, weight_some] at htotal
    have hexact := h.exact idx e
    rw [pipeHolders] at hexact
    show c.kernel.count (.pipe idx e) = (s.procs.put pid (some c.proc)).total _
    simp only at hbalance
    omega

/-- A change of a process that shows in no table. -/
theorem modify (pid : ℕ) {f : Process → Process} (hofds : ∀ p, (f p).ofdTable = p.ofdTable)
    (hsockets : ∀ p, (f p).sockets = p.sockets) :
    (System.mk s.kernel (s.procs.modify pid f)).PipesSound where
  toOk := h.toOk.modify pid hofds
  wf := h.wf
  paired := by
    refine forall_modify (fun p hp => hp.congr ?_ ?_) h.paired
    · exact funext fun i => by rw [ofds, ofds, hofds]
    · exact funext fun i => by rw [socks, socks, hsockets]
  exact idx e := by
    rw [h.exact, pipeHolders, pipeHolders, total_modify_of_eq]
    intro p
    rw [pipeHolds, pipeHolds, sum, sum, hofds, hsockets]

/-- **A process that starts** holds no pipe. -/
theorem created (hfree : s.procs.get pid = none) (n : ℕ) (argv : List Bytes) :
    (System.mk s.kernel (s.procs.put pid (some { new n with argv := argv }))).PipesSound where
  toOk := h.toOk.created pid n argv
  wf := h.wf
  paired := forall_put (paired_new n argv) h.paired
  exact idx e := by
    rw [h.exact, pipeHolders, pipeHolders, total_put_of_free _ _ hfree]
    rfl

/-- **A new process** with the descriptions and the sockets of another. -/
theorem insert (hp : s.procs.get pid = some p) {childPid : ℕ}
    (hfree : s.procs.get childPid = none) (child : Process) (hofds : child.ofds = p.ofds)
    (hsocks : child.socks = p.socks) (hpos : child.ofdTable.Positive)
    (hgone : p.ShutGone s.kernel) :
    (System.mk (bumpInheritedResourceRefcounts s.kernel child)
      (s.procs.put childPid (some child))).PipesSound ∧
    (Ctx.mk (bumpInheritedResourceRefcounts s.kernel child) child).ShutDead := by
  have hpaired : child.Paired := (h.paired pid p hp).congr hofds hsocks
  have hheld : ∀ r, child.pipeHolds r = p.pipeHolds r :=
    fun r => sum_alike (fun _ => rfl) (fun _ => rfl) hofds hsocks
  have hshut : ∀ r, child.shutHolds r = p.shutHolds r :=
    fun r => sum_alike (fun _ => rfl) (fun _ => rfl) hofds hsocks
  -- an end that was shut down is gone, and taking it is ignored
  have hdead : ∀ idx e, 0 < child.shutHolds (.pipe idx e) →
      s.kernel.count (.pipe idx e) = 0 ∧
        (bumpInheritedResourceRefcounts s.kernel child).count (.pipe idx e) = 0 := by
    intro idx e hposn
    rw [hshut] at hposn
    have hnot := hgone _ (mem_shutEnds hposn)
    exact ⟨Kernel.count_eq_zero_of_dead _ hnot,
      Kernel.count_eq_zero_of_dead _ fun hlive => hnot ((Kernel.live_foldl_take _ _ _).mp hlive)⟩
  refine ⟨⟨h.toOk.insert hpos, Kernel.wf_foldl_take h.wf _, forall_put hpaired h.paired,
    fun idx e => ?_⟩, fun idx e hposn => (hdead idx e hposn).2⟩
  have hexact := h.exact idx e
  have hle : p.pipeHolds (.pipe idx e) ≤ s.pipeHolders (.pipe idx e) :=
    le_total (f := (·.pipeHolds (.pipe idx e))) hp
  show _ = (s.procs.put childPid (some child)).total _
  rw [total_put_of_free _ _ hfree, ← pipeHolders, hheld]
  by_cases hposn : 0 < child.shutHolds (.pipe idx e)
  · obtain ⟨hzero, hzero'⟩ := hdead idx e hposn
    show (bumpInheritedResourceRefcounts s.kernel child).count _ = _
    omega
  have hcount : child.inherited.count (.pipe idx e) = p.pipeHolds (.pipe idx e) := by
    rw [hpaired.count_inherited, holds_pipe, hheld]
    omega
  show (child.inherited.foldl Kernel.take s.kernel).count _ = _
  rw [(Kernel.meter_count _).foldl_take, hcount, hexact]
  intro hmem
  have hposc := List.count_pos_iff.mpr hmem
  exact s.kernel.live_of_count_pos (by omega)

/-- **A process that is removed** gives back what it holds. -/
theorem removed (hp : s.procs.get pid = some p) (hdead : (Ctx.mk s.kernel p).ShutDead) :
    (s.removed pid p).PipesSound where
  toOk := h.toOk.removed pid p
  wf := Kernel.wf_foldl_drop h.wf _
  paired q p' hp' := h.paired q p' (get_of_get_clear hp')
  exact idx e := by
    have hexact := h.exact idx e
    have hzero := hdead idx e
    have htotal := total_clear s.procs (·.pipeHolds (.pipe idx e)) pid
    rw [hp, weight_some] at htotal
    rw [pipeHolders] at hexact
    show (p.returned.foldl Kernel.drop s.kernel).count (.pipe idx e) =
      (s.procs.clear pid).total (·.pipeHolds (.pipe idx e))
    rw [(Kernel.meter_count _).foldl_drop, (h.paired pid p hp).count_returned rfl,
      holds_pipe]
    simp only at hzero
    omega

omit h

end System.PipesSound

/-! ### Steps -/

/-- The condition on a call: a process that closes something has shut nothing down that has
another holder, a new pipe gets its descriptors, and a shutdown gives up what it shuts. -/
def Call.KeepsPipes (k : Kernel) (p : Process) : Call → Prop
  | .dup _ | .fcntlSetFd .. | .socketpair .. => True
  | .close _ | .dup2 .. => p.ShutAlone k
  | .pipe => p.Replays ∨ 2 ≤ p.fdTable.freeNumbers.length
  | .shutdown fd how => p.ShutsOnce fd how
  | _ => False

/-- The condition on a step: a parent has shut nothing down that is not gone, and a process
that ends has shut nothing down that has another holder. -/
def pipeStep (s : System) (a : Action) (_ : Except Errno Reply) : Prop :=
  match a with
  | .create _ | .die .. => True
  | .call pid call => ∀ p ∈ s.procs.get pid, call.KeepsPipes s.kernel p
  | .fork parentPid _ => ∀ p ∈ s.procs.get parentPid, p.ShutGone s.kernel
  | .spawn parentPid .. => ∀ p ∈ s.procs.get parentPid, p.ShutGone s.kernel
  | .exit pid _ | .remove pid => ∀ p ∈ s.procs.get pid, p.ShutAlone s.kernel
  | .exec _ => False

instance (p : Process) : Decidable p.Replays := inferInstanceAs (Decidable (_ ∧ _))

instance (p : Process) (fd : ℤ) (how : UInt32) : Decidable (p.ShutsOnce fd how) := by
  unfold Process.ShutsOnce
  split <;> infer_instance

instance (k : Kernel) (p : Process) (call : Call) : Decidable (call.KeepsPipes k p) := by
  unfold Call.KeepsPipes
  cases call <;> infer_instance

instance (s : System) (a : Action) (r : Except Errno Reply) : Decidable (pipeStep s a r) :=
  match a with
  | .create _ | .die .. => instDecidableTrue
  | .call .. | .fork .. | .spawn .. | .exit .. | .remove _ =>
    inferInstanceAs (Decidable (∀ p ∈ s.procs.get _, _))
  | .exec _ => instDecidableFalse

section Steps

variable {M : Machine} {s s' : System} {r : Except Errno Reply}

/-- Every admitted call keeps the counts. -/
theorem keepsPipes_call {H : HostIO} {E : ProcfsEnv} {c c' : Ctx} (call : Call)
    (h : c.PipesSound) (hcall : call.KeepsPipes c.kernel c.proc)
    (hrun : call.run H E c = some (r, c')) : c.KeepsPipes c' := by
  cases call with
  | close fd =>
    exact h.moves hcall.shutDead (Call.proceeds (.close fd) rfl hrun)
  | dup fd =>
    obtain rfl := returned_eq hrun
    obtain ⟨hk, hp, hpos⟩ := alike_sysDup h.ok fd
    exact h.alike hk hp hpos
  | dup2 oldfd newfd =>
    exact h.moves hcall.shutDead (Call.proceeds (.dup2 oldfd newfd) rfl hrun)
  | fcntlSetFd fd =>
    obtain rfl := returned_eq hrun
    rw [sysFcntlSetFd]
    rcases c.proc.fdTable.get fd with e | entry
    · exact h.alike rfl (.refl _) h.ok.positive
    · exact h.alike rfl ⟨rfl, rfl, rfl⟩ h.ok.positive
  | pipe =>
    obtain rfl := returned_eq hrun
    exact h.sysPipe hcall
  | socketpair domain sockType =>
    obtain rfl := returned_eq hrun
    exact h.sysSocketpair domain sockType
  | shutdown =>
    obtain rfl := returned_eq hrun
    exact h.sysShutdown hcall
  | _ => exact hcall.elim

/-- So does a fork. -/
theorem System.PipesSound.forked (h : s.PipesSound) (hfits : s.Fits) {parentPid childPid : ℕ}
    {parent : Process} (hparent : s.procs.get parentPid = some parent)
    (hfree : s.procs.get childPid = none) (hgone : parent.ShutGone s.kernel) :
    (s.forked parentPid childPid parent).PipesSound := by
  have hpaired := h.paired parentPid parent hparent
  have hpfits := hfits.process hparent
  have hinsert := h.insert hparent hfree _ (ofds_forkedChild hpfits childPid)
    (socks_forkedChild hpfits hpaired childPid)
    (positive_forkedChild hpfits (h.positive parentPid parent hparent) childPid) hgone
  exact hinsert.1.modify parentPid (fun _ => rfl) fun _ => rfl

/-- **One step** under its condition keeps all well with pipes. -/
theorem pipesSound_step {a : Action} (h : s.PipesSound) (hfits : s.Fits)
    (hstep : s.step M a = some (r, s')) (hadm : pipeStep s a r) : s'.PipesSound := by
  cases System.took_of_step hstep with
  | refused => exact h
  | created pid =>
    exact System.createProcess_induction h pid fun _ n argv h hfree _ => h.created hfree n argv
  | called hp hrun => exact h.commit hp (keepsPipes_call _ (h.ctx hp) (hadm _ hp) hrun)
  | execed => exact hadm.elim
  | exited hp status =>
    exact h.commit hp ((h.ctx hp).moves (hadm _ hp).shutDead (proceeds_sysExit _ status))
  | @died pid p hp =>
    exact h.commit hp ((h.ctx hp).alike rfl ⟨rfl, rfl, rfl⟩ (h.positive pid p hp))
  | forked hparent hfree => exact h.forked hfits hparent hfree (hadm _ hparent)
  | @spawned parentPid argv envp actions attrs parent child c hparent hchild hc _ _ hend =>
    have htables := spawnedChild_tables parent parentPid s.allocateSpawnPid argv envp attrs
    have hinsert := h.insert hparent s.get_allocateSpawnPid child
      (by rw [hchild, ofds_spawnedChild])
      (by rw [hchild, socks_spawnedChild _ _ _ _ _ _ (h.paired parentPid parent hparent)])
      (by
        rw [hchild]
        exact positive_spawnedChild (h.positive parentPid parent hparent) _ _ _ _ _)
      (hadm parent hparent)
    rw [← htables.1, ← hchild] at hinsert
    have hget : (s.insertSpawned child).procs.get child.pid = some child :=
      get_put_self _ _ _
    have hproc := proceeds_applySpawnFileActions (H := M.host) (M.env (s.insertSpawned child))
      ⟨(s.insertSpawned child).kernel, child⟩ actions
    rw [← hc] at hproc
    have hsound := hinsert.1.ctx hget
    have hcommit := hinsert.1.commit hget (hsound.moves hinsert.2 hproc)
    rcases hend with ⟨-, rfl⟩ | ⟨e, -, rfl⟩
    · exact hcommit
    refine hcommit.removed (by rw [System.get_commit, if_pos rfl]) ?_
    obtain ⟨hmoves, -⟩ := hproc hsound.ok
    exact hmoves.shutDead hinsert.2
  | removed hp =>
    have hremoved := h.removed hp (hadm _ hp).shutDead
    exact ⟨⟨hremoved.centralized, hremoved.positive⟩, hremoved.wf, hremoved.paired, hremoved.exact⟩

end Steps

/-! ### What a close changes -/

/-- The pipe ends that the object of a descriptor holds. -/
def Process.heldEnds (p : Process) (fd : ℤ) : List Resource :=
  match ofdOf p fd with
  | .error _ => []
  | .ok (_, o) => o.pipeEnds ++ ((o.socketSlot.bind p.sockets.get).map SocketInfo.openEnds).getD []

/-- The ends behind a descriptor. -/
theorem Process.count_heldEnds {p : Process} {fd : ℤ} {idx : ℕ} {o : OpenFileDesc}
    (h : ofdOf p fd = .ok (idx, o)) (r : Resource) : (p.heldEnds fd).count r = o.pipeEnds.count r +
      weight (·.openEnds.count r) (o.socketSlot.bind p.sockets.get) := by
  rw [heldEnds, h]
  simp only [List.count_append]
  rcases o.socketSlot.bind p.sockets.get with _ | s <;> rfl

/-- A descriptor leads to its description. -/
theorem ofdOf_eq_ok {p : Process} {fd : ℤ} {idx : ℕ} {o : OpenFileDesc}
    (h : ofdOf p fd = .ok (idx, o)) : p.ofdTable.get idx = some o := by
  rw [ofdOf] at h
  split at h
  · cases h
  split at h
  · cases h
  next ho =>
    cases h
    exact ho

/-- What a process loses by a close was held by the object of the descriptor. -/
theorem Process.pipeHolds_le_sysClose {H : HostIO} (c : Ctx) (fd : ℤ)
    (hmode : c.kernel.centralized = true) (hpaired : c.proc.Paired) (r : Resource) :
    c.proc.pipeHolds r ≤ (sysClose H c fd).2.proc.pipeHolds r + (c.proc.heldEnds fd).count r := by
  rcases shape_sysClose (H := H) c fd hmode with ⟨hofds, hsocks⟩ | ⟨idx, o, ho, hofds, hsocks⟩
  · have hsame : (sysClose H c fd).2.proc.pipeHolds r = c.proc.pipeHolds r :=
      sum_alike (fun _ => rfl) (fun _ => rfl) hofds hsocks
    omega
  have hget := ofds_eq_some (ofdOf_eq_ok ho)
  rw [count_heldEnds ho]
  rcases hsocks with hsocks | ⟨hft, hsocks⟩
  · have hsum : c.proc.pipeHolds r = (sysClose H c fd).2.proc.pipeHolds r + o.pipeEnds.count r :=
      sum_removed (o := o.shape) (fun _ => rfl) (fun _ => rfl) hget hofds hsocks
    omega
  have hslot : o.socketSlot = some (handleSlot o.hostHandle) :=
    OpenFileDesc.socketSlot_of_socket hft (hpaired.negative idx o.shape hget hft)
  rw [hslot, Option.bind_some]
  rcases hs : c.proc.sockets.get (handleSlot o.hostHandle) with _ | s
  · exact absurd (congrArg (Option.map SocketInfo.shape) hs)
      (hpaired.live (o := o.shape) hget hft)
  have hsum : c.proc.pipeHolds r = (sysClose H c fd).2.proc.pipeHolds r +
      o.pipeEnds.count r + s.openEnds.count r :=
    sum_closed (o := o.shape) (s := s.shape) (fun _ => rfl) (fun _ => rfl) hget
      (congrArg (Option.map SocketInfo.shape) hs) hofds hsocks
  rw [weight_some]
  omega

/-- **A close** of a process that has shut nothing down that has another holder changes only
the counts of ends that the closed object holds. -/
theorem System.PipesSound.close_count {M : Machine} {s s' : System} {pid : ℕ} {p : Process} {fd : ℤ}
    {r : Except Errno Reply} (h : s.PipesSound) (hp : s.procs.get pid = some p)
    (halone : p.ShutAlone s.kernel)
    (hstep : s.step M (.call pid (.close fd)) = some (r, s')) {idx : ℕ} {e : PipeEnd}
    (hother : .pipe idx e ∉ p.heldEnds fd) :
    s'.kernel.count (.pipe idx e) = s.kernel.count (.pipe idx e) := by
  rw [System.step] at hstep
  rcases System.onProcess_eq_some hstep with ⟨hnone, -⟩ | ⟨p', c, hp', hrun, rfl⟩
  · rw [hp] at hnone
    cases hnone
  cases hp.symm.trans hp'
  have hkeeps := keepsPipes_call (.close fd) (h.ctx hp) halone hrun
  obtain rfl := returned_eq hrun
  have hle := pipeHolds_le_sysClose (H := M.host) ⟨s.kernel, p⟩ fd h.centralized
    (h.paired pid p hp) (.pipe idx e)
  have hbalance := hkeeps.balance idx e
  obtain ⟨hmoves, -⟩ := proceeds_sysClose (H := M.host) ⟨s.kernel, p⟩ fd (h.toOk.ctx hp)
  have hcount := Moves.pipes_le hmoves idx e
  have hzero : (p.heldEnds fd).count (.pipe idx e) = 0 := List.count_eq_zero.mpr hother
  show (sysClose M.host ⟨s.kernel, p⟩ fd).2.kernel.count (.pipe idx e) = _
  simp only at hle hbalance hcount
  omega

/-! ### Runs -/

/-- **Pipe counts along runs.** In every state that steps under their condition lead to, a
live pipe counts its readers and writers, nobody holds an end of a slot that is free, and a
further close under its condition changes only counts of pipes that the closed object
holds. -/
theorem pipeCounts_exact_run (M : Machine) (s : System) (hrun : System.Run M pipeStep .boot s) :
    (∀ idx b, s.kernel.pipes.get idx = some b → b.readCount = s.pipeHolders (.pipe idx .read) ∧
        b.writeCount = s.pipeHolders (.pipe idx .write)) ∧
    (∀ idx, s.kernel.pipes.get idx = none → ∀ e, s.pipeHolders (.pipe idx e) = 0) ∧
    ∀ pid p fd r s', s.procs.get pid = some p → p.ShutAlone s.kernel →
      s.step M (.call pid (.close fd)) = some (r, s') → ∀ idx e, .pipe idx e ∉ p.heldEnds fd →
        s'.kernel.count (.pipe idx e) = s.kernel.count (.pipe idx e) := by
  have hinv : s.PipesSound ∧ s.Fits := by
    refine hrun.invariant (I := fun s => s.PipesSound ∧ s.Fits) ⟨?_, by decide⟩ ?_
    · refine ⟨⟨rfl, fun pid p hp => ?_⟩, PipeTable.wf_new, fun pid p hp => ?_, fun idx e => rfl⟩
      · cases hp
      · cases hp
    · intro s a r s' hI hstep hadm hfits
      exact ⟨pipesSound_step hI.1 hI.2 hstep hadm, hfits⟩
  refine ⟨fun idx b hb => ?_, fun idx hnone e => ?_, ?_⟩
  · rw [← hinv.1.exact, ← hinv.1.exact]
    exact ⟨(PipeTable.ends_of_get hb .read).symm, (PipeTable.ends_of_get hb .write).symm⟩
  · rw [← hinv.1.exact]
    show weight _ (s.kernel.pipes.get idx) = 0
    rw [hnone]
    rfl
  · intro pid p fd r s' hp halone hstep idx e hother
    exact hinv.1.close_count hp halone hstep hother

/-- Two processes share a pipe and a pair of sockets; one of them closes an end of the pipe
and goes, the other shuts a socket down. -/
theorem pipeCounts_exact_two_processes :
    ∃ s b, System.Run (.on .barren) pipeStep .boot s ∧ s.kernel.pipes.get 2 = some b ∧
      b.readCount = s.pipeHolders (.pipe 2 .read) ∧
        b.writeCount = s.pipeHolders (.pipe 2 .write) := by
  obtain ⟨s, hs, hb⟩ : ∃ s ∈ System.perform (.on .barren) pipeStep .boot
      [.create 2, .call 2 (.socketpair 1 1), .call 2 .pipe, .spawn 2 [] [] [] .empty,
        .call 3 (.close 5), .call 2 (.shutdown 3 SHUT_RDWR), .remove 3],
      (s.kernel.pipes.get 2).isSome = true := by
    decide +kernel
  have hrun := System.run_of_perform hs
  obtain ⟨b, hb⟩ := Option.isSome_iff_exists.mp hb
  exact ⟨s, b, hrun, hb, (pipeCounts_exact_run _ s hrun).1 2 b hb⟩

/-- A socket that was shut down is closed once its pipe is gone and another one is in the
slot: the new pipe loses its writer, which still has its descriptor. And a socket that was
shut down is closed while a child still holds the end: the pipe loses that writer too. -/
theorem pipeCounts_inexact : (∃ s ∈ System.perform (.on .barren) (fun _ _ _ => True) .boot
        [.create 2, .call 2 (.socketpair 1 1), .call 2 (.shutdown 3 SHUT_RDWR),
          .call 2 (.close 4), .call 2 .pipe, .call 2 (.close 3)],
      ∃ b ∈ s.kernel.pipes.get 0, b.writeCount = 0 ∧ s.pipeHolders (.pipe 0 .write) = 1) ∧
    ∃ s ∈ System.perform (.on .barren) (fun _ _ _ => True) .boot
        [.create 2, .call 2 (.socketpair 1 1), .spawn 2 [] [] [] .empty,
          .call 2 (.shutdown 3 SHUT_WR), .call 2 (.close 3)],
      ∃ b ∈ s.kernel.pipes.get 0, b.writeCount = 0 ∧ s.pipeHolders (.pipe 0 .write) = 1 := by
  decide +kernel

end PosixKernel
