import PosixKernel.Evolution
import PosixKernel.ExecFailure

/-!
# What Every Reachable State Satisfies

Whatever calls the processes make: pipes are global, every description counts a reference,
descriptions of sockets refer to slots, and a host file handle that anybody holds was given
out by the host or is one of the standard streams.

## Main results

* `Ctx.Sane.proceeds`, `Ctx.Sane.tame` — calls keep a process in order;
* `System.sane_step`, `System.sane_run` — so do all steps of the system.
-/

namespace PosixKernel

open Process Kernel SlotTable

/-- A handle of the host that was given out; the standard streams are open from the
start. -/
def Kernel.Known (k : Kernel) (h : ℤ) : Prop := h < 3 ∨ 0 < k.opened (.hostFile h)

/-- The shared state is in order. -/
structure Kernel.Sane (k : Kernel) : Prop where
  centralized : k.centralized = true
  counted : ∀ h, 0 < k.count (.hostFile h) → 0 ≤ h ∧ k.Known h

/-- A process is in order. -/
structure Process.Sane (p : Process) (k : Kernel) : Prop where
  positive : p.ofdTable.Positive
  negative : ∀ i o, p.ofds i = some o → o.fileType = .Socket → o.hostHandle < 0
  known : ∀ h, 0 ≤ h → 0 < p.holds (.hostFile h) → k.Known h
  plain : p.forkFdActions = []

/-- Both are. -/
structure Ctx.Sane (c : Ctx) : Prop where
  kernel : c.kernel.Sane
  proc : c.proc.Sane c.kernel

/-- The host has given out at least as much as before. -/
def Kernel.Grows (k k' : Kernel) : Prop := ∀ r, r.OnHost → k.opened r ≤ k'.opened r

variable {k : Kernel}

/-- A handle once known stays known. -/
theorem Kernel.Known.mono {k' : Kernel} {h : ℤ} (hknown : k.Known h) (hgrows : k.Grows k') :
    k'.Known h := by
  rcases hknown with hstd | hopened
  · exact .inl hstd
  by_cases hpos : 0 ≤ h
  · exact .inr (lt_of_lt_of_le hopened (hgrows (.hostFile h) hpos))
  · exact .inl (by omega)

/-- Tame changes let the log grow. -/
theorem Kernel.Tame.grows {k' : Kernel} (h : k.Tame k') : k.Grows k' :=
  fun _ _ => h.log.sublist.countP_le

/-- So does leaving it. -/
theorem Kernel.Grows.of_log {k' : Kernel} (h : k'.log = k.log) : k.Grows k' :=
  fun r _ => le_of_eq (opened_congr h r).symm

/-! ### Host files of a process -/

/-- A socket holds no file of the host's. -/
theorem SocketInfo.count_hostFile (s : SocketInfo) (h : ℤ) :
    s.resources.count (.hostFile h) = 0 := by
  rw [List.count_eq_zero]
  simp only [resources, shared, pipeEnds]
  split <;> simp

/-- A process holds files of the host's by its descriptions. -/
theorem Process.holds_hostFile (p : Process) (h : ℤ) :
    p.holds (.hostFile h) = p.ofdTable.total (·.resources.count (.hostFile h)) := by
  have hnone : p.sockets.total (·.resources.count (.hostFile h)) = 0 :=
    total_eq_zero_iff.mpr fun _ s _ => s.count_hostFile h
  rw [holds, hnone, add_zero]

/-- The descriptions that hold a file of the host's. -/
theorem OpenFileDesc.mem_hostFile {o : OpenFileDesc} {h : ℤ} :
    .hostFile h ∈ o.resources ↔ 0 ≤ h ∧ o.hostHandle = h ∧
      (o.fileType = .Regular ∨ o.fileType = .Directory ∨ o.fileType = .CharDevice ∨
        o.fileType = .Pipe) := by
  rw [resources_eq]
  rcases hft : o.fileType with _ | _ | _ | _ | _ | _ | _ | _ | _ | _ | _ | _
  case Pipe =>
    by_cases hneg : o.hostHandle < 0
    · simp only [if_pos hneg]
      constructor
      · intro hmem
        simp at hmem
      · omega
    simp only [if_neg hneg, List.mem_singleton, Resource.hostFile.injEq]
    constructor
    · rintro rfl
      exact ⟨not_lt.mp hneg, rfl, by simp⟩
    · rintro ⟨-, rfl, -⟩
      rfl
  case Regular | Directory | CharDevice =>
    by_cases hpos : 0 ≤ o.hostHandle
    · simp only [if_pos hpos, List.mem_singleton, Resource.hostFile.injEq]
      constructor
      · rintro rfl
        exact ⟨hpos, rfl, by simp⟩
      · rintro ⟨-, rfl, -⟩
        rfl
    simp only [if_neg hpos]
    constructor
    · intro hmem
      simp at hmem
    · rintro ⟨hle, rfl, -⟩
      exact absurd hle hpos
  all_goals simp

variable {p : Process}

/-- A file of the host's is held when a description holds it. -/
theorem Process.holds_hostFile_pos {h : ℤ} :
    0 < p.holds (.hostFile h) ↔ ∃ i o, p.ofdTable.get i = some o ∧ .hostFile h ∈ o.resources := by
  rw [holds_hostFile, total_pos_iff]
  simp

/-! ### Calls -/

namespace Ctx.Sane

variable {H : HostIO} {c c' : Ctx}

/-- A sane context can make moves. -/
theorem ok (h : c.Sane) : c.Ok := ⟨h.kernel.centralized, h.proc.positive⟩

end Ctx.Sane

variable {H : HostIO} {c c' : Ctx}

/-- Moves let the log grow. -/
theorem Moves.grows (h : Moves H c c') : c.kernel.Grows c'.kernel :=
  fun _ hr => (h.openFlow hr).opened_le

/-- **What is opened was not open before.** -/
theorem Move.opened_hostFile (hfresh : H.Fresh) (h : Move H c c') (f : ℤ) :
    c'.kernel.opened (.hostFile f) = c.kernel.opened (.hostFile f) ∨
      3 ≤ f ∧ c.kernel.opened (.hostFile f) ≤ c.kernel.closed (.hostFile f) ∧
        c'.kernel.opened (.hostFile f) = c.kernel.opened (.hostFile f) + 1 := by
  cases h with
  | alike hk => exact .inl (hk.opened _).1
  | removed hk =>
    exact .inl ((opened_foldl_drop _ _ _).trans (hk.opened _).1)
  | closed => exact .inl (opened_foldl_drop _ _ _)
  | stale => exact .inl rfl
  | added _ hgain =>
    cases hgain with
    | nothing | ptmx | pts => exact .inl rfl
    | @hostFile h path oflags mode hopen _ _ =>
      obtain ⟨hstd, hclosed⟩ := hfresh _ _ _ _ _ hopen
      rw [opened_logCall]
      by_cases heq : (HostCall.open path oflags mode (.ok h)).opens = some (.hostFile f)
      · obtain rfl : h = f := by simpa [HostCall.opens] using heq
        exact .inr ⟨hstd, hclosed, by rw [if_pos heq]⟩
      · exact .inl (by rw [if_neg heq, Nat.add_zero])

/-- **A handle is opened in turn** through the calls of one process, with holders elsewhere. -/
theorem Moves.openInTurn (hfresh : H.Fresh) (h : Moves H c c') {f : ℤ} (hf : 3 ≤ f) {n : ℕ}
    (hturn : OpenInTurn (c.kernel.count (.hostFile f)) (n + c.proc.holds (.hostFile f))
      (c.kernel.opened (.hostFile f)) (c.kernel.closed (.hostFile f))) :
    OpenInTurn (c'.kernel.count (.hostFile f)) (n + c'.proc.holds (.hostFile f))
      (c'.kernel.opened (.hostFile f)) (c'.kernel.closed (.hostFile f)) := by
  induction h with
  | refl => exact hturn
  | @tail c₁ c₂ _ hmove ih =>
    have hflow := hmove.openFlow (r := .hostFile f) (show 0 ≤ f by omega)
    have hrest : n + c₁.proc.holds (.hostFile f) - c₁.proc.holds (.hostFile f) = n :=
      Nat.add_sub_cancel n _
    rcases hmove.opened_hostFile hfresh f with heq | ⟨-, hclosed, heq⟩
    · rw [heq] at hflow ⊢
      have := ih.flow hflow (Nat.le_add_left _ _)
      rwa [hrest] at this
    · rw [heq] at hflow ⊢
      have := ih.reopening hflow (Nat.le_add_left _ _) hclosed
      rwa [hrest] at this

/-- A standard stream is never opened. -/
theorem Moves.opened_std (hfresh : H.Fresh) (h : Moves H c c') {f : ℤ} (hf : f < 3) :
    c'.kernel.opened (.hostFile f) = c.kernel.opened (.hostFile f) := by
  induction h with
  | refl => rfl
  | tail _ hmove ih =>
    rcases hmove.opened_hostFile hfresh f with heq | ⟨hstd, -⟩
    · exact heq.trans ih
    · omega

/-- Descriptor calls record no host file. -/
theorem Move.count_hostFile_le (h : Move H c c') (f : ℤ) :
    c'.kernel.count (.hostFile f) ≤ c.kernel.count (.hostFile f) := by
  cases h with
  | alike hk => exact (hk.count _).le
  | removed hk =>
    rw [(meter_count _).foldl_drop, hk.count]
    exact Nat.sub_le _ _
  | closed =>
    rw [(meter_count _).foldl_drop]
    exact Nat.sub_le _ _
  | stale => exact Nat.le_refl _
  | added _ hgain => cases hgain <;> exact Nat.le_refl _

/-- Moves count no new user of a host file. -/
theorem Moves.count_hostFile_le (h : Moves H c c') (f : ℤ) :
    c'.kernel.count (.hostFile f) ≤ c.kernel.count (.hostFile f) := by
  induction h with
  | refl => exact Nat.le_refl _
  | tail _ hmove ih => exact (hmove.count_hostFile_le f).trans ih

/-- A move keeps the handles of sockets negative. -/
theorem Move.negative (h : Move H c c')
    (hneg : ∀ i o, c.proc.ofds i = some o → o.fileType = .Socket → o.hostHandle < 0) :
    ∀ i o, c'.proc.ofds i = some o → o.fileType = .Socket → o.hostHandle < 0 := by
  have hcleared : ∀ {p : Process} {i : ℕ}, p.ofds = Function.update c.proc.ofds i none →
      ∀ j o, p.ofds j = some o → o.fileType = .Socket → o.hostHandle < 0 := by
    intro p i hofds j o ho hft
    rw [hofds, Function.update_apply] at ho
    split at ho
    · cases ho
    · exact hneg j o ho hft
  cases h with
  | alike _ hp =>
    intro i o ho hft
    rw [hp.ofds] at ho
    exact hneg i o ho hft
  | removed _ _ _ _ _ hofds => exact hcleared hofds
  | closed _ _ _ _ _ hofds => exact hcleared hofds
  | stale _ _ _ _ hofds => exact hcleared hofds
  | added hfree hgain _ hofds =>
    intro j o ho hft
    rw [hofds, Function.update_apply] at ho
    split at ho
    · cases ho
      exact absurd hft hgain.fileType_ne
    · exact hneg j o ho hft

/-- So do moves. -/
theorem Moves.negative (h : Moves H c c')
    (hneg : ∀ i o, c.proc.ofds i = some o → o.fileType = .Socket → o.hostHandle < 0) :
    ∀ i o, c'.proc.ofds i = some o → o.fileType = .Socket → o.hostHandle < 0 := by
  induction h with
  | refl => exact hneg
  | tail _ hmove ih => exact hmove.negative ih

namespace Ctx.Sane

variable {H : HostIO} {c c' : Ctx}

/-- **Descriptor calls** keep a process in order. -/
theorem proceeds (h : c.Sane) (hcall : Proceeds H c c')
    (hplain : c'.proc.forkFdActions = c.proc.forkFdActions) :
    c'.Sane ∧ c.kernel.Grows c'.kernel := by
  obtain ⟨hmoves, hok⟩ := hcall h.ok
  refine ⟨⟨⟨hok.centralized, fun f hcount => ?_⟩, hok.positive, hmoves.negative h.proc.negative,
    fun f hf hheld => ?_, hplain.trans h.proc.plain⟩, hmoves.grows⟩
  · obtain ⟨hf, hknown⟩ :=
      h.kernel.counted f (lt_of_lt_of_le hcount (hmoves.count_hostFile_le f))
    exact ⟨hf, hknown.mono hmoves.grows⟩
  obtain ⟨hbalance, hrecord, hopened, hclosed, -⟩ := hmoves.openFlow (r := .hostFile f) hf
  by_cases hbefore : 0 < c.proc.holds (.hostFile f)
  · exact (h.proc.known f hf hbefore).mono hmoves.grows
  · exact .inr (by omega)

/-- **Other calls** keep a process in order. -/
theorem tame (h : c.Sane) (hcall : c.Tame c') : c'.Sane := by
  have hgrows := hcall.kernel.grows
  refine ⟨⟨hcall.kernel.centralized.trans h.kernel.centralized, fun f hcount => ?_⟩,
    fun i o ho => ?_, fun i o ho hft => ?_, fun f hf hheld => ?_,
    hcall.actions.trans h.proc.plain⟩
  · rw [count, hcall.kernel.refs] at hcount
    obtain ⟨hf, hknown⟩ := h.kernel.counted f hcount
    exact ⟨hf, hknown.mono hgrows⟩
  · rcases hcall.ofds i o ho with hnew | ⟨j, o', ho', hbecomes⟩
    · exact hnew.1
    · exact hbecomes.positive (h.proc.positive j o' ho')
  · obtain ⟨o₀, ho₀, rfl⟩ := Option.map_eq_some_iff.mp ho
    rcases hcall.ofds i o₀ ho₀ with hnew | ⟨j, o', ho', hbecomes⟩
    · exact hnew.2
    have hneg := h.proc.negative j o'.shape (ofds_eq_some ho')
      (hbecomes.fileType.symm.trans hft)
    exact hbecomes.hostHandle.trans_lt hneg
  obtain ⟨i, o, ho, hmem⟩ := holds_hostFile_pos.mp hheld
  obtain ⟨-, hhandle, hkind⟩ := OpenFileDesc.mem_hostFile.mp hmem
  rcases hcall.ofds i o ho with hnew | ⟨j, o', ho', hbecomes⟩
  · omega
  refine (h.proc.known f hf (holds_hostFile_pos.mpr ⟨j, o', ho', ?_⟩)).mono hgrows
  rw [OpenFileDesc.mem_hostFile, ← hbecomes.fileType, ← hbecomes.hostHandle]
  exact ⟨hf, hhandle, hkind⟩

end Ctx.Sane

/-! ### Steps -/

/-- The processes of a state are in order. -/
structure System.Sane (s : System) : Prop where
  kernel : s.kernel.Sane
  procs : ∀ pid p, s.procs.get pid = some p → p.Sane s.kernel

/-- A sane process stays sane as the log grows. -/
theorem Process.Sane.mono {k' : Kernel} (h : p.Sane k) (hgrows : k.Grows k') : p.Sane k' :=
  ⟨h.positive, h.negative, fun f hf hheld => (h.known f hf hheld).mono hgrows, h.plain⟩

/-- Sanity only depends on what is seen of the descriptions. -/
theorem Process.Sane.congr {q : Process} (h : p.Sane k) (hofds : q.ofds = p.ofds)
    (hpositive : q.ofdTable.Positive) (hplain : q.forkFdActions = p.forkFdActions) : q.Sane k := by
  refine ⟨hpositive, fun i o ho => h.negative i o (by rwa [← hofds]), fun f hf hheld => ?_,
    hplain.trans h.plain⟩
  rw [holds_hostFile, total_ofds_congr (fun _ => rfl) hofds, ← holds_hostFile] at hheld
  exact h.known f hf hheld

/-- A new process has nothing but the standard streams. -/
theorem Process.sane_new (n : ℕ) (argv : List Bytes) (k : Kernel) :
    { new n with argv := argv }.Sane k := by
  have hget : ∀ i o, stdioOfds.get i = some o →
      o.refCount = 1 ∧ o.fileType = .CharDevice ∧ o.hostHandle < 3 := by
    intro i o ho
    rcases i with _ | _ | _ | i
    · cases ho
      exact ⟨rfl, rfl, by decide⟩
    · cases ho
      exact ⟨rfl, rfl, by decide⟩
    · cases ho
      exact ⟨rfl, rfl, by decide⟩
    · cases ho
  refine ⟨fun i o ho => ?_, fun i o ho hft => ?_, fun f _ hheld => ?_, rfl⟩
  · rw [(hget i o ho).1]
    exact Nat.one_pos
  · obtain ⟨o', ho', rfl⟩ := Option.map_eq_some_iff.mp ho
    cases (hget i o' ho').2.1.symm.trans hft
  obtain ⟨i, o, ho, hmem⟩ := holds_hostFile_pos.mp hheld
  obtain ⟨-, rfl, -⟩ := OpenFileDesc.mem_hostFile.mp hmem
  exact .inl (hget i o ho).2.2

/-- What a child is counted for, the host gave out before. -/
theorem Kernel.Sane.inherit {child : Process} (h : k.Sane) (hchild : child.Sane k) :
    (bumpInheritedResourceRefcounts k child).Sane := by
  have hlog := log_foldl_take child.inherited k
  refine ⟨(centralized_foldl_take _ _).trans h.centralized, fun f hcount => ?_⟩
  suffices hbefore : 0 ≤ f ∧ k.Known f from ⟨hbefore.1, hbefore.2.mono (.of_log hlog)⟩
  by_cases hmem : Resource.hostFile f ∈ child.inherited
  · have hpos := List.count_pos_iff.mpr hmem
    have hnone : ∀ s : SocketInfo, s.pipeEnds.count (.hostFile f) = 0 ∧
        s.shared.count (.hostFile f) = 0 := by
      intro s
      have := s.count_hostFile f
      rw [SocketInfo.resources, List.count_append] at this
      omega
    have hends : (child.ofdTable.total fun o => weight
        (·.pipeEnds.count (.hostFile f)) (o.socketSlot.bind child.sockets.get)) = 0 := by
      refine total_eq_zero_iff.mpr fun _ o _ => ?_
      rcases o.socketSlot.bind child.sockets.get with _ | s
      · rfl
      · exact (hnone s).1
    have hshared : child.sockets.total (·.shared.count (.hostFile f)) = 0 :=
      total_eq_zero_iff.mpr fun _ s _ => (hnone s).2
    rw [count_inherited, hends, hshared, ← holds_hostFile] at hpos
    have hheld : 0 < child.holds (.hostFile f) := hpos
    obtain ⟨i, o, -, hres⟩ := holds_hostFile_pos.mp hheld
    have hf := (OpenFileDesc.mem_hostFile.mp hres).1
    exact ⟨hf, hchild.known f hf hheld⟩
  refine h.counted f ?_
  rwa [bumpInheritedResourceRefcounts, (meter_count _).foldl_take fun hin =>
    absurd hin hmem, List.count_eq_zero.mpr hmem] at hcount

/-- Giving resources back keeps the shared state sane. -/
theorem Kernel.Sane.giveBack (h : k.Sane) (rs : List Resource) (pid : ℕ) :
    (cleanupUnix pid (rs.foldl drop k)).Sane ∧
      k.Grows (cleanupUnix pid (rs.foldl drop k)) := by
  have hgrows : k.Grows (cleanupUnix pid (rs.foldl drop k)) :=
    fun r hr => (openFlow_foldl_drop hr rs k 0).opened_le
  refine ⟨⟨(centralized_foldl_drop _ _).trans h.centralized, fun f hcount => ?_⟩, hgrows⟩
  have hle : (cleanupUnix pid (rs.foldl drop k)).count (.hostFile f) ≤
      k.count (.hostFile f) :=
    ((meter_count (.hostFile f)).foldl_drop rs k).le.trans (Nat.sub_le _ _)
  obtain ⟨hf, hknown⟩ := h.counted f (lt_of_lt_of_le hcount hle)
  exact ⟨hf, hknown.mono hgrows⟩

namespace System.Sane

variable {s : System}

/-- Each process of a sane system is in a sane context. -/
theorem ctx (h : s.Sane) {pid : ℕ} {p : Process} (hp : s.procs.get pid = some p) :
    (Ctx.mk s.kernel p).Sane :=
  ⟨h.kernel, h.procs pid p hp⟩

/-- A sane context may be committed. -/
theorem commit (h : s.Sane) {pid : ℕ} {c : Ctx} (hc : c.Sane)
    (hgrows : s.kernel.Grows c.kernel) : (s.commit pid c).Sane := by
  refine ⟨hc.kernel, fun q p hp => ?_⟩
  rw [get_commit] at hp
  split at hp
  · cases hp
    exact hc.proc
  · exact (h.procs q p hp).mono hgrows

/-- A sane child may be inserted. -/
theorem insert (h : s.Sane) {child : Process} (hchild : child.Sane s.kernel) (pid : ℕ) :
    (System.mk (bumpInheritedResourceRefcounts s.kernel child)
      (s.procs.put pid (some child))).Sane := by
  have hgrows : s.kernel.Grows (bumpInheritedResourceRefcounts s.kernel child) :=
    .of_log (log_foldl_take _ _)
  exact ⟨h.kernel.inherit hchild,
    forall_put (hchild.mono hgrows) fun q p hp => (h.procs q p hp).mono hgrows⟩

/-- A process may be removed. -/
theorem removed (h : s.Sane) (pid : ℕ) (p : Process) : (s.removed pid p).Sane := by
  obtain ⟨hkernel, hgrows⟩ := h.kernel.giveBack p.returned pid
  exact ⟨hkernel, fun q p' hp => (h.procs q p' (get_of_get_clear hp)).mono hgrows⟩

end System.Sane

/-- A fork of a sane process that fits is sane. -/
theorem Process.Sane.forkedChild (h : p.Sane k) (hfits : p.Fits) (childPid : ℕ) :
    (forkedChild p childPid).Sane k := by
  refine h.congr (ofds_forkedChild hfits childPid)
    (positive_forkedChild hfits h.positive childPid) ?_
  show p.forkFdActions.filterMap fdActionImage = p.forkFdActions
  rw [h.plain]
  rfl

/-- So is a spawned child. -/
theorem Process.Sane.spawnedChild (h : p.Sane k) (parentPid childPid : ℕ) (argv envp : List Bytes)
    (attrs : SpawnAttrs) : (spawnedChild p parentPid childPid argv envp attrs).Sane k := by
  refine h.congr (ofds_spawnedChild p parentPid childPid argv envp attrs)
    (positive_spawnedChild h.positive parentPid childPid argv envp attrs) ?_
  rw [h.plain]
  simp only [PosixKernel.spawnedChild, spawnGroup]
  split <;> split <;> rfl

/-- What is left after closing descriptors still fits. -/
theorem ofdFits_closeFds (fds : List ℕ)
    (h : ∀ i o, c.proc.ofdTable.get i = some o → i < 2 ^ 32 ∧ o.Fits) :
    ∀ i o, (closeFds H c fds).proc.ofdTable.get i = some o → i < 2 ^ 32 ∧ o.Fits := by
  induction fds generalizing c with
  | nil => exact h
  | cons fd fds ih =>
    refine ih fun i o ho => ?_
    simp only at ho
    rcases sysClose_cases H c fd with ⟨-, heq⟩ | ⟨j, e, -, -, -, heq⟩ |
      ⟨j, e, o₀, owner, -, -, ho₀, -, heq⟩
    · rw [heq] at ho
      exact h i o ho
    · rw [heq] at ho
      exact h i o ho
    have htable : (sysClose H c fd).2.proc.ofdTable = (c.proc.ofdTable.decRef e.ofdRef).2 := by
      rw [heq]
      exact (sameCore_dropOfd_dropLocks c j e.ofdRef o₀).ofdTable
    rw [htable, OfdTable.get_decRef ho₀] at ho
    split at ho
    next hi =>
      split at ho
      · cases ho
      cases ho
      obtain ⟨hlt, hhandle, hoffset, hcount⟩ := h e.ofdRef o₀ ho₀
      exact ⟨by rw [hi]; exact hlt, hhandle, hoffset,
        lt_of_le_of_lt (Nat.sub_le _ _) hcount⟩
    · exact h i o ho

/-- The process that an exec puts in place of another one. -/
def execed (c : Ctx) : Ctx :=
  { c with proc := { execImage c.proc c.proc.pid with hasExec := true } }

/-- An exec without pending actions closes what is marked, and then replaces the process if
it can. -/
theorem kernelExecSetup_plain {E : ProcfsEnv} {r : Except Errno Unit}
    (hplain : c.proc.forkFdActions = []) (hexec : kernelExecSetup H E c = (r, c')) :
    c' = closeCloexec H c ∨ c' = execed (closeCloexec H c) := by
  have hstart : (c.updProc fun p => { p with forkFdActions := [] }) = c := by
    rw [Ctx.updProc, ← hplain]
  rcases r with e | u
  · rcases kernelExecSetup_eq_error hexec with hrun | rfl
    · rw [hplain] at hrun
      cases congrArg Prod.fst hrun
    · rw [hplain, hstart]
      exact .inl rfl
  obtain ⟨mid, -, -, -, rfl, hmid⟩ := kernelExecSetup_eq_ok hexec
  rw [hplain, hstart] at hmid
  obtain rfl : mid = closeCloexec H c := hmid
  exact .inr rfl

/-- **An exec** keeps a process in order. -/
theorem Ctx.Sane.exec {E : ProcfsEnv} {r : Except Errno Unit} (h : c.Sane)
    (hfits : ∀ i o, c.proc.ofdTable.get i = some o → i < 2 ^ 32 ∧ o.Fits)
    (hexec : kernelExecSetup H E c = (r, c')) : c'.Sane ∧ c.kernel.Grows c'.kernel := by
  obtain ⟨hclosed, hgrows⟩ : (closeCloexec H c).Sane ∧ c.kernel.Grows (closeCloexec H c).kernel :=
    h.proceeds (proceeds_closeCloexec c) (actions_of_standing (sameSettings_closeFds c _).standing)
  rcases kernelExecSetup_plain h.proc.plain hexec with rfl | rfl
  · exact ⟨hclosed, hgrows⟩
  have hmidfits := ofdFits_closeFds (H := H) (cloexecFds c.proc) hfits
  exact ⟨hclosed.tame ⟨.refl _, .execImage (fun i o ho => (hmidfits i o ho).2) _,
    hclosed.proc.plain.symm⟩, hgrows⟩

namespace System

variable {M : Machine} {s s' : System} {a : Action} {r : Except Errno Reply}

/-- **A spawned child** is in order, and its file actions are descriptor calls. -/
theorem Sane.spawned (h : s.Sane) {parentPid : ℕ} {argv envp : List Bytes} {attrs : SpawnAttrs}
    {actions : List FileAction} {parent child : Process} {c : Ctx}
    (hparent : s.procs.get parentPid = some parent)
    (hchild : child = spawnedChild parent parentPid s.allocateSpawnPid argv envp attrs)
    (hc : c = (applySpawnFileActions M.host (M.env (s.insertSpawned child))
      ⟨(s.insertSpawned child).kernel, child⟩ actions).2) :
    (s.insertSpawned child).Sane ∧ (s.insertSpawned child).procs.get child.pid = some child ∧
      Moves M.host ⟨(s.insertSpawned child).kernel, child⟩ c := by
  have hsane : (s.insertSpawned child).Sane := by
    rw [hchild]
    exact h.insert ((h.procs _ _ hparent).spawnedChild _ _ _ _ _) _
  have hget : (s.insertSpawned child).procs.get child.pid = some child := get_put_self _ _ _
  refine ⟨hsane, hget, ?_⟩
  rw [hc]
  exact (proceeds_applySpawnFileActions (M.env (s.insertSpawned child)) _ actions
    (hsane.ctx hget).ok).1

/-- **Every step** keeps the system in order. -/
theorem sane_step (h : s.Sane) (hfits : s.Fits) (hstep : s.step M a = some (r, s')) : s'.Sane := by
  have hmoves : ∀ {pid p c}, s.procs.get pid = some p → Proceeds M.host ⟨s.kernel, p⟩ c →
      c.proc.forkFdActions = p.forkFdActions → (s.commit pid c).Sane := by
    intro pid p c hp hproceeds hactions
    obtain ⟨hsane, hgrows⟩ := (h.ctx hp).proceeds hproceeds hactions
    exact h.commit hsane hgrows
  cases took_of_step hstep with
  | refused => exact h
  | created pid =>
    exact createProcess_induction h _ fun s n argv hs _ _ =>
      ⟨hs.kernel, forall_put (sane_new n argv _) hs.procs⟩
  | @called _ call _ _ _ hp hrun =>
    cases hmove : call.isMove with
    | true =>
      exact hmoves hp (call.proceeds hmove hrun) (actions_of_standing (call.standing hrun))
    | false =>
      have htame := (call.quiet hmove hrun).tame
      exact h.commit ((h.ctx hp).tame htame) htame.kernel.grows
  | execed hp hexec =>
    obtain ⟨hsane, hgrows⟩ := (h.ctx hp).exec (fun i o ho => (hfits.process hp).ofd ho) hexec
    exact h.commit hsane hgrows
  | @exited _ p hp status =>
    exact hmoves hp (proceeds_sysExit _ status)
      (actions_of_standing (p := p.ended status) (standing_sysExit _ status))
  | died hp signum => exact hmoves hp (proceeds_dieBySignal (H := M.host) _ signum) rfl
  | @forked _ childPid _ hparent =>
    have hchild := (h.procs _ _ hparent).forkedChild (hfits.process hparent) childPid
    have hinserted := h.insert hchild childPid
    exact ⟨hinserted.kernel,
      forall_modify (fun p hp => hp.congr rfl hp.positive rfl) hinserted.procs⟩
  | @spawned _ _ _ actions _ _ child c hparent hnew hc _ _ hend =>
    obtain ⟨hinserted, hget, -⟩ := h.spawned hparent hnew hc
    obtain ⟨hsane, hgrows⟩ := (hinserted.ctx hget).proceeds
      (proceeds_applySpawnFileActions (M.env (s.insertSpawned child)) _ actions)
      (actions_of_standing (standing_applySpawnFileActions _ actions))
    rw [← hc] at hsane hgrows
    rcases hend with ⟨-, rfl⟩ | ⟨e, -, rfl⟩
    · exact hinserted.commit hsane hgrows
    · exact (hinserted.commit hsane hgrows).removed _ _
  | @removed pid p =>
    have hremoved := h.removed pid p
    refine ⟨⟨hremoved.kernel.centralized, hremoved.kernel.counted⟩, fun q p' hp' => ?_⟩
    exact (hremoved.procs q p' hp').mono (.of_log rfl)

/-- The system starts sane. -/
theorem sane_boot : boot.Sane :=
  ⟨⟨rfl, fun _ h => absurd h (Nat.lt_irrefl 0)⟩, fun _ _ h => absurd h (by simp [boot])⟩

/-- **Every state that is reached is in order.** -/
theorem sane_run {admitted : System → Action → Except Errno Reply → Prop}
    (hrun : Run M admitted boot s) : s.Sane ∧ s.Fits := by
  refine hrun.invariant (I := fun s => s.Sane ∧ s.Fits) ⟨sane_boot, ?_⟩ ?_
  · exact fun e he => absurd he (by simp [boot, entries, empty])
  · rintro s a r s' ⟨hsane, hfits⟩ hstep - hfits'
    exact ⟨sane_step hsane hfits hstep, hfits'⟩

end System

end PosixKernel
