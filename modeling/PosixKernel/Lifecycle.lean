import PosixKernel.RefCount
import PosixKernel.Reachable

/-!
# Processes from Their Start to Their End

What holds of a process along every run, whatever calls are made and whatever other
processes do: what only its end can change, what its descriptions refer to, and what is left
when it exits.

## Main results

* `standing_run` — only its own exec, its end and its removal change its standing;
* `handles_run` — every handle it holds was given out;
* `sysExit_frees` — an exit gives back what descriptions hold.
-/

namespace PosixKernel

open SlotTable Process

/-- The process that a step replaces, ends or takes away. -/
def Action.ending : Action → Option ℕ
  | .exec pid | .exit pid _ | .die pid _ | .remove pid => some pid
  | .create _ | .call .. | .fork .. | .spawn .. => none

namespace System

variable {M : Machine} {s s' : System} {admitted : System → Action → Except Errno Reply → Prop}

/-! ### What others cannot change -/

theorem kept_createProcess {q : ℕ} {p : Process} (hp : s.procs.get q = some p) (pid : ℕ) :
    (s.createProcess pid).2.procs.get q = some p := by
  refine createProcess_induction (I := fun s => s.procs.get q = some p) hp pid ?_
  intro s n argv hp hfree _
  rw [get_put, if_neg, hp]
  rintro rfl
  rw [hp] at hfree
  cases hfree

/-- **Only its own exec, its end and its removal change the standing of a process**: it
keeps its number, its signals, its group and its life through all calls of its own, its
forks, and whatever other processes do. The delivery of pending signals after a call, which the
wrappers of the calls do, is no step of this system. -/
theorem standing_run {q : ℕ} {p : Process} (hp : s.procs.get q = some p)
    (hrun : Run M (fun _ a _ => a.ending ≠ some q) s s') :
    ∃ p', s'.procs.get q = some p' ∧ p'.standing = p.standing := by
  refine hrun.invariant (I := fun s => ∃ p', s.procs.get q = some p' ∧
    p'.standing = p.standing) ⟨p, hp, rfl⟩ ?_
  rintro s a r s' ⟨p', hp', hstanding⟩ hstep hadm -
  -- the steps that end somebody end somebody else
  have hother : ∀ {pid} c, a.ending = some pid → ∃ p', (s.commit pid c).procs.get q = some p' ∧
      p'.standing = p.standing := by
    intro pid c hend
    rw [get_commit, if_neg fun h => hadm (by rw [hend, h])]
    exact ⟨p', hp', hstanding⟩
  cases took_of_step hstep with
  | refused => exact ⟨p', hp', hstanding⟩
  | created pid => exact ⟨p', kept_createProcess hp' pid, hstanding⟩
  | @called pid call _ _ c hcaller hcall =>
    rw [get_commit]
    split_ifs with hq
    · rw [hq, hcaller] at hp'
      cases hp'
      exact ⟨c.proc, rfl, (call.standing hcall).trans hstanding⟩
    · exact ⟨p', hp', hstanding⟩
  | execed _ _ | exited _ _ | died _ _ => exact hother _ rfl
  | @forked parentPid childPid parent hparent hfree =>
    rw [get_forked hparent hfree]
    split_ifs with hq hq
    · rw [hq, hparent] at hp'
      cases hp'
      exact ⟨_, rfl, hstanding⟩
    · rw [hq, hfree] at hp'
      cases hp'
    · exact ⟨p', hp', hstanding⟩
  | @spawned _ _ _ _ _ _ child c _ hchild _ _ _ hend =>
    have hfree := get_pid_spawned hchild
    rcases hend with ⟨-, rfl⟩ | ⟨e, -, rfl⟩
    · rw [get_spawned, if_neg]
      · exact ⟨p', hp', hstanding⟩
      rintro rfl
      rw [hfree] at hp'
      cases hp'
    · exact ⟨p', by rw [get_takenBack hfree, hp'], hstanding⟩
  | @removed pid _ _ owner =>
    refine ⟨p', ?_, hstanding⟩
    show (s.procs.clear pid).get q = some p'
    rw [get_clear, if_neg fun h => hadm (by rw [h]; rfl), hp']

/-- A process opens a pipe and has a child, which dies and is removed. -/
theorem standing_run_parent : ∃ s, Run (.on .barren) (fun _ a _ => a.ending ≠ some 2)
    (boot.createProcess 2).2 s ∧
      ∃ p, s.procs.get 2 = some p ∧ p.standing = (new 2).standing := by
  obtain ⟨s, hs⟩ := Option.isSome_iff_exists.mp (show (perform (.on .barren)
    (fun _ a _ => a.ending ≠ some 2) (boot.createProcess 2).2
    [.call 2 .pipe, .spawn 2 [] [] [] .empty, .die 3 9, .remove 3]).isSome from by decide +kernel)
  have hrun := run_of_perform hs
  exact ⟨s, hrun, standing_run rfl hrun⟩

/-- **Handles in every state that is reached**: every description is referred to, a socket has
a handle of the kernel, and a handle of a host file beyond the standard streams is one that
the host has given out. -/
theorem handles_run (hrun : Run M admitted boot s) {pid i : ℕ} {p : Process} {o : OpenFileDesc}
    (hp : s.procs.get pid = some p) (ho : p.ofdTable.get i = some o) :
    0 < o.refCount ∧ (o.fileType = .Socket → o.hostHandle < 0) ∧
      (.hostFile o.hostHandle ∈ o.resources → 3 ≤ o.hostHandle →
        0 < s.kernel.opened (.hostFile o.hostHandle)) := by
  have hsane := (sane_run hrun).1.procs pid p hp
  refine ⟨hsane.positive i o ho, hsane.negative i o.shape (ofds_eq_some ho), fun hmem hle => ?_⟩
  have hknown := hsane.known _ (by omega) (holds_hostFile_pos.mpr ⟨i, o, ho, hmem⟩)
  exact hknown.resolve_left (by omega)

/-- A child inherits a file and outlives its parent. -/
theorem handles_run_file : ∃ s, Run (.on .counting) (fun _ _ _ => True) boot s ∧
    0 < s.kernel.opened (.hostFile 100) := by
  obtain ⟨s, hs, p, hp, o, ho, hmem, hhandle⟩ : ∃ s ∈ perform (.on .counting)
      (fun _ _ _ => True) boot
      [.create 2, .call 2 (.open (ascii "/f") 0 0), .spawn 2 [] [] [] .empty, .die 2 9],
      ∃ p ∈ s.procs.get 3, ∃ o ∈ p.ofdTable.get 3,
        .hostFile o.hostHandle ∈ o.resources ∧ o.hostHandle = 100 := by decide +kernel
  have hrun := run_of_perform hs
  have hopened := (handles_run hrun hp ho).2.2 hmem (by omega)
  exact ⟨s, hrun, by rwa [hhandle] at hopened⟩

end System

/-! ### The end of a process -/

section Exit

variable {H : HostIO}

theorem ofdTable_sysExit (c : Ctx) (status : ℤ) :
    (sysExit H c status).proc.ofdTable = (closeFds H c (List.range 1024)).proc.ofdTable := by
  have hstreams (c : Ctx) : (closeStreams c).proc.ofdTable = c.proc.ofdTable := by
    rw [closeStreams]
    generalize c.proc.dirStreams.entries = es
    induction es generalizing c with
    | nil => rfl
    | cons e es ih => exact ih _
  have hended (c : Ctx) (f : Process → LockTable) : (c.updProc fun p =>
      { p with lockTable := f p, state := .Exited, exitStatus := status }).proc.ofdTable =
        c.proc.ofdTable := rfl
  rw [sysExit, hended, hstreams]

/-- Closing descriptors in turn keeps the counts exact and leaves none of them open. -/
theorem counted_closeFds {c : Ctx} (h : c.proc.Counted []) (fds : List ℕ) :
    (closeFds H c fds).proc.Counted [] ∧ ∀ i : ℕ,
      (closeFds H c fds).proc.fdTable.lookup i =
        if i ∈ fds then none else c.proc.fdTable.lookup i := by
  induction fds generalizing c with
  | nil => exact ⟨h, fun i => by simp [closeFds]⟩
  | cons fd fds ih =>
    obtain ⟨hcounted, hlookup⟩ := ih (CountedWith.sysClose (H := H) h fd)
    refine ⟨hcounted, fun i => (hlookup i).trans ?_⟩
    rw [(lookup_sysClose c fd i).2]
    grind

/-- An exit leaves no description behind, whatever the single closes report. -/
theorem ofdTable_sysExit_eq_none {c : Ctx} (hok : c.Ok) (hexact : c.proc.RefCountsExact)
    (hlow : ∀ i, 1024 ≤ i → c.proc.fdTable.entries.get i = none) (status : ℤ) (i : ℕ) :
    (sysExit H c status).proc.ofdTable.get i = none := by
  have hpos := (proceeds_closeFds (H := H) c (List.range 1024) hok).2.positive i
  obtain ⟨hcounted, hlookup⟩ :=
    counted_closeFds (H := H) (refCountsExact_iff.mp hexact) (List.range 1024)
  rw [ofdTable_sysExit]
  generalize (closeFds H c (List.range 1024)).proc = p at *
  have hnone : refsTo p.fdTable.entries i = 0 := by
    refine total_eq_zero_iff.mpr fun j e he => ?_
    have hj := hlookup j
    rw [FdTable.lookup_natCast, FdTable.lookup_natCast, he] at hj
    split_ifs at hj with hmem
    rw [hlow j (by simpa using hmem)] at hj
    cases hj
  -- no descriptor is left to count, and a live description counts at least one
  have hcount := hcounted i
  rcases ho : p.ofdTable.get i with _ | o
  · rfl
  have := hpos o ho
  rw [hnone, ho, weight_some, List.count_nil] at hcount
  omega

/-- **An exit gives back what descriptions hold**, unless a descriptor lies beyond those that it
closes. No description is left. The record of every pipe end, terminal side, accept queue and
connection goes down by what the process held, up to what sockets without a description still
hold; and the holds of every host file are balanced by its record and its closings. -/
theorem sysExit_frees {c : Ctx} (hok : c.Ok) (hexact : c.proc.RefCountsExact)
    (hlow : ∀ i, 1024 ≤ i → c.proc.fdTable.entries.get i = none) (status : ℤ) :
    let c' := sysExit H c status
    (∀ i, c'.proc.ofdTable.get i = none) ∧
    (∀ r, r.isHostFile = false → c.proc.holds r ≤ c.kernel.count r →
      c'.kernel.count r + c.proc.holds r =
        c.kernel.count r + c'.proc.sockets.total (·.resources.count r)) ∧
    ∀ h, 0 ≤ h → c'.kernel.count (.hostFile h) + c'.kernel.opened (.hostFile h) +
        c.proc.holds (.hostFile h) + c.kernel.closed (.hostFile h) =
      c.kernel.count (.hostFile h) + c.kernel.opened (.hostFile h) +
        c'.kernel.closed (.hostFile h) := by
  intro c'
  have hmoves : Moves H c c' := (proceeds_sysExit c status hok).1
  have hnone : ∀ i, c'.proc.ofdTable.get i = none :=
    ofdTable_sysExit_eq_none hok hexact hlow status
  have hofds : ∀ r, c'.proc.ofdTable.total (·.resources.count r) = 0 := fun r =>
    total_eq_zero_iff.mpr fun i o ho => absurd (ho.symm.trans (hnone i)) nofun
  clear_value c'
  refine ⟨hnone, fun r hr hle => ?_, fun h hpos => ?_⟩
  · have hflow := (hmoves.flow hr).exact hle
    rwa [show c'.proc.holds r = _ from congrArg (· + _) (hofds r), Nat.zero_add] at hflow
  · have hflow := (hmoves.openFlow (r := .hostFile h) hpos).balance
    rwa [holds_hostFile c'.proc, hofds, Nat.add_zero] at hflow

/-- A process that has opened a file twice over: nothing is left of it, and the file is closed
on the host. -/
theorem sysExit_frees_opened : ∃ s p, System.Run (.on .lowest) descriptorStep .boot s ∧
    s.procs.get 2 = some p ∧ p.holds (.hostFile 3) = 1 ∧
      (∀ i, (sysExit .lowest ⟨s.kernel, p⟩ 0).proc.ofdTable.get i = none) ∧
      0 < (sysExit .lowest ⟨s.kernel, p⟩ 0).kernel.closed (.hostFile 3) := by
  obtain ⟨s, hs, p, hp, hlen, hholds, hcount, hopened⟩ :
      ∃ s ∈ System.perform (.on .lowest) descriptorStep .boot
        [.create 2, .call 2 (.open (ascii "/f") 0 0), .call 2 (.dup 3)],
      ∃ p ∈ s.procs.get 2, p.fdTable.entries.slots.length ≤ 1024 ∧ p.holds (.hostFile 3) = 1 ∧
        s.kernel.count (.hostFile 3) = 0 ∧ s.kernel.opened (.hostFile 3) = 1 := by
    decide +kernel
  have hrun := System.run_of_perform hs
  have hok : Ctx.Ok ⟨s.kernel, p⟩ := ((System.sane_run hrun).1.ctx hp).ok
  obtain ⟨hnone, -, hfiles⟩ := sysExit_frees (H := .lowest) hok
    ((refCountsExact_of_run hrun).1 2 p hp) (fun _ hi => get_eq_none_of_le (hlen.trans hi)) 0
  have hfile := hfiles 3 (by decide)
  have hmore := ((proceeds_sysExit (H := .lowest) _ 0 hok).1.openFlow (r := .hostFile 3)
    (show (0 : ℤ) ≤ 3 by decide)).opened_le
  simp only at hfile hmore
  exact ⟨s, p, hrun, hp, hholds, hnone, by omega⟩

end Exit

end PosixKernel
