import PosixKernel.ThreadedSystem

/-!
# Sending a Signal to a Process Group

`kill` and `sigqueue` (`kernel_kill_with_value` in `wasm_api.rs`, `sys_kill` and
`can_signal` in `syscalls.rs`, centralized mode). A number that names the caller or its own
process group takes a short cut: the signal is raised in the caller. Any other group is gone
through process by process, whether a process lives or has exited, and those the caller may
not signal are passed over. In each process the signal is put in the pending set, and what is
pending is delivered at once.

## Main results

* `ThreadedSystem.process_foldl` — the processes after the loop over a group;
* `kill_group_iff` — when the signal became pending in exactly the live members of the group
  that the caller may signal;
* `kill_group_wrong_processes` — when it did not.
-/

namespace PosixKernel

/-- Whether a process may signal another. -/
def canSignal (senderUid senderEuid targetUid targetEuid : UInt32) : Bool :=
  if senderEuid = 0 then true
  else
    senderUid = targetUid || senderUid = targetEuid || senderEuid = targetUid ||
      senderEuid = targetEuid

/-- Whether one process may signal another. -/
def Process.maySignal (caller p : Process) : Bool := canSignal caller.uid caller.euid p.uid p.euid

/-- Whether the number of a `kill` names the caller or its own process group. -/
def isLocal (caller : Process) (pid : Int32) : Bool :=
  pid = Int32.ofNat caller.pid || pid = 0 || pid = -caller.pgid.toInt32

/-- What a `kill` answers, and what it leaves. -/
structure KillOutcome where
  result : Except Errno Unit
  system : ThreadedSystem

/-- The state of the loop over a group. -/
structure GroupLoop where
  delivered : Bool
  anyPermDenied : Bool
  system : ThreadedSystem

/-- A process in whose pending set a signal was put, with what is pending delivered. -/
def ThreadedProcess.signalled (tid sig : ℕ) (siValue siCode : ℤ) (p : ThreadedProcess) :
    ThreadedProcess :=
  deliverPendingSignals tid (p.receive sig siValue siCode)

namespace ThreadedSystem

/-- The first process is there. -/
def ensureInit (s : ThreadedSystem) : ThreadedSystem :=
  ⟨s.base.ensureInit, fun q => if s.base.procs.get q = none then .single else s.threads q⟩

/-- The numbers of the processes in a group. -/
def pidsInGroup (s : ThreadedSystem) (pgid : UInt32) : List ℕ :=
  (s.base.procs.entries.filter fun e => e.2.pgid = pgid).map Prod.fst

/-- Change one process, if it is there. -/
def onProcess (s : ThreadedSystem) (q : ℕ) (f : ThreadedProcess → ThreadedProcess) :
    ThreadedSystem :=
  match s.process q with
  | none => s
  | some p => s.put q (f p)

/-- Deliver pending signals in a process; the thread number is the caller's. -/
def deliverIn (s : ThreadedSystem) (tid q : ℕ) : ThreadedSystem :=
  s.onProcess q (ThreadedProcess.deliverPendingSignals tid)

/-- Raise a signal in a process and deliver what is pending there. -/
def raiseIn (s : ThreadedSystem) (tid q sig : ℕ) (siValue siCode : ℤ) : ThreadedSystem :=
  s.onProcess q (ThreadedProcess.signalled tid sig siValue siCode)

/-- One process of a group. -/
def signalMember (caller : Process) (tid sig : ℕ) (siValue : ℤ) (l : GroupLoop) (target : ℕ) :
    GroupLoop :=
  match l.system.process target with
  | none => l
  | some p =>
    if !caller.maySignal p.toProcess then { l with anyPermDenied := true }
    else if 0 < sig then
      { l with delivered := true, system := l.system.raiseIn tid target sig siValue (-1) }
    else { l with delivered := true }

/-- `sys_kill`; a number that is not the caller's business is the host's. -/
def sysKill (hostKill : Int32 → ℕ → Except Errno Unit) (s : ThreadedSystem) (callerPid : ℕ)
    (caller : ThreadedProcess) (pid : Int32) (sig : ℕ) : KillOutcome :=
  if NSIG ≤ sig ∧ sig ≠ 0 then ⟨.error .EINVAL, s⟩
  else if sig = 0 then ⟨if isLocal caller.toProcess pid then .ok () else hostKill pid sig, s⟩
  else if isLocal caller.toProcess pid then
    ⟨.ok (), s.put callerPid (caller.receive sig 0 0)⟩
  else ⟨hostKill pid sig, s⟩

/-- `kill` to one other process. -/
def killProcess (s : ThreadedSystem) (callerPid tid : ℕ) (caller : Process) (pid : Int32)
    (sig : ℕ) (siValue : ℤ) : KillOutcome :=
  if NSIG ≤ sig ∧ sig ≠ 0 then ⟨.error .EINVAL, s.deliverIn tid callerPid⟩
  else
    let s := s.ensureInit
    let target := pid.toUInt32.toNat
    match s.process target with
    | none => ⟨.error .ESRCH, s.deliverIn tid callerPid⟩
    | some p =>
      if !caller.maySignal p.toProcess then ⟨.error .EPERM, s.deliverIn tid callerPid⟩
      else if 0 < sig then
        ⟨.ok (), (s.raiseIn tid target sig siValue (-1)).deliverIn tid callerPid⟩
      else ⟨.ok (), s.deliverIn tid callerPid⟩

/-- `kill` to another process group. -/
def killGroup (s : ThreadedSystem) (callerPid tid : ℕ) (caller : Process) (pid : Int32)
    (sig : ℕ) (siValue : ℤ) : KillOutcome :=
  if NSIG ≤ sig ∧ sig ≠ 0 then ⟨.error .EINVAL, s.deliverIn tid callerPid⟩
  else
    let pids := s.pidsInGroup (-pid).toUInt32
    if pids.isEmpty then ⟨.error .ESRCH, s.deliverIn tid callerPid⟩
    else
      let l := pids.foldl (signalMember caller tid sig siValue) ⟨false, false, s⟩
      ⟨if l.delivered then .ok () else if l.anyPermDenied then .error .EPERM else .error .ESRCH,
        l.system.deliverIn tid caller.pid⟩

/-- `kill` and `sigqueue` of a thread of a process. -/
def kernelKillWithValue (hostKill : Int32 → ℕ → Except Errno Unit) (s : ThreadedSystem)
    (callerPid tid : ℕ) (caller : ThreadedProcess) (pid : Int32) (sig : ℕ) (siValue : ℤ) :
    KillOutcome :=
  if !isLocal caller.toProcess pid ∧ 0 < pid then
    s.killProcess callerPid tid caller.toProcess pid sig siValue
  else if !isLocal caller.toProcess pid ∧ pid < -1 then
    s.killGroup callerPid tid caller.toProcess pid sig siValue
  else if siValue ≠ 0 ∧ 0 < sig then
    ⟨.ok (), s.raiseIn tid callerPid sig siValue (-1)⟩
  else
    let r := s.sysKill hostKill callerPid caller pid sig
    { r with system := r.system.deliverIn tid callerPid }

/-! ### The loop over a group -/

/-- One process is changed, and no other. -/
theorem process_onProcess (s : ThreadedSystem) (t : ℕ) (f : ThreadedProcess → ThreadedProcess)
    (q : ℕ) : (s.onProcess t f).process q =
      (s.process q).map fun p => if q = t then f p else p := by
  rw [onProcess]
  rcases ht : s.process t with _ | p
  · by_cases hq : q = t
    · simp [hq, ht]
    · simp [hq]
  simp only [process_put]
  by_cases hq : q = t
  · simp [hq, ht]
  · simp [hq]

/-- **The processes after the loop**: each one of the list that the caller may signal got the
signal, and the others are as they were. -/
theorem process_foldl {caller : Process} {tid sig : ℕ} (hsig : 0 < sig) (siValue : ℤ)
    {pids : List ℕ} (hnodup : pids.Nodup) (l : GroupLoop) (q : ℕ) :
    (pids.foldl (signalMember caller tid sig siValue) l).system.process q =
      (l.system.process q).map fun p =>
        if q ∈ pids ∧ caller.maySignal p.toProcess = true then p.signalled tid sig siValue (-1)
        else p := by
  induction pids generalizing l with
  | nil => simp
  | cons t pids ih =>
    obtain ⟨hnot, hnodup⟩ := List.nodup_cons.mp hnodup
    rw [List.foldl_cons, ih hnodup, signalMember]
    rcases ht : l.system.process t with _ | p
    · refine Option.map_congr fun p hp => ?_
      have hne : q ≠ t := by
        rintro rfl
        cases ht.symm.trans hp
      simp [hne]
    cases hmay : caller.maySignal p.toProcess with
    | false =>
      simp only [hmay, Bool.not_false, if_true]
      refine Option.map_congr fun p' hp' => ?_
      by_cases hq : q = t
      · subst hq
        cases ht.symm.trans hp'
        simp [hmay]
      · simp [hq]
    | true =>
      -- `t` gets the signal now and does not come again
      simp only [hmay, Bool.not_true, Bool.false_eq_true, if_false, if_pos hsig, raiseIn,
        process_onProcess]
      by_cases hq : q = t
      · subst hq
        simp [ht, hmay, hnot]
      · simp [hq]

theorem mem_pidsInGroup {s : ThreadedSystem} {pgid : UInt32} {q : ℕ} :
    q ∈ s.pidsInGroup pgid ↔ ∃ p, s.process q = some p ∧ p.pgid = pgid := by
  simp only [pidsInGroup, List.mem_map, List.mem_filter, decide_eq_true_eq]
  constructor
  · rintro ⟨⟨i, p⟩, ⟨hmem, hpgid⟩, rfl⟩
    exact ⟨⟨p, s.threads i⟩, by rw [process, SlotTable.mem_entries.mp hmem]; rfl, hpgid⟩
  rintro ⟨p, hp, hpgid⟩
  obtain ⟨p', hp', rfl⟩ := Option.map_eq_some_iff.mp hp
  exact ⟨(q, p'), ⟨SlotTable.mem_entries.mpr hp', hpgid⟩, rfl⟩

theorem nodup_pidsInGroup (s : ThreadedSystem) (pgid : UInt32) : (s.pidsInGroup pgid).Nodup :=
  List.pairwise_map.mpr (s.base.procs.pairwise_entries.filter _)

/-- The caller may signal a process of a group. -/
def Reaches (caller : Process) (pgid : UInt32) (p : ThreadedProcess) : Prop :=
  p.pgid = pgid ∧ caller.maySignal p.toProcess = true

instance (caller : Process) (pgid : UInt32) (p : ThreadedProcess) :
    Decidable (Reaches caller pgid p) := inferInstanceAs (Decidable (_ ∧ _))

/-- What a `kill` does to a process that it does not raise the signal in: what is pending in
the caller is delivered. -/
def passedOver (callerPid tid q : ℕ) (p : ThreadedProcess) : ThreadedProcess :=
  if q = callerPid then ThreadedProcess.deliverPendingSignals tid p else p

/-- The processes after a `kill` to a group that the caller is not in. -/
theorem process_killGroup {s : ThreadedSystem} {caller : ThreadedProcess} {callerPid sig : ℕ}
    {pid : Int32} (hsig : validSignal sig = true) (hcaller : s.process callerPid = some caller)
    (hself : caller.pid = callerPid) (hout : caller.pgid ≠ (-pid).toUInt32) (tid : ℕ)
    (siValue : ℤ) (q : ℕ) :
    (s.killGroup callerPid tid caller.toProcess pid sig siValue).system.process q =
      (s.process q).map fun p => if Reaches caller.toProcess (-pid).toUInt32 p then
        p.signalled tid sig siValue (-1) else passedOver callerPid tid q p := by
  have hvalid := validSignal_iff.mp hsig
  have hmem : ∀ p, s.process q = some p → (q ∈ s.pidsInGroup (-pid).toUInt32 ↔
      p.pgid = (-pid).toUInt32) := by
    intro p hp
    rw [mem_pidsInGroup]
    exact ⟨fun ⟨p', hp', h⟩ => by rwa [Option.some.inj (hp.symm.trans hp')], fun h => ⟨p, hp, h⟩⟩
  have hown : ∀ p, s.process q = some p → q = callerPid → ¬ Reaches caller.toProcess
      (-pid).toUInt32 p := by
    rintro p hp rfl ⟨hpgid, -⟩
    cases hcaller.symm.trans hp
    exact hout hpgid
  simp only [killGroup]
  rw [if_neg (by simp only [NSIG]; omega)]
  split
  next hempty =>
    rw [List.isEmpty_iff] at hempty
    rw [deliverIn, process_onProcess]
    refine Option.map_congr fun p hp => ?_
    have hnot : ¬ Reaches caller.toProcess (-pid).toUInt32 p := fun h => by
      have := (hmem p hp).mpr h.1
      rw [hempty] at this
      cases this
    exact (if_neg hnot).symm
  next =>
    rw [hself, deliverIn, process_onProcess, process_foldl (by omega) siValue
      (nodup_pidsInGroup _ _), Option.map_map]
    refine Option.map_congr fun p hp => ?_
    simp only [Function.comp_apply, hmem p hp, Reaches, passedOver]
    split_ifs with hq hreach
    · exact absurd hreach (hown p hp hq)
    all_goals rfl

end ThreadedSystem

open ThreadedSystem

/-- The group that a `kill` with 0 or a negative number means. -/
def targetGroup (caller : Process) (pid : Int32) : UInt32 :=
  if pid = 0 then caller.pgid else (-pid).toUInt32

/-- The code with which a `kill` or `sigqueue` marks the signal. -/
def killCode (caller : Process) (pid : Int32) (siValue : ℤ) : ℤ :=
  if isLocal caller pid ∧ siValue = 0 then 0 else -1

/-- The processes in which a `kill` raises the signal. -/
def RaisesIn (caller : Process) (callerPid : ℕ) (pid : Int32) (q : ℕ) (p : ThreadedProcess) :
    Prop :=
  if isLocal caller pid then q = callerPid else Reaches caller (targetGroup caller pid) p

instance (caller : Process) (callerPid : ℕ) (pid : Int32) (q : ℕ) (p : ThreadedProcess) :
    Decidable (RaisesIn caller callerPid pid q p) := by
  unfold RaisesIn
  infer_instance

/-- The processes after a `kill` that means the caller. -/
theorem process_kill_local (hostKill : Int32 → ℕ → Except Errno Unit) {s : ThreadedSystem}
    {callerPid : ℕ} {caller : ThreadedProcess} {pid : Int32} {sig : ℕ}
    (hcaller : s.process callerPid = some caller) (hsig : validSignal sig = true)
    (hlocal : isLocal caller.toProcess pid = true) (tid : ℕ) (siValue : ℤ) (q : ℕ) :
    (s.kernelKillWithValue hostKill callerPid tid caller pid sig siValue).system.process q =
      (s.process q).map fun p => if q = callerPid then
        p.signalled tid sig siValue (killCode caller.toProcess pid siValue) else p := by
  have hvalid := validSignal_iff.mp hsig
  simp only [kernelKillWithValue, hlocal, Bool.not_true, Bool.false_eq_true, false_and, if_false,
    killCode, true_and]
  by_cases hvalue : siValue = 0
  · subst hvalue
    rw [if_neg fun h => h.1 rfl, sysKill, if_neg (by simp only [NSIG]; omega),
      if_neg (by omega), if_pos hlocal, if_pos rfl]
    simp only [deliverIn, process_onProcess, process_put]
    by_cases hq : q = callerPid
    · subst hq
      simp [hcaller, ThreadedProcess.signalled]
    · simp [hq]
  · rw [if_pos ⟨hvalue, hvalid.1⟩, if_neg hvalue]
    exact process_onProcess s callerPid _ q

/-- **The processes after a `kill`** with 0, the caller's own group or another group. -/
theorem process_kernelKillWithValue (hostKill : Int32 → ℕ → Except Errno Unit)
    {s : ThreadedSystem} {callerPid : ℕ} {caller : ThreadedProcess} {pid : Int32} {sig : ℕ}
    (hcaller : s.process callerPid = some caller) (hself : caller.pid = callerPid)
    (hsig : validSignal sig = true) (hpid : pid = 0 ∨ pid = -caller.pgid.toInt32 ∨ pid < -1)
    (tid : ℕ) (siValue : ℤ) (q : ℕ) :
    (s.kernelKillWithValue hostKill callerPid tid caller pid sig siValue).system.process q =
      (s.process q).map fun p => if RaisesIn caller.toProcess callerPid pid q p then
        p.signalled tid sig siValue (killCode caller.toProcess pid siValue)
        else passedOver callerPid tid q p := by
  cases hlocal : isLocal caller.toProcess pid with
  | true =>
    rw [process_kill_local hostKill hcaller hsig hlocal]
    refine Option.map_congr fun p hp => ?_
    simp only [RaisesIn, hlocal, if_true, passedOver]
    split_ifs <;> rfl
  | false =>
    -- not local, so the number is below -1 and means another group
    have hnot := hlocal
    simp only [isLocal, Bool.or_eq_false_iff, decide_eq_false_iff_not] at hnot
    have hbelow : pid < -1 := (hpid.resolve_left hnot.1.2).resolve_left hnot.2
    have hpos : ¬ 0 < pid := fun h => absurd (Int32.lt_trans h hbelow) (by decide)
    have hout : caller.pgid ≠ (-pid).toUInt32 := by
      intro heq
      refine hnot.2 ?_
      rw [heq, Int32.toInt32_toUInt32, Int32.neg_neg]
    rw [kernelKillWithValue, hlocal, if_neg fun h => hpos h.2, if_pos ⟨rfl, hbelow⟩,
      process_killGroup hsig hcaller hself hout]
    refine Option.map_congr fun p hp => ?_
    simp [RaisesIn, hlocal, killCode, targetGroup, hnot.1.2]

/-- What a signal to a group is for: it becomes pending in the live processes of the group that
the caller may signal, and in no other. -/
def groupSignalled (s : ThreadedSystem) (callerPid tid : ℕ) (caller : Process) (pid : Int32)
    (sig : ℕ) (siValue : ℤ) (q : ℕ) : Option ThreadedProcess :=
  (s.process q).map fun p =>
    if Reaches caller (targetGroup caller pid) p ∧ p.state ≠ .Exited then
      p.signalled tid sig siValue (killCode caller pid siValue)
    else passedOver callerPid tid q p

/-- **Signals to a process group.** A process makes a `kill` or `sigqueue` with 0, with its own
group or with another group, in any system. The signal becomes pending in exactly the live
members of the group that the caller may signal, exactly if every process is rightly raised
in or passed over, or one in which raising the signal changes nothing: for the caller's own
group the caller has to be the only such member, and for another group no member that the
caller may signal has exited. -/
theorem kill_group_iff (hostKill : Int32 → ℕ → Except Errno Unit) (s : ThreadedSystem)
    (callerPid tid : ℕ) (caller : ThreadedProcess) (pid : Int32) (sig : ℕ) (siValue : ℤ)
    (hcaller : s.process callerPid = some caller) (hself : caller.pid = callerPid)
    (hsig : validSignal sig = true) (hpid : pid = 0 ∨ pid = -caller.pgid.toInt32 ∨ pid < -1) :
    (∀ q, (s.kernelKillWithValue hostKill callerPid tid caller pid sig siValue).system.process q =
      groupSignalled s callerPid tid caller.toProcess pid sig siValue q) ↔
    ∀ q p, s.process q = some p →
      p.signalled tid sig siValue (killCode caller.toProcess pid siValue) =
        passedOver callerPid tid q p ∨
      if isLocal caller.toProcess pid then
        (Reaches caller.toProcess (targetGroup caller.toProcess pid) p ∧ p.state ≠ .Exited ↔
          q = callerPid)
      else Reaches caller.toProcess (targetGroup caller.toProcess pid) p → p.state ≠ .Exited := by
  refine forall_congr' fun q => ?_
  rw [process_kernelKillWithValue hostKill hcaller hself hsig hpid, groupSignalled]
  rcases s.process q with _ | p
  · simp
  -- two choices between the same processes agree if the conditions do, or the processes
  have hchoice : ∀ (A B : Prop) [Decidable A] [Decidable B] (x y : ThreadedProcess),
      ((if A then x else y) = if B then x else y) ↔ x = y ∨ (B ↔ A) := by
    intro A B _ _ x y
    by_cases hA : A <;> by_cases hB : B <;> simp [hA, hB, eq_comm]
  simp only [Option.map_some, Option.some.injEq, forall_eq', hchoice]
  refine or_congr_right ?_
  rw [RaisesIn]
  split_ifs
  · exact Iff.rfl
  · rw [and_iff_left_iff_imp]

/-- Two processes, each in a group of its own. -/
def twoGroups : ThreadedSystem :=
  [.kernel (.create 10), .kernel (.create 20)].foldl (ThreadedSystem.next (.on .barren)) .boot

/-- The first signals the group of the second, which lives: the signal is raised there, and
ends it. -/
theorem kill_group_live : ∃ caller, twoGroups.process 10 = some caller ∧
    let after := (twoGroups.kernelKillWithValue (fun _ _ => .ok ()) 10 0 caller (-20) 15 0).system
    (after.process 20).map (fun p => p.state) = some .Exited ∧ ∀ q, after.process q =
      groupSignalled twoGroups 10 0 caller.toProcess (-20) 15 0 q := by
  obtain ⟨caller, hcaller, hself, hlocal, hexited⟩ : ∃ caller ∈ twoGroups.process 10,
      caller.pid = 10 ∧ isLocal caller.toProcess (-20) = false ∧
        ((twoGroups.kernelKillWithValue (fun _ _ => .ok ()) 10 0 caller (-20) 15 0).system.process
          20).map (fun p => p.state) = some .Exited := by decide +kernel
  have hlive : ∀ e ∈ twoGroups.base.procs.entries, e.2.state ≠ .Exited := by decide +kernel
  refine ⟨caller, hcaller, hexited, (kill_group_iff (fun _ _ => .ok ()) twoGroups 10 0 caller (-20)
    15 0 hcaller hself (by decide) (.inr (.inr (by decide)))).mpr fun q p hp => .inr ?_⟩
  rw [hlocal, if_neg Bool.false_ne_true]
  obtain ⟨p', hp', rfl⟩ := Option.map_eq_some_iff.mp hp
  exact fun _ => hlive (q, p') (SlotTable.mem_entries.mpr hp')

/-- A process signals its own group with 0: its child, which lives in the group and may be
signalled, does not get the signal and runs on. And it signals the group of a process that
was killed and has not been waited for: the signal is raised in it, so that its status is
that of the second signal, and the answer is success. -/
theorem kill_group_wrong_processes :
    let family := [.kernel (.create 10), .kernel (.spawn 10 [] [] [] .empty)].foldl
      (ThreadedSystem.next (.on .barren)) .boot
    let zombie := twoGroups.next (.on .barren) (.kernel (.die 20 SIGKILL))
    let kill := fun (s : ThreadedSystem) caller pid =>
      s.kernelKillWithValue (fun _ _ => .ok ()) 10 0 caller pid 15 0
    (∃ caller ∈ family.process 10, (kill family caller 0).result.isOk = true ∧
      ((kill family caller 0).system.process 2).map (fun p => p.state) = some .Running ∧
      (groupSignalled family 10 0 caller.toProcess 0 15 0 2).map (fun p => p.state) =
        some .Exited) ∧
    ∃ caller ∈ zombie.process 10, (kill zombie caller (-20)).result.isOk = true ∧
      ((kill zombie caller (-20)).system.process 20).map (fun p => p.exitStatus) = some 143 ∧
      (groupSignalled zombie 10 0 caller.toProcess (-20) 15 0 20).map (fun p => p.exitStatus) =
        some 137 := by
  decide +kernel

end PosixKernel
