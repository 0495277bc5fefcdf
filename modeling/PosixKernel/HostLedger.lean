import PosixKernel.Holders

/-!
# Openings and Closings on the Host

Host file handles and host network handles are obtained from the host and closed there. The
kernel records the holders beyond the first; a holder that is not recorded closes the handle.
Every descriptor call moves record, holders, openings and closings together.

## Main results

* `Move.openFlow`, `Moves.openFlow` — descriptor calls;
* `Kernel.log_foldl_take` — inheriting is not seen by the host.
-/

namespace PosixKernel

/-- Whether a resource is a handle of the host. -/
def Resource.OnHost : Resource → Prop
  | .hostFile h => 0 ≤ h
  | .net _ => True
  | _ => False

/-- The handle that a host call obtains. -/
def HostCall.opens : HostCall → Option Resource
  | .open _ _ _ (.ok h) => some (.hostFile h)
  | .netConnect h _ _ (.ok _) => some (.net h)
  | _ => none

/-- The handle that a host call closes. -/
def HostCall.closes : HostCall → Option Resource
  | .close h => some (.hostFile h)
  | .netClose h => some (.net h)
  | _ => none

/-- A silent call opens and closes nothing. -/
theorem HostCall.opens_of_isSilent {call : HostCall} (h : call.isSilent = true) :
    call.opens = none ∧ call.closes = none := by
  rcases call with ⟨_, _, _, _ | _⟩ | _ | _ | _ | _ | _ | _ | _ | _ | ⟨_, _, _, _ | _⟩ | _ | _ <;>
    first | exact ⟨rfl, rfl⟩ | exact absurd h (by simp [isSilent])

namespace Kernel

/-- How often a handle was obtained from the host. -/
def opened (k : Kernel) (r : Resource) : ℕ := k.log.countP fun call => call.opens = some r

/-- How often a handle was closed on the host. -/
def closed (k : Kernel) (r : Resource) : ℕ := k.log.countP fun call => call.closes = some r

variable {k k' : Kernel} {r : Resource}

/-- What was opened is read from the log. -/
theorem opened_congr (h : k'.log = k.log) (r : Resource) : k'.opened r = k.opened r := by
  rw [opened, opened, h]

/-- So is what was closed. -/
theorem closed_congr (h : k'.log = k.log) (r : Resource) : k'.closed r = k.closed r := by
  rw [closed, closed, h]

/-- What was opened after one more call. -/
theorem opened_logCall (k : Kernel) (call : HostCall) (r : Resource) :
    (k.logCall call).opened r = k.opened r + if call.opens = some r then 1 else 0 := by
  rw [opened, logCall, List.countP_cons]
  simp only [decide_eq_true_eq]
  rfl

/-- What was closed after one more call. -/
theorem closed_logCall (k : Kernel) (call : HostCall) (r : Resource) :
    (k.logCall call).closed r = k.closed r + if call.closes = some r then 1 else 0 := by
  rw [closed, logCall, List.countP_cons]
  simp only [decide_eq_true_eq]
  rfl

/-- A call about something else opens nothing. -/
theorem opened_logCall_of_ne {call : HostCall} (h : call.opens ≠ some r) :
    (k.logCall call).opened r = k.opened r := by
  rw [opened_logCall, if_neg h, Nat.add_zero]

/-- Nor does it close anything. -/
theorem closed_logCall_of_ne {call : HostCall} (h : call.closes ≠ some r) :
    (k.logCall call).closed r = k.closed r := by
  rw [closed_logCall, if_neg h, Nat.add_zero]

/-- Like states have opened and closed the same. -/
theorem Alike.opened (h : k.Alike k') (r : Resource) :
    k'.opened r = k.opened r ∧ k'.closed r = k.closed r := by
  obtain ⟨_, _, calls, hsilent, rfl⟩ := h
  have hopens : (calls.countP fun call => call.opens = some r) = 0 :=
    List.countP_eq_zero.mpr fun call hcall => by
      simp [(HostCall.opens_of_isSilent (hsilent call hcall)).1]
  have hcloses : (calls.countP fun call => call.closes = some r) = 0 :=
    List.countP_eq_zero.mpr fun call hcall => by
      simp [(HostCall.opens_of_isSilent (hsilent call hcall)).2]
  simp [Kernel.opened, Kernel.closed, hopens, hcloses]

/-- Inheriting is not seen by the host. -/
theorem log_foldl_take (rs : List Resource) (k : Kernel) : (rs.foldl take k).log = k.log := by
  induction rs generalizing k with
  | nil => rfl
  | cons r rs ih =>
    rw [List.foldl_cons, ih]
    cases r <;> rfl

/-- Dropping opens nothing. -/
theorem opened_drop (k : Kernel) (r r' : Resource) : (k.drop r').opened r = k.opened r := by
  cases r' with
  | pipe | pty | backlog => rfl
  | hostFile | net =>
    simp only [drop]
    split
    · exact opened_logCall_of_ne (by simp [HostCall.opens])
    · rfl

/-- Nor does dropping several. -/
theorem opened_foldl_drop (rs : List Resource) (k : Kernel) (r : Resource) :
    (rs.foldl drop k).opened r = k.opened r := by
  induction rs generalizing k with
  | nil => rfl
  | cons r' rs ih => exact (ih _).trans (k.opened_drop r r')

/-- Dropping closes nothing else. -/
theorem closed_drop_ne (k : Kernel) {r r' : Resource} (h : r' ≠ r) :
    (k.drop r').closed r = k.closed r := by
  cases r' with
  | pipe | pty | backlog => rfl
  | hostFile | net =>
    simp only [drop]
    split
    · exact closed_logCall_of_ne fun heq => h (Option.some.inj heq)
    · rfl

/-- The host closes a handle if nobody else is recorded. -/
theorem closed_drop_self (k : Kernel) (hr : r.OnHost) :
    (k.drop r).closed r = if k.count r = 0 then k.closed r + 1 else k.closed r := by
  have hlast : ∀ {κ : Type} [DecidableEq κ] (refs : SharedRefs κ) (h : κ) (k' : Kernel)
      (call : HostCall), k'.closed r = k.closed r → call.closes = some r →
      (if (refs.closeRef h).1 then k'.logCall call else k').closed r =
        if refs.owners 1 h - 1 = 0 then k.closed r + 1 else k.closed r := by
    intro κ _ refs h k' call hsame hcall
    have hone := SharedRefs.closeRef_fst refs h
    have hpos := SharedRefs.owners_one_pos refs h
    split
    next hclosed =>
      rw [closed_logCall, if_pos hcall, hsame, if_pos (by rw [hone.mp hclosed])]
    next hkept => rw [hsame, if_neg fun hzero => hkept (hone.mpr (by omega))]
  cases r with
  | pipe | pty | backlog => exact hr.elim
  | hostFile h => exact hlast k.hostHandleRefs h _ _ rfl rfl
  | net h => exact hlast k.hostNetRefs h _ _ rfl rfl

/-- **Dropping**: holders that let go, or close the handle. -/
theorem openFlow_foldl_drop (hr : r.OnHost) (rs : List Resource) (k : Kernel) (held : ℕ) :
    OpenFlow (k.count r) (held + rs.count r) (k.opened r) (k.closed r)
      ((rs.foldl drop k).count r) held ((rs.foldl drop k).opened r)
      ((rs.foldl drop k).closed r) := by
  induction rs generalizing k with
  | nil => exact .of_eq rfl rfl rfl rfl
  | cons r' rs ih =>
    refine OpenFlow.trans ?_ (ih (k.drop r'))
    by_cases h : r' = r
    · subst h
      rw [List.count_cons_self]
      exact .closing (Nat.add_assoc _ _ _).symm (opened_drop k r' r')
        ((k.count_drop r' r').trans (if_pos rfl)) (closed_drop_self k hr)
    rw [List.count_cons_of_ne h]
    exact .of_eq ((k.count_drop r r').trans (if_neg h)) rfl (opened_drop k r r')
      (closed_drop_ne k h)

end Kernel

/-! ### Moves -/

section Moves

variable {H : HostIO} {c c' : Ctx} {r : Resource}

/-- What an open gains is opened and held. -/
theorem Gains.openFlow {k k' : Kernel} {o : OpenFileDesc} (h : Gains H k o k') (hr : r.OnHost)
    (held : ℕ) :
    OpenFlow (k.count r) held (k.opened r) (k.closed r) (k'.count r) (held + o.resources.count r)
      (k'.opened r) (k'.closed r) := by
  cases h with
  | nothing hnone =>
    rw [hnone, List.count_nil, add_zero]
    exact .of_eq rfl rfl rfl rfl
  | ptmx _ hft | pts _ hft =>
    have hzero : o.resources.count r = 0 := by
      rw [OpenFileDesc.resources_eq, hft, List.count_eq_zero]
      cases r <;> simp_all [Resource.OnHost]
    rw [hzero, add_zero]
    refine .of_eq ?_ rfl rfl rfl
    cases r with
    | pty => exact hr.elim
    | _ => rfl
  | @hostFile h path oflags mode hopen hft hhandle =>
    have hfile : o.resources = if 0 ≤ h then [.hostFile h] else [] := by
      rw [OpenFileDesc.resources_eq, hhandle]
      rcases hft with hft | hft <;> rw [hft]
    have hclosed : (k.logCall (.open path oflags mode (.ok h))).closed r = k.closed r :=
      Kernel.closed_logCall_of_ne (by simp [HostCall.closes])
    rw [Kernel.count_logCall, hclosed, hfile]
    by_cases heq : r = .hostFile h
    · subst heq
      rw [if_pos (show 0 ≤ h from hr), List.count_singleton_self]
      exact .opening rfl rfl
        ((Kernel.opened_logCall _ _ _).trans (congrArg _ (if_pos rfl))) rfl
    have hzero : (if 0 ≤ h then [Resource.hostFile h] else []).count r = 0 := by
      split
      · exact List.count_eq_zero.mpr fun hmem => heq (List.mem_singleton.mp hmem)
      · rfl
    rw [hzero]
    exact .of_eq rfl rfl
      (Kernel.opened_logCall_of_ne fun hsome => heq (Option.some.inj hsome).symm) rfl

/-- **Record, holders, openings and closings move together.** -/
theorem Move.openFlow (h : Move H c c') (hr : r.OnHost) :
    OpenFlow (c.kernel.count r) (c.proc.holds r) (c.kernel.opened r) (c.kernel.closed r)
      (c'.kernel.count r) (c'.proc.holds r) (c'.kernel.opened r) (c'.kernel.closed r) := by
  have hpos : ∀ h, r = .hostFile h → 0 ≤ h := by
    rintro h rfl
    exact hr
  cases h with
  | alike hk hp =>
    exact .of_eq (hk.count r) (Process.holds_alike hp.ofds hp.socks r) (hk.opened r).1
      (hk.opened r).2
  | @removed k p i o rs hk ho hft hrs hpid hofds hsocks =>
    have hheld := Process.holds_removed ho hofds hsocks r
    have hflow := Kernel.openFlow_foldl_drop hr rs k (p.holds r)
    rwa [hrs r hpos, ← hheld, hk.count, (hk.opened r).1, (hk.opened r).2] at hflow
  | @closed p i o s rs ho hft hs hrs hpid hofds hsocks =>
    have hheld := Process.holds_closed ho hft hs hofds hsocks r
    have hflow := Kernel.openFlow_foldl_drop hr rs c.kernel (p.holds r)
    rwa [hrs.count_eq, ← hheld] at hflow
  | stale ho hft hs hpid hofds hsocks =>
    have hheld := Process.holds_removed ho hofds hsocks r
    rw [Process.resources_of_socket hft, List.count_nil, add_zero] at hheld
    exact .of_eq rfl hheld.symm rfl rfl
  | added hfree hgain hpid hofds hsocks =>
    rw [Process.holds_added hfree hofds hsocks r]
    exact hgain.openFlow hr _

/-- Moves let what is open flow with its holders. -/
theorem Moves.openFlow (h : Moves H c c') (hr : r.OnHost) :
    OpenFlow (c.kernel.count r) (c.proc.holds r) (c.kernel.opened r) (c.kernel.closed r)
      (c'.kernel.count r) (c'.proc.holds r) (c'.kernel.opened r) (c'.kernel.closed r) := by
  induction h with
  | refl => exact .of_eq rfl rfl rfl rfl
  | tail _ hmove ih => exact ih.trans (hmove.openFlow hr)

end Moves

/-! ### Hosts that give out handles -/

/-- The host gives out no handle that is open: the number is above the standard streams, and
has been closed as often as it was given out before. -/
def HostIO.Fresh (H : HostIO) : Prop :=
  ∀ log path oflags mode h, H.hostOpen log path oflags mode = .ok h → 3 ≤ h ∧
    (log.countP fun call => call.opens = some (.hostFile h)) ≤
      log.countP fun call => call.closes = some (.hostFile h)

/-- The number after the handles that were given out, from 100 on. -/
def nextFileHandle (log : List HostCall) : ℤ :=
  log.foldr (fun call next =>
    match call with
    | .open _ _ _ (.ok h) => max next (h + 1)
    | _ => next) 100

/-- A host on which every open succeeds with the next handle. -/
def HostIO.counting : HostIO :=
  { HostIO.barren with hostOpen := fun log _ _ _ => .ok (nextFileHandle log) }

/-- A host that gives out the lowest of a hundred numbers that is not open. -/
def HostIO.lowest : HostIO :=
  { HostIO.barren with hostOpen := fun log _ _ _ =>
      match ((List.range 100).map fun i : ℕ => (i : ℤ) + 3).find? (fun h =>
        (log.countP fun call => call.opens = some (.hostFile h)) ≤
          log.countP fun call => call.closes = some (.hostFile h)) with
      | some h => .ok h
      | none => .error .EMFILE }

/-- The lowest free handle is a fresh one. -/
theorem HostIO.fresh_lowest : HostIO.lowest.Fresh := by
  intro log path oflags mode h hopen
  simp only [lowest] at hopen
  split at hopen
  next h' hfind =>
    obtain rfl := Except.ok.inj hopen
    refine ⟨?_, by simpa using List.find?_some hfind⟩
    obtain ⟨i, -, rfl⟩ := List.mem_map.mp (List.mem_of_find?_eq_some hfind)
    exact Int.le_add_of_nonneg_left (Int.natCast_nonneg i)
  next => cases hopen

end PosixKernel
