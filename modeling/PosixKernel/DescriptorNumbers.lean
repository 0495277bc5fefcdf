import PosixKernel.Open

/-!
# Descriptor Numbers

Which number a new descriptor gets (`fd.rs`), and what is left of a number when `dup2` fails
(`syscalls.rs`). The descriptor that `dup2` replaces is closed first, and only then is its number
compared with the limit: once `RLIMIT_NOFILE` is lowered, a descriptor above it is lost.

## Main results

* `FdTable.allocAtMin_least` — the number of a new descriptor;
* `failedDup2_iff` — when a failed `dup2` leaves everything as it was.
-/

namespace PosixKernel

variable {H : HostIO}

/-- **A new descriptor** has the least free number from `minFd` on, if it is below the limit; there
is none exactly if no number from there to the limit is free. -/
theorem FdTable.allocAtMin_least (t : FdTable) (ofdRef : ℕ) (fdFlags : UInt32) (minFd : ℤ) :
    match t.allocAtMin ofdRef fdFlags minFd with
    | .ok (fd, t') => IsLeast {i | max minFd 0 ≤ i ∧ t.lookup i = none} fd ∧ fd < t.maxFds ∧
        t'.maxFds = t.maxFds ∧
        ∀ i, t'.lookup i = if i = fd then some ⟨ofdRef, fdFlags⟩ else t.lookup i
    | .error e => e = .EMFILE ∧ ∀ i, max minFd 0 ≤ i → i < t.maxFds → t.lookup i ≠ none := by
  have hleast : ∀ i, max minFd 0 ≤ i → t.lookup i = none → (t.freeIdx minFd.toNat : ℤ) ≤ i := by
    intro i hmin hfree
    obtain ⟨k, rfl⟩ := Int.eq_ofNat_of_zero_le ((le_max_right _ _).trans hmin)
    exact_mod_cast t.freeIdx_le (by omega) (t.lookup_natCast k ▸ hfree)
  by_cases hfull : t.maxFds ≤ t.freeIdx minFd.toNat
  · simp only [allocAtMin, if_pos hfull, true_and]
    intro i hmin hlt hfree
    have := hleast i hmin hfree
    omega
  simp only [allocAtMin, if_neg hfull, true_and]
  refine ⟨⟨⟨?_, ?_⟩, fun i hi => hleast i hi.1 hi.2⟩,
    by exact_mod_cast not_le.mp hfull, fun i => ?_⟩
  · have := t.le_freeIdx minFd.toNat
    omega
  · rw [lookup_natCast]
    exact t.get_freeIdx _
  · exact FdTable.lookup_update (fun j => SlotTable.get_put _ _ j _) i

/-! ### A failed `dup2` -/

/-- The descriptors, the descriptions with their counts, and the shared state are as before. -/
def KeepsDescriptors (c c' : Ctx) : Prop :=
  (∀ fd, c'.proc.fdTable.lookup fd = c.proc.fdTable.lookup fd) ∧
    (∀ i, c'.proc.ofdTable.get i = c.proc.ofdTable.get i) ∧ c'.kernel = c.kernel

/-- **The condition**: a number that no descriptor may have is not in use. (A description without
references, which the table does not keep, would be freed on the way.) -/
def Dup2Safe (p : Process) (oldfd newfd : ℤ) : Prop :=
  ∀ e, p.fdTable.lookup oldfd = some e → oldfd ≠ newfd → newfd < 0 ∨ p.fdTable.maxFds ≤ newfd →
    p.fdTable.lookup newfd = none ∧ ∀ o, p.ofdTable.get e.ofdRef = some o → o.refCount ≠ 0

/-- A reference that is counted and dropped again. -/
theorem get_decRef_incRef_iff (t : OfdTable) (idx : ℕ) :
    (∀ i, ((t.incRef idx).decRef idx).2.get i = t.get i) ↔
      ∀ o, t.get idx = some o → o.refCount ≠ 0 := by
  have hinc := t.get_incRef idx
  rcases ho : t.get idx with _ | o
  · have hnone : (t.incRef idx).get idx = none := by rw [hinc, if_pos rfl, ho]; rfl
    refine iff_of_true (fun i => ?_) fun _ h => by cases h
    rw [OfdTable.decRef_of_free hnone, hinc]
    split
    next hi => rw [hi, ho]; rfl
    next => rfl
  have hsome : (t.incRef idx).get idx = some { o with refCount := o.refCount + 1 } := by
    rw [hinc, if_pos rfl, ho]
    rfl
  simp only [OfdTable.get_decRef hsome, hinc, Nat.add_sub_cancel, Option.some.injEq, forall_eq']
  constructor
  · intro h hzero
    have := h idx
    rw [if_pos rfl, if_pos hzero, ho] at this
    cases this
  intro hpos i
  split
  next hi => rw [hi, ho]
  next => rfl

/-- A `dup2` to another number: the close, and then the comparison with the limit. -/
theorem sysDup2_of_ne {c : Ctx} {oldfd newfd : ℤ} {entry : FdEntry}
    (hold : c.proc.fdTable.lookup oldfd = some entry) (hne : oldfd ≠ newfd) :
    if newfd < 0 ∨ c.proc.fdTable.maxFds ≤ newfd.toNat then
      sysDup2 H c oldfd newfd = (.error .EBADF, (sysClose H c newfd).2.updProc fun p => { p with
        ofdTable := ((p.ofdTable.incRef entry.ofdRef).decRef entry.ofdRef).2 })
    else (sysDup2 H c oldfd newfd).1 = .ok newfd := by
  obtain ⟨hmax, hopen⟩ := lookup_sysClose (H := H) c newfd oldfd
  rw [if_neg hne, hold] at hopen
  rw [sysDup2, FdTable.get, hold]
  simp only [if_neg hne, FdTable.get, hopen, FdTable.setAt, Ctx.updProc_proc, hmax]
  split <;> rfl

/-- **A failed `dup2` leaves everything as it was exactly if the number it was to replace is not a
descriptor above the limit.** -/
theorem failedDup2_iff (H : HostIO) (c : Ctx) (oldfd newfd : ℤ) :
    (∀ e, (sysDup2 H c oldfd newfd).1 = .error e → KeepsDescriptors c (sysDup2 H c oldfd newfd).2) ↔
      Dup2Safe c.proc oldfd newfd := by
  rcases hold : c.proc.fdTable.lookup oldfd with _ | entry
  · have hdup : sysDup2 H c oldfd newfd = (.error .EBADF, c) := by
      rw [sysDup2, FdTable.get, hold]
    rw [hdup]
    exact iff_of_true (fun _ _ => ⟨fun _ => rfl, fun _ => rfl, rfl⟩) (by simp [Dup2Safe, hold])
  by_cases hsame : oldfd = newfd
  · have hdup : sysDup2 H c oldfd newfd = (.ok newfd, c) := by
      rw [sysDup2, FdTable.get, hold]
      exact if_pos hsame
    rw [hdup]
    exact iff_of_true (fun _ h => by cases h) fun _ _ hne => absurd hsame hne
  have hdup := sysDup2_of_ne (H := H) hold hsame
  by_cases hout : newfd < 0 ∨ c.proc.fdTable.maxFds ≤ newfd.toNat
  swap
  · rw [if_neg hout] at hdup
    rw [hdup]
    exact iff_of_true (fun _ h => by cases h)
      fun _ _ _ hout' => absurd (hout'.imp_right (by omega)) hout
  rw [if_pos hout] at hdup
  have hout' : newfd < 0 ∨ (c.proc.fdTable.maxFds : ℤ) ≤ newfd := by omega
  simp only [hdup, Except.error.injEq, forall_eq']
  rcases hnew : c.proc.fdTable.lookup newfd with _ | other
  · have hclose : (sysClose H c newfd).2 = c := by
      rw [sysClose, FdTable.free, hnew]
    rw [hclose]
    have hiff := get_decRef_incRef_iff c.proc.ofdTable entry.ofdRef
    refine ⟨fun h e he _ _ => ?_, fun h => ⟨fun _ => rfl, hiff.mpr (h _ hold hsame hout').2, rfl⟩⟩
    obtain rfl := Option.some.inj (hold.symm.trans he)
    exact ⟨hnew, hiff.mp h.2.1⟩
  -- the close is not undone
  refine iff_of_false (fun h => ?_) fun h => Option.some_ne_none other ?_
  · have hgone := (lookup_sysClose (H := H) c newfd newfd).2
    rw [if_pos rfl] at hgone
    exact Option.some_ne_none other (hnew.symm.trans ((h.1 newfd).symm.trans hgone))
  · exact hnew.symm.trans (h _ hold hsame hout').1

/-- Standard output is put above a limit of 2, where standard error is: it is lost. -/
theorem failedDup2_lost :
    let p := { Process.new 1 with
      fdTable := ⟨⟨[some ⟨0, 0⟩, some ⟨1, 0⟩, some ⟨2, 0⟩]⟩, 2⟩ }
    let r := sysDup2 .barren ⟨Kernel.boot, p⟩ 1 2
    r.1 = .error .EBADF ∧ p.fdTable.lookup 2 = some ⟨2, 0⟩ ∧ r.2.proc.fdTable.lookup 2 = none := by
  decide

end PosixKernel
