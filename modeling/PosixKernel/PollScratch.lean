import PosixKernel.Scratch
import PosixKernel.Lib.Runs

/-!
# Polls and the Scratch Area

A `poll` that has to wait leaves its `pollfd` array in the scratch area. The timer that completes
it copies the array back from there, whatever has happened to the area meanwhile: the caller gets
its own array, with nothing ready, exactly if no byte of it was changed since the kernel looked
at it.

## Main results

* `KernelPort.pollCheck_eq` — a pass that finds nothing ready clears the array;
* `HostState.load_callKernel` — the array in the scratch area when a poll has to wait;
* `HostState.load_fire` — what the timer copies back;
* `poll_writeback_iff` — when this is the caller's own array;
* `poll_writeback_leaks` — bytes of another process in the array.
-/

namespace PosixKernel

open ByteMemory ByteCodec

/-- How many bytes of the `pollfd` array are copied. -/
def pollBytes (origArgs : List ℤ) : ℕ :=
  if origArgs.getD 0 0 = 0 then 0 else (cappedSize 0 (origArgs.getD 1 0 * 8)).getD 0

/-- A byte of a `pollfd` array in which nothing is ready. -/
def clearedByte (m : ℕ → UInt8) (fds i : ℕ) : UInt8 := if i % 8 < 6 then m (fds + i) else 0

/-- A `pollfd` array in which nothing is ready: descriptors and events are as they were. -/
def clearedArray (m : ℕ → UInt8) (fds n : ℕ) : Bytes := (List.range n).map (clearedByte m fds)

/-! ### A pass over the array -/

namespace KernelPort

variable {κ : Type} {K : KernelPort κ} {k : κ} {pid fds : ℕ} {mem : ℕ → UInt8}

theorem pollCheck_succ (nfds : ℕ) :
    K.pollCheck k pid fds (nfds + 1) mem =
      let st := K.pollCheck k pid fds nfds mem
      let revents := K.entryRevents k pid st.2 (fds + 8 * nfds)
      (if revents = 0 then st.1 else st.1 + 1,
        store st.2 (fds + 8 * nfds + 6) (leBytes 2 revents.toUInt16.toNat)) := by
  rw [pollCheck, List.range_succ, List.foldl_append]
  rfl

/-- **A pass that finds nothing ready** clears what the entries are ready for. -/
theorem pollCheck_eq {nfds : ℕ} (h : (K.pollCheck k pid fds nfds mem).1 = 0) (a : ℕ) :
    (K.pollCheck k pid fds nfds mem).2 a =
      if fds ≤ a ∧ a < fds + 8 * nfds ∧ 6 ≤ (a - fds) % 8 then 0 else mem a := by
  induction nfds with
  | zero =>
    rw [if_neg (by omega)]
    rfl
  | succ nfds ih =>
    rw [pollCheck_succ] at h ⊢
    simp only at h ⊢
    have hrevents : K.entryRevents k pid (K.pollCheck k pid fds nfds mem).2
        (fds + 8 * nfds) = 0 := by
      by_contra hne
      rw [if_neg hne] at h
      exact Nat.succ_ne_zero _ h
    rw [if_pos hrevents] at h
    rw [hrevents]
    have hzero : leBytes 2 (0 : Int16).toUInt16.toNat = [0, 0] := by decide
    rw [hzero]
    by_cases ha : fds + 8 * nfds + 6 ≤ a ∧ a < fds + 8 * nfds + 6 + 2
    · obtain ⟨d, rfl⟩ := Nat.exists_eq_add_of_le ha.1
      rw [if_pos (by omega),
        store_of_mem _ _ (by simp only [List.length_cons, List.length_nil]; omega)]
      rcases d with _ | _ | d
      · rfl
      · rfl
      · omega
    rw [store_of_not_mem (by simp only [List.length_cons, List.length_nil]; omega), ih h]
    by_cases hin : fds ≤ a ∧ a < fds + 8 * nfds ∧ 6 ≤ (a - fds) % 8
    · rw [if_pos hin, if_pos (by omega)]
    · rw [if_neg hin, if_neg (by omega)]

theorem load_pollCheck {nfds n : ℕ} (h : (K.pollCheck k pid fds nfds mem).1 = 0)
    (hn : n ≤ 8 * nfds) :
    load (K.pollCheck k pid fds nfds mem).2 fds n = clearedArray mem fds n := by
  refine List.map_congr_left fun i hi => ?_
  have hi' : i < n := List.mem_range.mp hi
  rw [pollCheck_eq h, clearedByte, Nat.add_sub_cancel_left]
  by_cases hlow : i % 8 < 6
  · rw [if_pos hlow, if_neg (by omega)]
  · rw [if_neg hlow, if_pos (by omega)]

/-- A poll that has to wait has found nothing ready. -/
theorem poll_waits {nfds : ℕ} {timeout : Int32}
    (h : (K.poll k pid fds nfds timeout mem).1 = .error .EAGAIN) :
    (K.pollCheck k pid fds nfds mem).1 = 0 ∧
      (K.poll k pid fds nfds timeout mem).2 = (K.pollCheck k pid fds nfds mem).2 := by
  refine ⟨?_, rfl⟩
  simp only [poll] at h
  split at h
  · cases h
  next hnone => exact Nat.eq_zero_of_not_pos fun hpos => hnone (.inl hpos)

/-- So has a `ppoll`. -/
theorem ppoll_waits {nfds : ℕ} {timeout : Int32} {mask : Option UInt64}
    (h : (K.ppoll k pid fds nfds timeout mask mem).1 = .error .EAGAIN) :
    ∃ k', (K.pollCheck k' pid fds nfds mem).1 = 0 ∧
      (K.ppoll k pid fds nfds timeout mask mem).2.2 = (K.pollCheck k' pid fds nfds mem).2 := by
  rw [ppoll] at h ⊢
  rcases htaken : K.takeMask k pid mask with ⟨_ | _, k'⟩
  · rw [htaken] at h
    rcases hpolled : K.poll k' pid fds nfds timeout mem with ⟨r, mem'⟩
    simp only [hpolled] at h ⊢
    have hr : r = .error .EAGAIN := by
      rcases r with e | v
      · cases e <;> first | rfl | exact absurd h (by simp)
      · cases h
    subst hr
    obtain ⟨hnone, hmem⟩ := poll_waits (congrArg Prod.fst hpolled)
    rw [hpolled] at hmem
    exact ⟨k', hnone, hmem⟩
  · rw [htaken] at h
    cases h

/-- **A call that has to wait**, `poll` or `ppoll`, leaves a cleared array. -/
theorem load_call {syscallNr : ℕ} (hnr : syscallNr = SYS_POLL ∨ syscallNr = SYS_PPOLL)
    {args : List ℤ} (h : (K.call k pid syscallNr args mem).1 = .error .EAGAIN) {n : ℕ}
    (hn : n ≤ 8 * (UInt32.ofInt (args.getD 1 0)).toNat) :
    load (K.call k pid syscallNr args mem).2.2 (args.getD 0 0).toNat n =
      clearedArray mem (args.getD 0 0).toNat n := by
  rcases hnr with rfl | rfl
  · rw [call, if_pos rfl] at h ⊢
    obtain ⟨hnone, hmem⟩ := poll_waits h
    exact load_pollCheck hnone hn
  rw [call, if_neg (by decide), if_pos rfl] at h ⊢
  obtain ⟨k', hnone, hmem⟩ := ppoll_waits h
  simp only [hmem]
  exact load_pollCheck hnone hn

end KernelPort

/-! ### The array goes into the area -/

section Area

variable {scratchOffset : ℕ} {m : ProcessMemory} {syscallNr : ℕ} {origArgs : List ℤ}
  {mem : ℕ → UInt8}

theorem inputScale_poll (hnr : syscallNr = SYS_POLL ∨ syscallNr = SYS_PPOLL) (size : ℤ) :
    inputScale syscallNr size = size * 8 := if_pos hnr

theorem outputScale_poll (hnr : syscallNr = SYS_POLL ∨ syscallNr = SYS_PPOLL) (size : ℤ) :
    outputScale syscallNr size = size * 8 := by
  rw [outputScale, if_neg (by rcases hnr with rfl | rfl <;> decide), inputScale_poll hnr]

theorem cappedSize_zero (size : ℤ) :
    cappedSize 0 size = if size ≤ 0 then none else some (min size CH_DATA_SIZE).toNat := by
  have hroom : ¬ CH_DATA_SIZE ≤ 0 := by decide
  rw [cappedSize, if_neg hroom]
  split
  · rfl
  split
  next hbig =>
    rw [min_eq_right (by omega)]
    rfl
  next hsmall => rw [min_eq_left (by omega)]

theorem pollBytes_pos (h : 0 < pollBytes origArgs) : origArgs.getD 0 0 ≠ 0 ∧ 0 < origArgs.getD 1 0 ∧
      cappedSize 0 (origArgs.getD 1 0 * 8) = some (pollBytes origArgs) ∧
      (pollBytes origArgs : ℤ) = min (origArgs.getD 1 0 * 8) CH_DATA_SIZE := by
  rw [pollBytes] at h ⊢
  by_cases hfds : origArgs.getD 0 0 = 0
  · rw [if_pos hfds] at h
    exact absurd h (lt_irrefl 0)
  rw [if_neg hfds, cappedSize_zero] at h ⊢
  by_cases hcount : origArgs.getD 1 0 * 8 ≤ 0
  · rw [if_pos hcount] at h
    exact absurd h (lt_irrefl 0)
  · rw [if_neg hcount, Option.getD_some] at h ⊢
    exact ⟨hfds, by omega, rfl, by omega⟩

theorem toNat_ofInt_of_lt {x : ℤ} (hlo : 0 ≤ x) (hhi : x < 2 ^ 32) :
    (UInt32.ofInt x).toNat = x.toNat := by
  rw [UInt32.ofInt, UInt32.toNat_ofNat']
  omega

/-- The array is copied to the start of the data area, and the kernel is told where it is and
that it has at least as many entries as were copied. -/
theorem marshal_poll (scratchOffset : ℕ) (mem : ℕ → UInt8)
    (hnr : syscallNr = SYS_POLL ∨ syscallNr = SYS_PPOLL)
    (hpos : 0 < pollBytes origArgs)
    (hin : (origArgs.getD 0 0).toNat + pollBytes origArgs ≤ m.size) :
    let st := marshal scratchOffset m syscallNr origArgs pollArgs mem
    load st.kernelMem (scratchOffset + CH_DATA) (pollBytes origArgs) =
        load m.cells (origArgs.getD 0 0).toNat (pollBytes origArgs) ∧
      st.args.getD 0 0 = (scratchOffset + CH_DATA : ℕ) ∧
      pollBytes origArgs ≤ 8 * (UInt32.ofInt (st.args.getD 1 0)).toNat := by
  obtain ⟨hfds, hcount, hcap, hmin⟩ := pollBytes_pos hpos
  have hlen : 2 ≤ origArgs.length := by
    by_contra hshort
    rw [List.getD_eq_default _ _ (by omega)] at hcount
    exact absurd hcount (lt_irrefl 0)
  intro st
  have hst : st = marshalArg scratchOffset m syscallNr origArgs ⟨mem, origArgs, 0⟩
      ⟨0, .inout, .arg 1⟩ := rfl
  simp only [marshalArg, if_neg hfds, argSize, inputScale_poll hnr, hcap, shrinkArg,
    m.subarray_of_le hin, reduceCtorEq, if_false] at hst
  have hargs : ∀ l : List ℤ, 1 < l.length →
      (l.set 0 ((scratchOffset + CH_DATA + 0 : ℕ) : ℤ)).getD 0 0 =
      (scratchOffset + CH_DATA : ℕ) ∧ (l.set 0 ((scratchOffset + CH_DATA + 0 : ℕ) : ℤ)).getD 1 0 =
      l.getD 1 0 := by
    intro l hl
    rcases l with _ | ⟨a, l⟩
    · cases hl
    · exact ⟨rfl, rfl⟩
  rw [hst]
  refine ⟨?_, ?_, ?_⟩
  · have hstored := load_store mem (scratchOffset + CH_DATA + 0)
      (load m.cells (origArgs.getD 0 0).toNat (pollBytes origArgs))
    rwa [length_load] at hstored
  · split
    · exact (hargs _ (by rw [List.length_set]; omega)).1
    · exact (hargs _ (by omega)).1
  split
  next hcapped =>
    -- a number of bytes is passed on where entries are counted
    rw [(hargs _ (by rw [List.length_set]; omega)).2,
      List.getD_eq_getElem _ _ (by rw [List.length_set]; omega), List.getElem_set_self]
    simp only [CH_DATA_SIZE] at hmin
    rw [toNat_ofInt_of_lt (by omega) (by omega)]
    omega
  next hwhole =>
    rw [(hargs _ (by omega)).2]
    simp only [CH_DATA_SIZE] at hmin
    rw [toNat_ofInt_of_lt (by omega) (by omega)]
    omega

/-- The header lies in front of the data. -/
theorem load_writeHeader (scratchOffset syscallNr : ℕ) (mem : ℕ → UInt8) (args : List ℤ) (n : ℕ) :
    load (writeHeader scratchOffset syscallNr args mem) (scratchOffset + CH_DATA) n =
      load mem (scratchOffset + CH_DATA) n := by
  have hargs : ∀ (is : List ℕ) (mem : ℕ → UInt8), (∀ i ∈ is, i < 6) →
      load (is.foldl (fun mem i => store mem (scratchOffset + CH_ARGS + i * CH_ARG_SIZE)
        (leBytes 8 (Int64.ofInt (args.getD i 0)).toUInt64.toNat)) mem) (scratchOffset + CH_DATA) n =
        load mem (scratchOffset + CH_DATA) n := by
    intro is
    induction is with
    | nil => exact fun _ _ => rfl
    | cons i is ih =>
      intro mem hi
      have hlt := hi i List.mem_cons_self
      rw [List.foldl_cons, ih _ fun j hj => hi j (List.mem_cons_of_mem i hj)]
      refine load_store_of_disjoint (.inr ?_)
      rw [length_leBytes]
      simp only [CH_ARGS, CH_ARG_SIZE, CH_DATA]
      omega
  rw [writeHeader, hargs _ _ fun i hi => List.mem_range.mp hi]
  refine load_store_of_disjoint (.inr ?_)
  rw [length_leBytes]
  simp only [CH_SYSCALL, CH_DATA]
  omega

theorem ppollArgs_getD (m : ProcessMemory) (origArgs args : List ℤ) :
    (ppollArgs m origArgs args).getD 0 0 = args.getD 0 0 ∧
      (ppollArgs m origArgs args).getD 1 0 = args.getD 1 0 := by
  simp only [ppollArgs]
  split <;> simp [List.getD_eq_getElem?_getD]

end Area

namespace HostState

variable {κ : Type} {K : KernelPort κ} {scratchOffset : ℕ} {h : HostState κ} {pid syscallNr : ℕ}
  {origArgs : List ℤ}

/-- **A poll that has to wait** leaves the caller's array, with nothing ready, at the start of the
data area. -/
theorem load_callKernel (hnr : syscallNr = SYS_POLL ∨ syscallNr = SYS_PPOLL)
    (hin : (origArgs.getD 0 0).toNat + pollBytes origArgs ≤ (h.memory pid).size)
    (hwaits : (h.callKernel K scratchOffset pid syscallNr origArgs pollArgs).1 = .error .EAGAIN) :
    load (h.callKernel K scratchOffset pid syscallNr origArgs pollArgs).2.kernelMem
        (scratchOffset + CH_DATA) (pollBytes origArgs) =
      clearedArray (h.memory pid).cells (origArgs.getD 0 0).toNat (pollBytes origArgs) := by
  rcases Nat.eq_zero_or_pos (pollBytes origArgs) with hzero | hpos
  · rw [hzero]
    rfl
  obtain ⟨hcopied, hptr, hcount⟩ :=
    marshal_poll scratchOffset h.kernelMem hnr hpos hin
  simp only [callKernel] at hwaits ⊢
  generalize marshal scratchOffset (h.memory pid) syscallNr origArgs pollArgs h.kernelMem = st at *
  obtain ⟨args, hargs, hptr', hcount'⟩ : ∃ args,
      (if syscallNr = SYS_PPOLL then ppollArgs (h.memory pid) origArgs st.args else st.args) =
        args ∧ args.getD 0 0 = st.args.getD 0 0 ∧ args.getD 1 0 = st.args.getD 1 0 := by
    refine ⟨_, rfl, ?_⟩
    split
    · exact ppollArgs_getD _ _ _
    · exact ⟨rfl, rfl⟩
  rw [hargs] at hwaits ⊢
  have hload := KernelPort.load_call hnr hwaits (n := pollBytes origArgs)
    (by rw [hcount']; exact hcount)
  have hfds : (args.getD 0 0).toNat = scratchOffset + CH_DATA := by
    rw [hptr', hptr, Int.toNat_natCast]
  rw [hfds] at hload
  rw [hload]
  -- byte by byte: what was copied in, except where the entries were cleared
  refine List.map_congr_left fun i hi => ?_
  have hbyte := load_eq_iff.mp ((load_writeHeader scratchOffset syscallNr st.kernelMem args
    (pollBytes origArgs)).trans hcopied) i (List.mem_range.mp hi)
  rw [clearedByte, clearedByte, hbyte]

/-- **What the timer copies back** is what stands in the data area. -/
theorem load_fire {t : PollTimer} {now : ℤ}
    (hnr : t.syscallNr = SYS_POLL ∨ t.syscallNr = SYS_PPOLL) (ht : t ∈ h.pendingPollRetries)
    (hregistered : t.pid ∈ h.processes) (hover : t.isOver now = true)
    (hin : (t.origArgs.getD 0 0).toNat + pollBytes t.origArgs ≤ (h.memory t.pid).size) :
    load ((h.fire K scratchOffset t now).memory t.pid).cells (t.origArgs.getD 0 0).toNat
        (pollBytes t.origArgs) =
      load h.kernelMem (scratchOffset + CH_DATA) (pollBytes t.origArgs) := by
  rcases Nat.eq_zero_or_pos (pollBytes t.origArgs) with hzero | hpos
  · rw [hzero]
    rfl
  obtain ⟨hfds, -, hcap, -⟩ := pollBytes_pos hpos
  have hback : (copyBack scratchOffset h.kernelMem (h.memory t.pid) t.syscallNr t.origArgs pollArgs
      0).memory.cells = store (h.memory t.pid).cells (t.origArgs.getD 0 0).toNat
        (load h.kernelMem (scratchOffset + CH_DATA) (pollBytes t.origArgs)) := by
    have hset : (h.memory t.pid).set
        (load h.kernelMem (scratchOffset + CH_DATA + 0) (pollBytes t.origArgs))
        (t.origArgs.getD 0 0).toNat = some { h.memory t.pid with
          cells := store (h.memory t.pid).cells (t.origArgs.getD 0 0).toNat
            (load h.kernelMem (scratchOffset + CH_DATA) (pollBytes t.origArgs)) } := by
      rw [ProcessMemory.set, if_pos (by rw [length_load]; exact hin)]
      rfl
    simp only [copyBack, pollArgs, List.foldl_cons, List.foldl_nil, copyBackArg, hfds,
      argSize, outputScale_poll hnr, hcap, hset, reduceCtorEq, false_or, false_and, if_false,
      Bool.true_eq_false]
  have hmemory : ((h.fire K scratchOffset t now).memory t.pid).cells =
      (copyBack scratchOffset h.kernelMem (h.memory t.pid) t.syscallNr t.origArgs pollArgs
        0).memory.cells := by
    rw [fire, if_neg (not_not.mpr ht)]
    simp only [if_neg (not_not.mpr hregistered), if_pos hover, completeChannel]
    split
    · simp only [Function.update_self]
    · simp only [Function.update_self]
  rw [hmemory, hback]
  have hstored := load_store (h.memory t.pid).cells (t.origArgs.getD 0 0).toNat
    (load h.kernelMem (scratchOffset + CH_DATA) (pollBytes t.origArgs))
  rwa [length_load] at hstored

end HostState

/-! ### The caller's own array -/

/-- **Polls and the scratch area.** A poll has to wait, anything happens on the host, and a timer
completes the poll: the caller gets its own array back, with nothing ready, exactly if the bytes
of the array in the scratch area are those that the kernel has left there. -/
theorem poll_writeback_iff {κ : Type} (K : KernelPort κ) (scratchOffset : ℕ) (h : HostState κ)
    (t : PollTimer) (hnr : t.syscallNr = SYS_POLL ∨ t.syscallNr = SYS_PPOLL) (now later : ℤ)
    (meanwhile : List (HostEvent κ))
    (hwaits : (h.callKernel K scratchOffset t.pid t.syscallNr t.origArgs pollArgs).1 =
      .error .EAGAIN)
    (hin : (t.origArgs.getD 0 0).toNat + pollBytes t.origArgs ≤ (h.memory t.pid).size) :
    let before := meanwhile.foldl (HostState.next K scratchOffset)
      (h.handleSyscall K scratchOffset t.pid t.syscallNr t.origArgs pollArgs now)
    t ∈ before.pendingPollRetries → t.pid ∈ before.processes → t.isOver later = true →
    (t.origArgs.getD 0 0).toNat + pollBytes t.origArgs ≤ (before.memory t.pid).size →
    (load ((before.next K scratchOffset (.fire t later)).memory t.pid).cells
          (t.origArgs.getD 0 0).toNat (pollBytes t.origArgs) =
        clearedArray (h.memory t.pid).cells (t.origArgs.getD 0 0).toNat (pollBytes t.origArgs) ↔
      load before.kernelMem (scratchOffset + CH_DATA) (pollBytes t.origArgs) =
        load (h.callKernel K scratchOffset t.pid t.syscallNr t.origArgs pollArgs).2.kernelMem
          (scratchOffset + CH_DATA) (pollBytes t.origArgs)) := by
  intro before ht hregistered hover hin'
  rw [HostState.load_callKernel hnr hin hwaits, HostState.next,
    HostState.load_fire hnr ht hregistered hover hin']

/-! ### Runs -/

/-- A kernel in which nothing is ever ready, and every other call succeeds and leaves the memory
alone. -/
def idleKernel : KernelPort Unit where
  revents _ _ _ _ := 0
  takeMask _ _ _ := (false, ())
  giveMaskBack _ _ := ()
  deliverPendingSignals _ _ := ()
  dequeueSignal _ _ := (none, ())
  handleChannel _ _ _ _ mem := (.ok 0, (), mem)

/-- Two processes: one with a `pollfd` array for descriptor 3, the other with a password. -/
def twoMemories : HostState Unit where
  kernel := ()
  kernelMem _ := 0
  memory pid :=
    { cells := if pid = 1 then store (fun _ => 0) 100 [3, 0, 0, 0, 1, 0, 7, 0]
        else store (fun _ => 0) 200 [112, 97, 115, 115, 119, 111, 114, 100]
      size := 1000 }
  processes := [1, 2]
  pendingPollRetries := []
  completed := []

/-- `poll` of one descriptor for at most 10 milliseconds. -/
def shortPoll : PollTimer := ⟨1, SYS_POLL, [100, 1, 10, 0, 0, 0], 10, false⟩

/-- Without a call in between the first process gets its array back, with nothing ready. -/
theorem poll_writeback_alone :
    load (((twoMemories.handleSyscall idleKernel 5000 1 SYS_POLL [100, 1, 10, 0, 0, 0] pollArgs
      0).next idleKernel 5000 (.fire shortPoll 10)).memory 1).cells 100 8 =
      [3, 0, 0, 0, 1, 0, 0, 0] := by
  have hiff := poll_writeback_iff idleKernel 5000 twoMemories shortPoll (.inl rfl) 0 10 []
    (by rfl) (by decide +kernel) (by decide +kernel) (by decide +kernel) (by decide +kernel)
    (by decide +kernel)
  have harray : clearedArray (twoMemories.memory 1).cells 100 8 = [3, 0, 0, 0, 1, 0, 0, 0] := by
    decide +kernel
  exact (hiff.mpr rfl).trans harray

/-- **Bytes of another process.** The second process writes its password to some file while the
first one waits: the first one finds the password in its `pollfd` array. -/
theorem poll_writeback_leaks :
    load ((((twoMemories.handleSyscall idleKernel 5000 1 SYS_POLL [100, 1, 10, 0, 0, 0] pollArgs
      0).next idleKernel 5000
        (.syscall 2 4 [1, 200, 8, 0, 0, 0] [⟨1, .input, .arg 2⟩] 5)).next idleKernel 5000
        (.fire shortPoll 10)).memory 1).cells 100 8 = [112, 97, 115, 115, 119, 111, 114, 100] := by
  decide +kernel

end PosixKernel
