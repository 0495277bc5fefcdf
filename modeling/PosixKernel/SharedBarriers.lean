import PosixKernel.Lib.CyclicBarrier
import PosixKernel.SharedMutexes

/-!
# Rounds at a Shared Barrier

The entries of a shared barrier are those of the agents that wait and of the agents of earlier
rounds that have not asked again. The barrier counts both. It is a cyclic barrier as long as an
agent that would fill the list finds no entry of an earlier round in it.

## Main definitions

* `Meets` — the entries of a barrier are those of a cyclic barrier;
* `Timely` — the condition on a call.

## Main results

* `Meets.wait` — one call on a barrier is one on the cyclic barrier;
* `PSharedTable.lookup_barrier_call` — what a call does to a barrier;
* `sharedBarrier_rounds_iff` — the rounds are as they should be all along a run exactly if every
  call meets the condition.
-/

namespace PosixKernel

open PSharedTable

variable {α : Type} [Caller α]

/-! ### One barrier -/

/-- The entry of an agent. -/
def barrierEntry (released : Bool) (a : α) : BarrierWaiter := ⟨Caller.pid a, false, released⟩

/-- **The entries of a barrier** are those of the agents that are freed and of those that wait; they
are of different processes, and the list is not full. -/
structure Meets (b : PSharedBarrier) (c : CyclicBarrier α) : Prop where
  waiters_eq : b.waiters = c.freed.map (barrierEntry true) ++ c.waiting.map (barrierEntry false)
  distinct : (c.freed ++ c.waiting).Pairwise fun x y => Caller.pid x ≠ Caller.pid y
  short : b.waiters.length < b.count

/-- The answer that a barrier gives. -/
def barrierAnswer : Except Errno ℤ → Option CyclicBarrier.Answer
  | .ok v => some (.passes (v = PTHREAD_BARRIER_SERIAL_THREAD))
  | .error .EAGAIN => some .waits
  | .error _ => none

/-- No other caller of the same process is at the barrier. -/
def BarrierClear (c : CyclicBarrier α) (a : α) : Prop :=
  ∀ x ∈ c.freed ++ c.waiting, Caller.pid x = Caller.pid a → x = a

/-- **The condition**: a process that has no entry, and whose entry fills the list, finds no entry
there that is released. -/
def PSharedBarrier.Timely (b : PSharedBarrier) (pid : ℕ) : Prop :=
  b.waiters.find? (·.pid = pid) = none → b.waiters.length + 1 = b.count →
    ∀ w ∈ b.waiters, w.released = false

namespace Meets

variable {b : PSharedBarrier} {c : CyclicBarrier α} {a : α}

variable (h : Meets b c)

include h

/-- The entries are those freed and those waiting. -/
theorem length_waiters : b.waiters.length = c.freed.length + c.waiting.length := by
  rw [h.waiters_eq, List.length_append, List.length_map, List.length_map]

/-- No process is entered twice. -/
theorem waiters_distinct : b.waiters.Pairwise fun v w => v.pid ≠ w.pid := by
  have hpids : b.waiters.map (·.pid) = (c.freed ++ c.waiting).map Caller.pid := by
    rw [h.waiters_eq, List.map_append, List.map_append, List.map_map, List.map_map]
    rfl
  have hdistinct := List.pairwise_map.mpr h.distinct
  rw [← hpids] at hdistinct
  exact List.pairwise_map.mp hdistinct

/-- Who is freed or waits is found. -/
theorem find?_entry (released : Bool) (hmem : a ∈ if released then c.freed else c.waiting) :
    b.waiters.find? (·.pid = Caller.pid a) = some (barrierEntry released a) := by
  refine find?_eq_of_mem (w := barrierEntry released a) h.waiters_distinct ?_
  rw [h.waiters_eq]
  cases released with
  | true => exact List.mem_append_left _ (List.mem_map_of_mem hmem)
  | false => exact List.mem_append_right _ (List.mem_map_of_mem hmem)

/-- Nobody else is. -/
theorem find?_none (hothers : ∀ x ∈ c.freed ++ c.waiting, Caller.pid x ≠ Caller.pid a) :
    b.waiters.find? (·.pid = Caller.pid a) = none := by
  rw [List.find?_eq_none, h.waiters_eq]
  intro w hw hpid
  rcases List.mem_append.mp hw with hw | hw
  · obtain ⟨x, hx, rfl⟩ := List.mem_map.mp hw
    exact hothers x (List.mem_append_left _ hx) (of_decide_eq_true hpid)
  · obtain ⟨x, hx, rfl⟩ := List.mem_map.mp hw
    exact hothers x (List.mem_append_right _ hx) (of_decide_eq_true hpid)

/-- The entries without one process. -/
theorem filter_waiters (pid : ℕ) :
    b.waiters.filter (·.pid ≠ pid) =
      (c.freed.filter (Caller.pid · ≠ pid)).map (barrierEntry true) ++
        (c.waiting.filter (Caller.pid · ≠ pid)).map (barrierEntry false) := by
  rw [h.waiters_eq, List.filter_append, List.filter_map, List.filter_map]
  rfl

/-- The last one frees all. -/
theorem wait_completes (hnone : c.freed = []) :
    Meets { b with waiters := b.waiters.map fun w => { w with released := true } }
      ⟨[], c.freed ++ c.waiting⟩ where
  waiters_eq := by
    simp only [h.waiters_eq, hnone, List.map_nil, List.nil_append, List.map_map, List.append_nil]
    rfl
  distinct := by simpa using h.distinct
  short := by simpa using h.short

/-- One that is early is entered. -/
theorem wait_arrives (hothers : ∀ x ∈ c.freed ++ c.waiting, Caller.pid x ≠ Caller.pid a)
    (hmore : b.waiters.length + 1 ≠ b.count) :
    Meets { b with waiters := b.waiters ++ [⟨Caller.pid a, false, false⟩] }
      { c with waiting := c.waiting ++ [a] } where
  waiters_eq := by
    simp only [h.waiters_eq, List.map_append, List.append_assoc]
    rfl
  distinct := by
    rw [← List.append_assoc]
    refine List.pairwise_append.mpr ⟨h.distinct, List.pairwise_singleton _ _, fun x hx y hy => ?_⟩
    rw [List.mem_singleton.mp hy]
    exact hothers x hx
  short := by
    have hshort := h.short
    simp only [List.length_append, List.length_singleton]
    omega

omit h

variable [DecidableEq α]

/-- One that is freed leaves. -/
theorem wait_freed (h : Meets b c) (hclear : BarrierClear c a) (hfreed : a ∈ c.freed) :
    Meets { b with waiters := b.waiters.eraseP (·.pid = Caller.pid a) }
      { c with freed := c.freed.filter (· ≠ a) } where
  waiters_eq := by
    have hone : c.freed.filter (Caller.pid · ≠ Caller.pid a) = c.freed.filter (· ≠ a) :=
      List.filter_congr fun x hx => by
        rw [decide_eq_decide]
        exact not_congr ⟨hclear x (List.mem_append_left _ hx), congrArg _⟩
    have hrest : c.waiting.filter (Caller.pid · ≠ Caller.pid a) = c.waiting :=
      List.filter_eq_self.mpr fun x hx => decide_eq_true fun hpid => by
        obtain rfl := hclear x (List.mem_append_right _ hx) hpid
        exact (List.pairwise_append.mp h.distinct).2.2 _ hfreed _ hx rfl
    rw [eraseP_eq_filter h.waiters_distinct, h.filter_waiters, hone, hrest]
  distinct := h.distinct.sublist (List.filter_sublist.append_right _)
  short := List.eraseP_sublist.length_le.trans_lt h.short

/-- **One call on a barrier** is one on the cyclic barrier. -/
theorem wait (h : Meets b c) (hclear : BarrierClear c a) (htimely : b.Timely (Caller.pid a)) :
    barrierAnswer (b.wait (Caller.pid a)).1 = some (c.wait b.count a).1 ∧
      Meets (b.wait (Caller.pid a)).2 (c.wait b.count a).2 := by
  have hlen := h.length_waiters
  have hshort := h.short
  have hcount := b.count_lt
  have hmod : (b.waiters.length + 1) % 2 ^ 32 = b.waiters.length + 1 := Nat.mod_eq_of_lt (by omega)
  rw [PSharedBarrier.wait, CyclicBarrier.wait]
  by_cases hfreed : a ∈ c.freed
  · rw [h.find?_entry true hfreed, if_pos hfreed]
    exact ⟨rfl, h.wait_freed hclear hfreed⟩
  rw [if_neg hfreed]
  by_cases hwaiting : a ∈ c.waiting
  · rw [h.find?_entry false hwaiting, if_pos hwaiting]
    exact ⟨rfl, h⟩
  have hothers : ∀ x ∈ c.freed ++ c.waiting, Caller.pid x ≠ Caller.pid a := by
    intro x hx hpid
    obtain rfl := hclear x hx hpid
    exact (List.mem_append.mp hx).elim hfreed hwaiting
  rw [if_neg hwaiting, h.find?_none hothers]
  simp only [hmod]
  -- the list is full exactly if the round is complete: nobody of an earlier round is in it
  have hfull : b.waiters.length + 1 = b.count ↔ c.waiting.length + 1 = b.count := by
    constructor
    · intro hfull
      have hnone : c.freed = [] := by
        by_contra hsome
        obtain ⟨x, hx⟩ := List.exists_mem_of_ne_nil _ hsome
        have hentry : barrierEntry true x ∈ b.waiters := by
          rw [h.waiters_eq]
          exact List.mem_append_left _ (List.mem_map_of_mem hx)
        cases htimely (h.find?_none hothers) hfull _ hentry
      rwa [hlen, hnone, List.length_nil, zero_add] at hfull
    · omega
  by_cases hlast : c.waiting.length + 1 = b.count
  · rw [if_pos (hfull.mpr hlast), if_pos hlast]
    exact ⟨rfl, h.wait_completes (List.eq_nil_of_length_eq_zero (by omega))⟩
  · rw [if_neg fun heq => hlast (hfull.mp heq), if_neg hlast]
    exact ⟨rfl, h.wait_arrives hothers fun heq => hlast (hfull.mp heq)⟩

end Meets

/-! ### What a call does to a barrier -/

/-- A barrier after a call. -/
def barrierAfter (id nextId : ℕ) (b : Option PSharedBarrier) :
    PSharedCall α → Option PSharedBarrier
  | .barrierInit count =>
    if h : 0 < count.toNat then
      if nextId = id then some ⟨count.toNat, [], h, count.toNat_lt⟩ else b
    else b
  | .barrierWait a id' => if id' = id then b.map fun b => (b.wait (Caller.pid a)).2 else b
  | .barrierDestroy id' => if id' = id then b.filter (·.waiters ≠ []) else b
  | .removeProcess pid => b.map (·.forget pid)
  | _ => b

namespace PSharedTable

/-- **What a call does to a barrier.** -/
theorem lookup_barrier_call (t : PSharedTable) (call : PSharedCall α) (id : ℕ) :
    (t.call call).2.barriers.lookup id = barrierAfter id t.nextId (t.barriers.lookup id) call := by
  cases call with
  | barrierInit count =>
    simp only [call, barrierAfter, barrierInit]
    by_cases hzero : count.toNat = 0
    · rw [dif_pos hzero, dif_neg (by omega)]
    · rw [dif_neg hzero, dif_pos (Nat.pos_of_ne_zero hzero)]
      simp [KeyMap.lookup_insert_eq, eq_comm]
  | barrierWait a id' =>
    simp only [call, barrierAfter, barrierWait]
    rcases hb : t.barriers.lookup id' with _ | b
    · dsimp only
      split
      next hid => rw [← hid, hb]; rfl
      next => rfl
    simp only [KeyMap.lookup_insert_eq]
    by_cases hid : id' = id
    · rw [if_pos hid.symm, if_pos hid, ← hid, hb]
      rfl
    · rw [if_neg (Ne.symm hid), if_neg hid]
  | barrierDestroy id' =>
    simp only [call, barrierAfter, zero, barrierDestroy]
    rcases hb : t.barriers.lookup id' with _ | b
    · dsimp only
      split
      next hid => rw [← hid, hb]; rfl
      next => rfl
    by_cases hempty : b.waiters = []
    · simp only [hempty, ne_eq, not_true, if_false, KeyMap.lookup_erase_eq]
      by_cases hid : id' = id
      · rw [if_pos hid.symm, if_pos hid, ← hid, hb]
        simp [Option.filter, hempty]
      · rw [if_neg (Ne.symm hid), if_neg hid]
    simp only [ne_eq, hempty, not_false_eq_true, if_true]
    split
    next hid => rw [← hid, hb]; simp [Option.filter, hempty]
    next => rfl
  | removeProcess => exact KeyMap.lookup_mapValues _ _ _
  | _ => rw [(t.frame_call _).barriers rfl]; rfl

end PSharedTable

/-! ### Runs -/

variable [DecidableEq α]

/-- The observer of a barrier: it sees the answers to those who wait there. -/
def recordBarrier (id : ℕ) (log : CyclicBarrier.Log α) (call : PSharedCall α)
    (r : Except Errno ℤ) : CyclicBarrier.Log α :=
  match call with
  | .barrierWait a id' =>
    if id' = id then
      match barrierAnswer r with
      | some answer => log.record a answer
      | none => log
    else log
  | _ => log

/-- A call, with the observer of a barrier beside. -/
abbrev barrierNext (id : ℕ) :
    PSharedTable × CyclicBarrier.Log α → PSharedCall α → PSharedTable × CyclicBarrier.Log α :=
  Runs.observed call (recordBarrier id)

/-- **The rounds at a barrier** are as they should be, and a process whose round is complete passes
when it asks again. -/
structure RoundsHold (id n : ℕ) (s : PSharedTable × CyclicBarrier.Log α) : Prop where
  rounds : s.2.Rounds n
  passes : ∀ a k, s.2.pending a = some k → (k / n + 1) * n ≤ s.2.arrivals.length →
    (s.1.call (.barrierWait a id)).1.isOk = true

/-- No process is removed, and no other barrier is made under the number. -/
def KeepsBarrier (id : ℕ) (t : PSharedTable) (call : PSharedCall α) : Prop :=
  (∀ pid, call ≠ .removeProcess pid) ∧ ∀ count, call = .barrierInit count → t.nextId ≠ id

/-- The condition on a call. -/
def PSharedTable.Timely (t : PSharedTable) (id : ℕ) (call : PSharedCall α) : Prop :=
  ∀ a b, call = .barrierWait a id → t.barriers.lookup id = some b → b.Timely (Caller.pid a)

/-- The invariant: the barrier is a cyclic one, or it was destroyed when nobody was there. -/
def MeetsSoundly (id n : ℕ) (s : PSharedTable × CyclicBarrier.Log α) : Prop :=
  ∃ (c : CyclicBarrier α) (R : ℕ) (past : List α), c.Sound n s.2 R past ∧
    (∀ b, s.1.barriers.lookup id = some b → b.count = n ∧ Meets b c) ∧
    (s.1.barriers.lookup id = none → c.freed = [] ∧ c.waiting = [])

namespace MeetsSoundly

variable {id n : ℕ} {s : PSharedTable × CyclicBarrier.Log α} {call : PSharedCall α}

omit [DecidableEq α] in
/-- A call that leaves the barrier and the observer alone. -/
theorem congr (h : MeetsSoundly id n s) {s' : PSharedTable × CyclicBarrier.Log α}
    (hb : s'.1.barriers.lookup id = s.1.barriers.lookup id) (hlog : s'.2 = s.2) :
    MeetsSoundly id n s' := by
  rwa [MeetsSoundly, hb, hlog]

/-- A timely wait keeps the barrier sound. -/
theorem wait (h : MeetsSoundly id n s) (hsole : ∀ a b : α, Caller.pid a = Caller.pid b → a = b)
    {a : α} (htimely : s.1.Timely id (.barrierWait a id)) :
    MeetsSoundly id n (barrierNext id s (.barrierWait a id)) := by
  obtain ⟨c, R, past, hsound, hsome, hnone⟩ := h
  rcases hb : s.1.barriers.lookup id with _ | b
  · have hres : s.1.call (.barrierWait a id) = (.error .EINVAL, s.1) := by
      simp [call, barrierWait, hb]
    have hnext : barrierNext id s (.barrierWait a id) = s := by
      simp only [Runs.observed, hres, recordBarrier, if_true]
      rfl
    rw [hnext]
    exact ⟨c, R, past, hsound, hsome, hnone⟩
  obtain ⟨rfl, hmeets⟩ := hsome b hb
  obtain ⟨hanswer, hmeets'⟩ := hmeets.wait (fun x _ => hsole x a) (htimely a b rfl hb)
  obtain ⟨R', past', hsound'⟩ := hsound.wait a
  have hreply : (s.1.call (.barrierWait a id)).1 = (b.wait (Caller.pid a)).1 := by
    simp [call, barrierWait, hb]
  have hlog : (barrierNext id s (.barrierWait a id)).2 = s.2.record a (c.wait b.count a).1 := by
    simp [Runs.observed, recordBarrier, hreply, hanswer]
  have hlookup : (barrierNext id s (.barrierWait a id)).1.barriers.lookup id =
      some (b.wait (Caller.pid a)).2 := by
    show (s.1.call (.barrierWait a id)).2.barriers.lookup id = _
    rw [lookup_barrier_call, barrierAfter, if_pos rfl, hb]
    rfl
  refine ⟨_, R', past', by rw [hlog]; exact hsound', fun b' hb' => ?_, fun hgone => ?_⟩
  · cases hlookup.symm.trans hb'
    exact ⟨PSharedBarrier.count_wait .., hmeets'⟩
  · rw [hlookup] at hgone
    cases hgone

/-- **One call keeps the invariant.** -/
theorem next (h : MeetsSoundly id n s) (hsole : ∀ a b : α, Caller.pid a = Caller.pid b → a = b)
    (hkeeps : KeepsBarrier id s.1 call) (htimely : s.1.Timely id call) :
    MeetsSoundly id n (barrierNext id s call) := by
  have hother : barrierAfter id s.1.nextId (s.1.barriers.lookup id) call =
      s.1.barriers.lookup id → recordBarrier id s.2 call (s.1.call call).1 = s.2 →
      MeetsSoundly id n (barrierNext id s call) := fun hsame hlog =>
    h.congr ((lookup_barrier_call ..).trans hsame) hlog
  cases call with
  | barrierWait a id' =>
    by_cases hid : id' = id
    · subst hid
      exact h.wait hsole htimely
    · exact hother (if_neg hid) (if_neg hid)
  | barrierDestroy id' =>
    by_cases hid : id' = id
    · obtain ⟨c, R, past, hsound, hsome, hnone⟩ := h
      have hlookup : (barrierNext id s (.barrierDestroy id')).1.barriers.lookup id =
          (s.1.barriers.lookup id).filter (·.waiters ≠ []) :=
        (lookup_barrier_call ..).trans (if_pos hid)
      refine ⟨c, R, past, hsound, fun b hb => ?_, fun hgone => ?_⟩
      · rw [hlookup] at hb
        exact hsome b (Option.filter_eq_some_iff.mp hb).1
      rcases hb : s.1.barriers.lookup id with _ | b
      · exact hnone hb
      rw [hlookup, hb] at hgone
      have hempty : b.waiters = [] := by
        by_contra hne
        simp [hne] at hgone
      have hlen := (hsome b hb).2.length_waiters
      rw [hempty, List.length_nil] at hlen
      exact ⟨List.eq_nil_of_length_eq_zero (by omega),
        List.eq_nil_of_length_eq_zero (by omega)⟩
    · exact hother (if_neg hid) rfl
  | barrierInit count =>
    refine hother ?_ rfl
    simp only [barrierAfter]
    split
    · exact if_neg (hkeeps.2 count rfl)
    · rfl
  | removeProcess pid => exact absurd rfl (hkeeps.1 pid)
  | _ => exact hother rfl rfl

omit [DecidableEq α] in
/-- **The invariant gives the rounds.** -/
theorem roundsHold (h : MeetsSoundly id n s) : RoundsHold id n s := by
  obtain ⟨c, R, past, hsound, hsome, hnone⟩ := h
  refine ⟨hsound.rounds, fun a k hk hcomplete => ?_⟩
  have hfreed := hsound.mem_freed hk hcomplete
  rcases hb : s.1.barriers.lookup id with _ | b
  · rw [(hnone hb).1] at hfreed
    cases hfreed
  have hfound := (hsome b hb).2.find?_entry true hfreed
  simp only [call, barrierWait, hb, PSharedBarrier.wait, hfound]
  rfl

/-- A process that passes before its round is complete. -/
theorem timely_of_rounds (h : MeetsSoundly id n s) (hn : 0 < n)
    (hrounds : (barrierNext id s call).2.Rounds n) : s.1.Timely id call := by
  rintro a b rfl hb hnew hfull w hw
  obtain ⟨c, R, past, hsound, hsome, -⟩ := h
  obtain ⟨rfl, hmeets⟩ := hsome b hb
  by_contra hreleased
  have hlen := hmeets.length_waiters
  -- somebody of an earlier round is there, so the round is not complete
  have hfreed : 0 < c.freed.length := by
    rw [hmeets.waiters_eq] at hw
    rcases List.mem_append.mp hw with hw | hw
    · obtain ⟨x, hx, -⟩ := List.mem_map.mp hw
      exact List.length_pos_of_mem hx
    · obtain ⟨x, -, rfl⟩ := List.mem_map.mp hw
      contradiction
  have hpending : s.2.pending a = none := by
    refine hsound.pending_none (fun hmem => ?_) fun hmem => ?_
    · rw [hmeets.find?_entry true hmem] at hnew
      cases hnew
    · rw [hmeets.find?_entry false hmem] at hnew
      cases hnew
  have hcount := b.count_lt
  have hmod : (b.waiters.length + 1) % 2 ^ 32 = b.waiters.length + 1 := Nat.mod_eq_of_lt (by omega)
  have hreply : (s.1.call (.barrierWait a id)).1 = .ok PTHREAD_BARRIER_SERIAL_THREAD := by
    simp only [call, barrierWait, hb, PSharedBarrier.wait, hnew]
    rw [hmod, if_pos hfull]
  have hlog : (barrierNext id s (.barrierWait a id)).2 = s.2.record a (.passes true) := by
    simp only [Runs.observed, recordBarrier, if_true, hreply]
    rfl
  rw [hlog] at hrounds
  have hpass := hrounds.together ⟨s.2.arrivals.length, s.2.arrivals.length + 1, true⟩ (by
    rw [CyclicBarrier.Log.record_passes_passes, CyclicBarrier.Log.record_arrivals, hpending]
    simp)
  have hround : s.2.arrivals.length / b.count = R := by
    rw [hsound.length_arrivals, mul_comm, Nat.mul_add_div hn, Nat.div_eq_of_lt hsound.waiting_lt,
      add_zero]
  have harrivals := hsound.length_arrivals
  rw [hround, Nat.succ_mul] at hpass
  simp only at hpass
  omega

end MeetsSoundly

/-- **Shared barriers.** In every run of processes of one thread each, none of which is removed,
that begins with a barrier nobody is at and makes no other under its number: the rounds are as they
should be in every state exactly if every process that fills the list finds no entry of an earlier
round in it. -/
theorem sharedBarrier_rounds_iff (id : ℕ) (t : PSharedTable) (b : PSharedBarrier)
    (hb : t.barriers.lookup id = some b) (hnew : b.waiters = [])
    (calls : List (PSharedCall SoleThread))
    (hkeeps : Runs (barrierNext id) (fun s call => KeepsBarrier id s.1 call) (t, .empty) calls) :
    (∀ k, RoundsHold id b.count ((calls.take k).foldl (barrierNext id) (t, .empty))) ↔
      Runs (barrierNext id) (fun s call => s.1.Timely id call) (t, .empty) calls := by
  refine Runs.forall_take_iff (I := MeetsSoundly id b.count) hkeeps ?_
    (fun s h => h.roundsHold)
    (fun s call h hk ht => h.next SoleThread.eq_of_pid hk ht)
    fun s call h _ hafter => h.timely_of_rounds b.count_pos hafter.rounds
  refine ⟨.empty, 0, [], CyclicBarrier.sound_empty b.count_pos, fun b' hb' => ?_, fun hgone => ?_⟩
  · cases hb.symm.trans hb'
    exact ⟨rfl, by rw [hnew]; rfl, .nil, by rw [hnew]; exact b.count_pos⟩
  · rw [hb] at hgone
    cases hgone

/-- Two processes meet. -/
theorem sharedBarrier_rounds_two :
    let p : SoleThread := ⟨1, by decide⟩
    let t := (new.barrierInit 2).2
    let calls := [PSharedCall.barrierWait p 1, .barrierWait ⟨2, by decide⟩ 1, .barrierWait p 1]
    ∀ k, RoundsHold 1 2 ((calls.take k).foldl (barrierNext 1) (t, .empty)) := by
  intro p t calls
  refine (sharedBarrier_rounds_iff 1 t ⟨2, [], by decide, by decide⟩ rfl rfl calls ?_).mpr ?_
  · exact ⟨⟨by simp, by simp⟩, ⟨by simp, by simp⟩, ⟨by simp, by simp⟩, trivial⟩
  refine ⟨?_, ?_, ?_, trivial⟩
  · rintro a b - hb - - w hw
    cases hb
    cases hw
  · rintro a b - hb - - w hw
    cases hb
    obtain rfl := List.mem_singleton.mp hw
    rfl
  rintro a b hcall hb hnone - w -
  obtain ⟨rfl, -⟩ := PSharedCall.barrierWait.inj hcall
  cases hb
  cases hnone

/-- At a barrier for two, a third process passes alone while the first has not asked again. -/
theorem sharedBarrier_passes_alone :
    let calls : List (PSharedCall SoleThread) :=
      [.barrierInit 2, .barrierWait ⟨1, by decide⟩ 1, .barrierWait ⟨2, by decide⟩ 1]
    let s := calls.foldl (barrierNext 1) (.new, .empty)
    s.2.arrivals = [⟨1, by decide⟩, ⟨2, by decide⟩] ∧
      (s.1.call (.barrierWait (⟨3, by decide⟩ : SoleThread) 1)).1 =
        .ok PTHREAD_BARRIER_SERIAL_THREAD := by
  decide

end PosixKernel
