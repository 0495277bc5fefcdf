import Mathlib.Data.List.Forall2
import PosixKernel.SharedMutexes

/-!
# Waits on a Shared Condition Variable

An observer of all calls and their answers knows who waits on a condition variable, since when and
with which mutex, and when it was last signalled or broadcast. The table keeps the waiters in the
order in which they came, and marks those that may go on. The two agree as long as no process
begins a second wait before the first is over.

## Main definitions

* `recordWaits` — the observer of one condition variable;
* `Tracks` — the observer and the table agree on the waiters;
* `CondGuarantee` — what a call on a condition variable has to respect.

## Main results

* `waiters_call` — what one call does to the waiters;
* `tracks_call` — one call keeps the agreement;
* `marked_call_le` — the marks that one call makes;
* `sharedCond_guarantee` — the guarantee for processes of one thread.
-/

namespace PosixKernel

open PSharedTable PSharedCond

/-! ### What a call does to the waiters -/

namespace PSharedTable

/-- The waiters on a condition variable; there are none if it is missing. -/
def waiters (t : PSharedTable) (condId : ℕ) : List CondWaiter :=
  match t.conds.lookup condId with
  | some c => c.waiters
  | none => []

variable {t t' : PSharedTable} {condId : ℕ}

/-- The waiters of a condition that is there. -/
theorem waiters_of_lookup {c : PSharedCond} (h : t.conds.lookup condId = some c) :
    t.waiters condId = c.waiters := by
  rw [waiters, h]

/-- There are none of one that is not. -/
theorem waiters_of_none (h : t.conds.lookup condId = none) : t.waiters condId = [] := by
  rw [waiters, h]

/-- The waiters are read from the conditions. -/
theorem waiters_congr (h : t'.conds = t.conds) (condId : ℕ) :
    t'.waiters condId = t.waiters condId := by
  rw [waiters, h, waiters]

/-- The waiters after one condition changed. -/
theorem waiters_insert {id : ℕ} {c : PSharedCond} (h : t'.conds = t.conds.insert id c)
    (condId : ℕ) : t'.waiters condId = if id = condId then c.waiters else t.waiters condId := by
  rw [waiters, h, KeyMap.lookup_insert_eq]
  by_cases hid : condId = id
  · rw [if_pos hid, if_pos hid.symm]
  · rw [if_neg hid, if_neg (Ne.symm hid), waiters]

/-- A change to the waiters of one condition variable, if there is it. -/
theorem waiters_changed {id : ℕ} (f : List CondWaiter → List CondWaiter) (hnil : f [] = [])
    (hnone : t.conds.lookup id = none → t'.conds = t.conds)
    (hsome : ∀ c, t.conds.lookup id = some c → t'.conds = t.conds.insert id ⟨f c.waiters⟩)
    (condId : ℕ) :
    t'.waiters condId = if id = condId then f (t.waiters condId) else t.waiters condId := by
  rcases hc : t.conds.lookup id with _ | c
  · rw [waiters_congr (hnone hc)]
    split
    next hid => rw [← hid, waiters_of_none hc, hnil]
    next => rfl
  rw [waiters_insert (hsome c hc)]
  split
  next hid => rw [← hid, waiters_of_lookup hc]
  next => rfl

end PSharedTable

variable {α : Type} [Caller α]

/-- The waiters on a condition variable after a call that succeeds or not. -/
def waitersAfter (condId nextId : ℕ) (ws : List CondWaiter) (ok : Bool) :
    PSharedCall α → List CondWaiter
  | .condInit => if nextId = condId then [] else ws
  | .condWaitBegin a id mutexId =>
    if id = condId ∧ ok then (PSharedCond.begin ⟨ws⟩ mutexId (Caller.pid a)).waiters else ws
  | .condWaitCheck a id _ =>
    if id = condId ∧ ok then ws.eraseP (·.pid = Caller.pid a) else ws
  | .condWaitAbort a id => if id = condId then ws.filter (·.pid ≠ Caller.pid a) else ws
  | .condSignal id => if id = condId then (markFirst ws).2 else ws
  | .condBroadcast id =>
    if id = condId then ws.map fun w => { w with signaled := true } else ws
  | .removeProcess pid => ws.filter (·.pid ≠ pid)
  | _ => ws

namespace PSharedTable

/-- **What a call does to the waiters.** -/
theorem waiters_call (t : PSharedTable) (call : PSharedCall α) (condId : ℕ) :
    (t.call call).2.waiters condId =
      waitersAfter condId t.nextId (t.waiters condId) (t.call call).1.isOk call := by
  cases call with
  | condInit => exact waiters_insert rfl condId
  | condWaitBegin a id mutexId =>
    simp only [call, waitersAfter, isOk_zero]
    rcases t.condWaitBegin_cases id mutexId (Caller.pid a) with
      ⟨hres, -⟩ | hres | ⟨m, -, -, ⟨-, hres⟩ | ⟨c, hc, hres⟩⟩
    · simp [hres, zero]
    · simp [hres, zero]
    · simp only [hres, zero, isOk_error, Bool.false_eq_true, and_false, if_false]
      exact waiters_congr rfl condId
    simp only [hres, zero, isOk_ok, and_true]
    rw [waiters_insert rfl condId]
    split
    next hid => rw [← hid, waiters_of_lookup hc]
    next => rfl
  | condWaitCheck a id mutexId =>
    simp only [call, waitersAfter, isOk_zero]
    rcases t.condWaitCheck_cases id mutexId (Caller.pid a) with
      ⟨e, hres⟩ | ⟨c, w, m, hc, -, -, -, -, -, hres⟩
    · simp [hres, zero]
    simp only [hres, zero, isOk_ok, and_true]
    rw [waiters_insert rfl condId]
    split
    next hid => rw [← hid, waiters_of_lookup hc]
    next => rfl
  | condWaitAbort a =>
    refine waiters_changed (·.filter (·.pid ≠ Caller.pid a)) rfl (fun hc => ?_)
      (fun c hc => ?_) condId
    · simp [call, condWaitAbort, hc]
    · simp only [call, condWaitAbort, hc]
      rfl
  | condSignal =>
    refine waiters_changed (fun ws => (markFirst ws).2) rfl (fun hc => ?_) (fun c hc => ?_) condId
    · simp [call, condSignal, hc]
    · simp only [call, condSignal, hc]
      rfl
  | condBroadcast =>
    refine waiters_changed (·.map fun w => { w with signaled := true }) rfl
      (fun hc => ?_) (fun c hc => ?_) condId
    · simp [call, condBroadcast, hc]
    · simp only [call, condBroadcast, hc]
      rfl
  | condDestroy id =>
    simp only [call, waitersAfter, zero, condDestroy]
    rcases hc : t.conds.lookup id with _ | c
    · rfl
    by_cases hempty : c.waiters = []
    · simp only [hempty, ne_eq, not_true, if_false]
      rw [waiters, KeyMap.lookup_erase_eq]
      split_ifs with hid
      · rw [hid, waiters_of_lookup hc, hempty]
      · rw [waiters]
    · simp [hempty]
  | removeProcess =>
    simp only [call, waitersAfter, cleanupProcess]
    rw [waiters, KeyMap.lookup_mapValues, waiters]
    rcases t.conds.lookup condId with _ | c
    · rfl
    · rfl
  | _ => exact waiters_congr ((t.frame_call _).conds rfl) condId

end PSharedTable

/-! ### The observer -/

/-- A wait: who waits, with which mutex, and since when. -/
structure Wait (α : Type) where
  agent : α
  mutex : ℕ
  since : ℕ

/-- What the observer of a condition variable knows: the time, in calls; the waits, in the order in
which they began; and when it was last signalled or broadcast, and last broadcast. -/
structure CondLog (α : Type) where
  clock : ℕ
  waits : List (Wait α)
  woken : ℕ
  broadcast : ℕ

/-- Nothing has happened. -/
def CondLog.start : CondLog α := ⟨0, [], 0, 0⟩

section Record

variable [DecidableEq α]

/-- **The observer of a condition variable.** A wait begins when its first half succeeds, and ends
when its second half succeeds, when it is given up, or when its process is removed. -/
def recordWaits (condId : ℕ) (j : CondLog α) (call : PSharedCall α) (r : Except Errno ℤ) :
    CondLog α :=
  let now := j.clock + 1
  match call with
  | .condInit =>
    match r with
    | .ok id => if (condId : ℤ) = id then ⟨now, [], 0, 0⟩ else { j with clock := now }
    | .error _ => { j with clock := now }
  | .condWaitBegin a id mutexId =>
    if id = condId ∧ r.isOk then { j with clock := now, waits := j.waits ++ [⟨a, mutexId, now⟩] }
    else { j with clock := now }
  | .condWaitCheck a id _ =>
    if id = condId ∧ r.isOk then
      { j with clock := now, waits := j.waits.filter (·.agent ≠ a) }
    else { j with clock := now }
  | .condWaitAbort a id =>
    if id = condId then { j with clock := now, waits := j.waits.filter (·.agent ≠ a) }
    else { j with clock := now }
  | .condSignal id =>
    if id = condId ∧ r.isOk then { j with clock := now, woken := now } else { j with clock := now }
  | .condBroadcast id =>
    if id = condId ∧ r.isOk then { j with clock := now, woken := now, broadcast := now }
    else { j with clock := now }
  | .removeProcess pid =>
    { j with clock := now, waits := j.waits.filter (Caller.pid ·.agent ≠ pid) }
  | _ => { j with clock := now }

end Record

/-- A waiter stands for a wait: it is marked only if there was a signal since the wait began, and it
is marked if there was a broadcast. -/
structure StandsFor (j : CondLog α) (x : Wait α) (w : CondWaiter) : Prop where
  pid_eq : w.pid = Caller.pid x.agent
  mutex_eq : w.mutexId = x.mutex
  woken : w.signaled = true → x.since < j.woken
  broadcast : x.since < j.broadcast → w.signaled = true

/-- **Agreement on the waiters**: they stand for the waits, one by one, and are of different
processes. -/
structure Tracks (j : CondLog α) (ws : List CondWaiter) : Prop where
  stands : List.Forall₂ (StandsFor j) j.waits ws
  distinct : j.waits.Pairwise fun x y => Caller.pid x.agent ≠ Caller.pid y.agent
  ordered : j.waits.Pairwise fun x y => x.since < y.since
  past : ∀ x ∈ j.waits, x.since ≤ j.clock
  woken_le : j.woken ≤ j.clock
  broadcast_le : j.broadcast ≤ j.woken

/-- At first nobody waits. -/
theorem tracks_start : Tracks (CondLog.start : CondLog α) [] :=
  ⟨.nil, .nil, .nil, fun _ hx => absurd hx List.not_mem_nil, le_rfl, le_rfl⟩

namespace Tracks

variable {j : CondLog α} {ws : List CondWaiter}

variable (h : Tracks j ws)

include h

/-- Every waiter stands for a wait. -/
theorem exists_wait {w : CondWaiter} (hw : w ∈ ws) : ∃ x ∈ j.waits, StandsFor j x w := by
  obtain ⟨i, hi, rfl⟩ := List.mem_iff_getElem.mp hw
  have hlen := h.stands.length_eq
  exact ⟨j.waits[i], List.getElem_mem _, h.stands.get (by omega) hi⟩

/-- Every wait has a waiter. -/
theorem exists_waiter {x : Wait α} (hx : x ∈ j.waits) : ∃ w ∈ ws, StandsFor j x w := by
  obtain ⟨i, hi, rfl⟩ := List.mem_iff_getElem.mp hx
  have hlen := h.stands.length_eq
  exact ⟨ws[i], List.getElem_mem _, h.stands.get hi (by omega)⟩

/-- Two waiters are of different processes. -/
theorem waiters_distinct : ws.Pairwise fun v w => v.pid ≠ w.pid := by
  rw [List.pairwise_iff_getElem]
  intro i k hi hk hik
  have hlen := h.stands.length_eq
  have hi' : ws[i].pid = Caller.pid j.waits[i].agent := (h.stands.get (by omega) hi).pid_eq
  have hk' : ws[k].pid = Caller.pid j.waits[k].agent := (h.stands.get (by omega) hk).pid_eq
  rw [hi', hk']
  exact List.pairwise_iff_getElem.mp h.distinct i k (by omega) (by omega) hik

/-- A call that begins no wait: some waits may end, and marks may be made. -/
theorem next {waits : List (Wait α)} {ws' : List CondWaiter} {woken broadcast : ℕ}
    (hwaits : waits.Sublist j.waits)
    (hstands : List.Forall₂ (StandsFor ⟨j.clock + 1, waits, woken, broadcast⟩) waits ws')
    (hwoken : woken ≤ j.clock + 1) (hbroadcast : broadcast ≤ woken) :
    Tracks ⟨j.clock + 1, waits, woken, broadcast⟩ ws' where
  stands := hstands
  distinct := h.distinct.sublist hwaits
  ordered := h.ordered.sublist hwaits
  past x hx := (h.past x (hwaits.subset hx)).trans (Nat.le_succ _)
  woken_le := hwoken
  broadcast_le := hbroadcast

/-- Time alone wakes nobody. -/
theorem tick : Tracks { j with clock := j.clock + 1 } ws :=
  h.next (.refl _) (h.stands.imp fun _ _ hx => ⟨hx.pid_eq, hx.mutex_eq, hx.woken, hx.broadcast⟩)
    (h.woken_le.trans (Nat.le_succ _)) h.broadcast_le

/-- Some waits end, and their waiters go. -/
theorem filter (pid : ℕ) :
    Tracks { j with clock := j.clock + 1, waits := j.waits.filter (Caller.pid ·.agent ≠ pid) }
      (ws.filter (·.pid ≠ pid)) := by
  have hrel := List.rel_filter (R := StandsFor j) (p := fun x => Caller.pid x.agent ≠ pid)
    (q := fun w => w.pid ≠ pid) (fun x w hx => by simp [hx.pid_eq]) h.stands
  exact h.next List.filter_sublist
    (hrel.imp fun _ _ hx => ⟨hx.pid_eq, hx.mutex_eq, hx.woken, hx.broadcast⟩)
    (h.woken_le.trans (Nat.le_succ _)) h.broadcast_le

/-- A wait begins, of a process that has none. -/
theorem begin {a : α} {mutexId : ℕ} (hnone : ∀ x ∈ j.waits, Caller.pid x.agent ≠ Caller.pid a) :
    Tracks { j with
      clock := j.clock + 1, waits := j.waits ++ [⟨a, mutexId, j.clock + 1⟩] }
      (PSharedCond.begin ⟨ws⟩ mutexId (Caller.pid a)).waiters := by
  have hnew : (ws.any (·.pid = Caller.pid a)) = false := by
    rw [List.any_eq_false]
    intro w hw
    obtain ⟨x, hx, hstands⟩ := h.exists_wait hw
    rw [hstands.pid_eq, decide_eq_true_eq]
    exact hnone x hx
  have hle := h.broadcast_le.trans h.woken_le
  rw [PSharedCond.begin, hnew, if_neg Bool.false_ne_true]
  refine ⟨?_, ?_, ?_, fun x hx => ?_, h.woken_le.trans (Nat.le_succ _), h.broadcast_le⟩
  · refine List.rel_append (h.tick.stands.imp fun _ _ hx =>
      ⟨hx.pid_eq, hx.mutex_eq, hx.woken, hx.broadcast⟩) (.cons ⟨rfl, rfl, ?_, ?_⟩ .nil)
    · exact fun hmarked => absurd hmarked (by simp)
    intro hlt
    simp only at hlt
    omega
  · refine List.pairwise_append.mpr ⟨h.distinct, List.pairwise_singleton _ _, ?_⟩
    rintro x hx y hy
    rw [List.mem_singleton.mp hy]
    exact hnone x hx
  · refine List.pairwise_append.mpr ⟨h.ordered, List.pairwise_singleton _ _, ?_⟩
    rintro x hx y hy
    rw [List.mem_singleton.mp hy]
    exact Nat.lt_succ_of_le (h.past x hx)
  rcases List.mem_append.mp hx with hx | hx
  · exact (h.past x hx).trans (Nat.le_succ _)
  · rw [List.mem_singleton.mp hx]

omit h

/-- The oldest waiter that is not marked is marked. -/
theorem markFirst_stands {j : CondLog α} {xs : List (Wait α)} {ws : List CondWaiter}
    (h : List.Forall₂ (StandsFor j) xs ws) (hpast : ∀ x ∈ xs, x.since < j.woken) :
    List.Forall₂ (StandsFor j) xs (markFirst ws).2 := by
  induction h with
  | nil => exact .nil
  | @cons x w xs ws hx _ ih =>
    have hrest := ih fun y hy => hpast y (List.mem_cons_of_mem x hy)
    rw [markFirst]
    split
    · exact .cons hx hrest
    · refine .cons ⟨hx.pid_eq, hx.mutex_eq, fun _ => ?_, fun _ => rfl⟩ ‹_›
      exact hpast x List.mem_cons_self

/-- A signal marks the first who is not marked. -/
theorem signal (h : Tracks j ws) :
    Tracks { j with clock := j.clock + 1, woken := j.clock + 1 } (markFirst ws).2 := by
  have hwoken := h.woken_le.trans (Nat.le_succ _)
  refine h.next (.refl _) (markFirst_stands (h.stands.imp fun x w hx => ⟨hx.pid_eq, hx.mutex_eq,
    fun hmarked => (hx.woken hmarked).trans_le hwoken, hx.broadcast⟩)
    fun x hx => Nat.lt_succ_of_le (h.past x hx)) le_rfl (h.broadcast_le.trans hwoken)

/-- A broadcast marks all. -/
theorem wakeAll (h : Tracks j ws) :
    Tracks { j with clock := j.clock + 1, woken := j.clock + 1, broadcast := j.clock + 1 }
      (ws.map fun w => { w with signaled := true }) := by
  refine h.next (.refl _) ?_ le_rfl le_rfl
  rw [List.forall₂_map_right_iff]
  have hpast : ∀ x ∈ j.waits, x.since < j.clock + 1 := fun x hx => Nat.lt_succ_of_le (h.past x hx)
  exact ((List.forall₂_and_left _ _).mpr ⟨hpast, h.stands⟩).imp fun x w hx =>
    ⟨hx.2.pid_eq, hx.2.mutex_eq, fun _ => hx.1, fun _ => rfl⟩

end Tracks

/-- The waits of the caller's process are the caller's own. -/
def WaitsClear (j : CondLog α) (a : α) : Prop :=
  ∀ x ∈ j.waits, Caller.pid x.agent = Caller.pid a → x.agent = a

/-- A call on a condition variable is not made while another caller of the same process waits on it,
and a wait is not begun while the caller itself does. -/
def CondClear (t : PSharedTable) (condId : ℕ) (j : CondLog α) : PSharedCall α → Prop
  | .condWaitBegin a id _ =>
    id = condId → ∀ x ∈ j.waits, Caller.pid x.agent ≠ Caller.pid a
  | .condWaitCheck a id mutexId =>
    id = condId → t.Wakes id mutexId (Caller.pid a) → WaitsClear j a
  | .condWaitAbort a id => id = condId → WaitsClear j a
  | _ => True

section Step

variable [DecidableEq α] {t : PSharedTable} {condId : ℕ} {j : CondLog α} {call : PSharedCall α}

/-- The waits of the caller are those of its process. -/
theorem WaitsClear.filter_eq {a : α} (h : WaitsClear j a) :
    j.waits.filter (·.agent ≠ a) = j.waits.filter (Caller.pid ·.agent ≠ Caller.pid a) := by
  refine List.filter_congr fun x hx => ?_
  simp only [decide_eq_decide]
  exact not_congr ⟨fun heq => congrArg Caller.pid heq, h x hx⟩

omit [DecidableEq α] in
/-- A check that succeeds wakes. -/
theorem wakes_of_isOk {a : α} {id mutexId : ℕ}
    (hok : (t.call (.condWaitCheck a id mutexId)).1.isOk = true) :
    t.Wakes id mutexId (Caller.pid a) := by
  rw [PSharedTable.call, isOk_zero] at hok
  rcases t.condWaitCheck_cases id mutexId (Caller.pid a) with
    ⟨e, hres⟩ | ⟨c, w, m, hc, hw, hid, hmarked, hm, howner, -⟩
  · rw [hres] at hok
    cases hok
  · exact ⟨c, w, m, hc, hw, hid, hmarked, hm, howner⟩

/-- **One call keeps the agreement.** -/
theorem tracks_call (h : Tracks j (t.waiters condId)) (hclear : CondClear t condId j call) :
    Tracks (recordWaits condId j call (t.call call).1) ((t.call call).2.waiters condId) := by
  have hwake : ∀ {id : ℕ} {ok : Bool} {j' : CondLog α} {f : List CondWaiter → List CondWaiter},
      (ok = false → t.conds.lookup id = none) → f [] = [] → Tracks j' (f (t.waiters condId)) →
      Tracks (if id = condId ∧ ok then j' else { j with clock := j.clock + 1 })
        (if id = condId then f (t.waiters condId) else t.waiters condId) := by
    intro id ok j' f hnone hf hj'
    by_cases hid : id = condId
    · cases ok with
      | true => rwa [if_pos ⟨hid, rfl⟩, if_pos hid]
      | false =>
        rw [if_neg (by simp), if_pos hid]
        rw [← hid, waiters_of_none (hnone rfl)] at h ⊢
        rw [hf]
        exact h.tick
    · rw [if_neg fun hboth => hid hboth.1, if_neg hid]
      exact h.tick
  rw [waiters_call]
  cases call with
  | condInit =>
    simp only [PSharedTable.call, condInit, recordWaits, waitersAfter]
    by_cases hid : t.nextId = condId
    · rw [if_pos hid, if_pos (by rw [hid])]
      exact ⟨.nil, .nil, .nil, fun _ hx => absurd hx List.not_mem_nil, Nat.zero_le _, le_rfl⟩
    · rw [if_neg hid, if_neg fun heq => hid (Nat.cast_inj.mp heq).symm]
      exact h.tick
  | condWaitBegin =>
    simp only [recordWaits, waitersAfter]
    split
    next hbegins => exact h.begin (hclear hbegins.1)
    next => exact h.tick
  | condWaitCheck =>
    simp only [recordWaits, waitersAfter]
    split
    next hends =>
      rw [eraseP_eq_filter h.waiters_distinct,
        (hclear hends.1 (wakes_of_isOk hends.2)).filter_eq]
      exact h.filter _
    next => exact h.tick
  | condWaitAbort =>
    simp only [recordWaits, waitersAfter]
    split
    next hid =>
      rw [(hclear hid).filter_eq]
      exact h.filter _
    next => exact h.tick
  | condSignal id =>
    refine hwake (f := fun ws => (markFirst ws).2) (fun hok => ?_) rfl h.signal
    rcases hc : t.conds.lookup id with _ | c
    · rfl
    · simp [PSharedTable.call, condSignal, hc, Except.map] at hok
  | condBroadcast id =>
    refine hwake (f := List.map _) (fun hok => ?_) rfl h.wakeAll
    rcases hc : t.conds.lookup id with _ | c
    · rfl
    · simp [PSharedTable.call, condBroadcast, hc, Except.map] at hok
  | removeProcess pid => exact h.filter pid
  | _ => exact h.tick

end Step

/-! ### What a call has to respect -/

/-- The wait that began first of those that are not marked gets marked, if there is one. -/
def MarksOldest (j : CondLog α) (ws ws' : List CondWaiter) : Prop :=
  ((∀ w ∈ ws, w.signaled = true) ∧ ws' = ws) ∨
    ∃ before w after, ws = before ++ w :: after ∧ w.signaled = false ∧
      ws' = before ++ { w with signaled := true } :: after ∧
      ∃ x ∈ j.waits, Caller.pid x.agent = w.pid ∧
        ∀ y ∈ j.waits, ∀ v ∈ ws, v.pid = Caller.pid y.agent → v.signaled = false →
          x.since ≤ y.since

/-- **The guarantee.** The waiters are the processes that wait. A wait completes only after a signal
or a broadcast since it began, and its caller then owns the mutex. A signal marks the oldest wait
that is not marked. A mark stays until the wait completes, is given up, or its process is removed.
-/
structure CondGuarantee (t : PSharedTable) (condId : ℕ) (j : CondLog α) (call : PSharedCall α) :
    Prop where
  waiting : ∀ pid, (∃ w ∈ t.waiters condId, w.pid = pid) ↔
    ∃ x ∈ j.waits, Caller.pid x.agent = pid
  completes : ∀ a mutexId, call = .condWaitCheck a condId mutexId → (t.call call).1.isOk = true →
    (∃ x ∈ j.waits, x.agent = a ∧ x.mutex = mutexId ∧ x.since < j.woken) ∧
      (t.call call).2.Owns mutexId (Caller.pid a)
  marks : call = .condSignal condId →
    MarksOldest j (t.waiters condId) ((t.call call).2.waiters condId)
  keeps : ∀ w ∈ t.waiters condId, w.signaled = true → w ∈ (t.call call).2.waiters condId ∨
    (∃ a mutexId, Caller.pid a = w.pid ∧ call = .condWaitCheck a condId mutexId ∧
      (t.call call).1.isOk = true) ∨
    (∃ a, Caller.pid a = w.pid ∧ call = .condWaitAbort a condId) ∨ call = .removeProcess w.pid

/-- Whom a signal marks. -/
theorem markFirst_cases (ws : List CondWaiter) :
    ((∀ w ∈ ws, w.signaled = true) ∧ (markFirst ws).2 = ws) ∨
      ∃ before w after, ws = before ++ w :: after ∧ (∀ v ∈ before, v.signaled = true) ∧
        w.signaled = false ∧
        (markFirst ws).2 = before ++ { w with signaled := true } :: after := by
  induction ws with
  | nil => exact .inl ⟨fun _ hw => absurd hw List.not_mem_nil, rfl⟩
  | cons v ws ih =>
    rw [markFirst]
    cases hv : v.signaled with
    | false =>
      rw [if_neg Bool.false_ne_true]
      exact .inr ⟨[], v, ws, rfl, fun _ h => absurd h List.not_mem_nil, hv, rfl⟩
    | true =>
      rw [if_pos rfl]
      rcases ih with ⟨hall, hsame⟩ | ⟨before, w, after, hws, hbefore, hw, hmarked⟩
      · refine .inl ⟨fun w hw => ?_, by rw [hsame]⟩
        rcases List.mem_cons.mp hw with rfl | hw
        · exact hv
        · exact hall w hw
      refine .inr ⟨v :: before, w, after, by rw [hws]; rfl, fun u hu => ?_, hw,
        by rw [hmarked]; rfl⟩
      rcases List.mem_cons.mp hu with rfl | hu
      · exact hv
      · exact hbefore u hu

variable {j : CondLog α} {ws : List CondWaiter}

/-- **A signal marks the oldest wait.** -/
theorem Tracks.marksOldest (h : Tracks j ws) : MarksOldest j ws (markFirst ws).2 := by
  rcases markFirst_cases ws with hall | ⟨before, w, after, hws, hbefore, hw, hmarked⟩
  · exact .inl hall
  refine .inr ⟨before, w, after, hws, hw, hmarked, ?_⟩
  have hlen := h.stands.length_eq
  have hi : before.length < ws.length := by
    rw [hws, List.length_append, List.length_cons]
    omega
  have hat : ws[before.length] = w := by simp [hws]
  have hpid : ∀ (i : ℕ) (hi : i < ws.length), ws[i].pid = Caller.pid j.waits[i].agent :=
    fun i hi => (h.stands.get (by omega) hi).pid_eq
  refine ⟨j.waits[before.length], List.getElem_mem _, by rw [← hpid _ hi, hat], ?_⟩
  intro y hy v hv hvy hunmarked
  obtain ⟨k, hk, rfl⟩ := List.mem_iff_getElem.mp hy
  obtain ⟨l, hl, rfl⟩ := List.mem_iff_getElem.mp hv
  -- the waiter of the other wait is at the same place, which is not before the one that is marked
  have hkl : k = l := by
    rw [hpid l hl] at hvy
    by_contra hne
    rcases Nat.lt_or_gt_of_ne hne with hlt | hlt
    · exact List.pairwise_iff_getElem.mp h.distinct k l hk (by omega) hlt hvy.symm
    · exact List.pairwise_iff_getElem.mp h.distinct l k (by omega) hk hlt hvy
  have hle : before.length ≤ l := by
    by_contra hlt
    have hmem : ws[l] ∈ before := by
      have hget : ws[l] = before[l] := by simp only [hws]; exact List.getElem_append_left (by omega)
      rw [hget]
      exact List.getElem_mem _
    rw [hbefore _ hmem] at hunmarked
    cases hunmarked
  subst hkl
  rcases Nat.eq_or_lt_of_le hle with heq | hlt
  · simp only [heq]
    exact le_rfl
  · exact (List.pairwise_iff_getElem.mp h.ordered _ _ (by omega) hk hlt).le

/-- A call that makes a new condition variable under the number of this one. -/
def Renews (t : PSharedTable) (condId : ℕ) (call : PSharedCall α) : Prop :=
  call = .condInit ∧ t.nextId = condId

variable {w : CondWaiter}

/-- A mark that is there stays when another one is made. -/
theorem mem_markFirst (hw : w ∈ ws) (hmarked : w.signaled = true) :
    w ∈ (markFirst ws).2 := by
  rcases markFirst_cases ws with ⟨-, hsame⟩ | ⟨before, v, after, hws, -, hv, hres⟩
  · rwa [hsame]
  rw [hres]
  rw [hws] at hw
  rcases List.mem_append.mp hw with hw | hw
  · exact List.mem_append_left _ hw
  rcases List.mem_cons.mp hw with rfl | hw
  · cases hmarked.symm.trans hv
  · exact List.mem_append_right _ (List.mem_cons_of_mem _ hw)

variable {t : PSharedTable} {condId : ℕ} {call : PSharedCall α}

/-- **Marks stay.** -/
theorem mark_stays (hrenews : ¬ Renews t condId call) (hw : w ∈ t.waiters condId)
    (hmarked : w.signaled = true) : w ∈ (t.call call).2.waiters condId ∨
      (∃ a mutexId, Caller.pid a = w.pid ∧ call = .condWaitCheck a condId mutexId ∧
        (t.call call).1.isOk = true) ∨
      (∃ a, Caller.pid a = w.pid ∧ call = .condWaitAbort a condId) ∨
      call = .removeProcess w.pid := by
  rw [waiters_call]
  cases call with
  | condInit =>
    simp only [waitersAfter]
    rw [if_neg fun hid => hrenews ⟨rfl, hid⟩]
    exact .inl hw
  | condWaitBegin =>
    simp only [waitersAfter, PSharedCond.begin]
    split
    · split
      · exact .inl hw
      · exact .inl (List.mem_append_left _ hw)
    · exact .inl hw
  | condWaitCheck a id mutexId =>
    simp only [waitersAfter]
    split
    next hends =>
      by_cases hpid : Caller.pid a = w.pid
      · exact .inr (.inl ⟨a, mutexId, hpid, by rw [hends.1], hends.2⟩)
      · exact .inl ((List.mem_eraseP_of_neg (by simpa using Ne.symm hpid)).mpr hw)
    next => exact .inl hw
  | condWaitAbort a =>
    simp only [waitersAfter]
    split
    next hid =>
      by_cases hpid : Caller.pid a = w.pid
      · exact .inr (.inr (.inl ⟨a, hpid, by rw [hid]⟩))
      · exact .inl (List.mem_filter.mpr ⟨hw, by simpa using Ne.symm hpid⟩)
    next => exact .inl hw
  | condSignal =>
    simp only [waitersAfter]
    split
    · exact .inl (mem_markFirst hw hmarked)
    · exact .inl hw
  | condBroadcast =>
    simp only [waitersAfter]
    split
    · refine .inl (List.mem_map.mpr ⟨w, hw, ?_⟩)
      rw [← hmarked]
    · exact .inl hw
  | removeProcess pid =>
    by_cases hpid : w.pid = pid
    · exact .inr (.inr (.inr (by rw [hpid])))
    · exact .inl (List.mem_filter.mpr ⟨hw, by simpa using hpid⟩)
  | _ => exact .inl hw

/-- **Agreement gives the guarantee.** -/
theorem Tracks.guarantee (h : Tracks j (t.waiters condId)) (hclear : CondClear t condId j call)
    (hrenews : ¬ Renews t condId call) : CondGuarantee t condId j call where
  waiting pid := by
    constructor
    · rintro ⟨w, hw, rfl⟩
      obtain ⟨x, hx, hstands⟩ := h.exists_wait hw
      exact ⟨x, hx, hstands.pid_eq.symm⟩
    rintro ⟨x, hx, rfl⟩
    obtain ⟨w, hw, hstands⟩ := h.exists_waiter hx
    exact ⟨w, hw, hstands.pid_eq⟩
  completes a mutexId hcall hok := by
    subst hcall
    have hwakes := wakes_of_isOk hok
    have hown := hclear rfl hwakes
    obtain ⟨c, w, m, hc, hw, hid, hmarked, -, -⟩ := hwakes
    constructor
    · have hmem : w ∈ t.waiters condId := by
        rw [waiters_of_lookup hc]
        exact List.mem_of_find?_eq_some hw
      have hpid : w.pid = Caller.pid a := by simpa using List.find?_some hw
      obtain ⟨x, hx, hstands⟩ := h.exists_wait hmem
      refine ⟨x, hx, hown x hx (hstands.pid_eq.symm.trans hpid), ?_, hstands.woken hmarked⟩
      rw [← hstands.mutex_eq, hid]
    rw [PSharedTable.call, isOk_zero] at hok
    rcases t.condWaitCheck_cases condId mutexId (Caller.pid a) with
      ⟨e, hres⟩ | ⟨c, w, m, -, -, -, -, -, -, hres⟩
    · rw [hres] at hok
      cases hok
    · rw [PSharedTable.call, zero, hres]
      exact ⟨_, by rw [KeyMap.lookup_insert_eq, if_pos rfl], rfl⟩
  marks hcall := by
    subst hcall
    rw [waiters_call, waitersAfter, if_pos rfl]
    exact h.marksOldest
  keeps w hw hmarked := mark_stays hrenews hw hmarked

/-! ### How many waits complete -/

/-- The number of marked waiters. -/
def PSharedTable.marked (t : PSharedTable) (condId : ℕ) : ℕ :=
  (t.waiters condId).countP (·.signaled)

/-- A check of a wait on a condition variable. -/
def PSharedCall.checks (condId : ℕ) : PSharedCall α → Bool
  | .condWaitCheck _ id _ => id = condId
  | _ => false

def PSharedCall.signals (condId : ℕ) : PSharedCall α → Bool
  | .condSignal id => id = condId
  | _ => false

def PSharedCall.broadcasts (condId : ℕ) : PSharedCall α → Bool
  | .condBroadcast id => id = condId
  | _ => false

/-- How many waits on a condition variable complete in a run. -/
def completions (condId : ℕ) : PSharedTable → List (PSharedCall α) → ℕ
  | _, [] => 0
  | t, call :: rest =>
    (call.checks condId && (t.call call).1.isOk).toNat + completions condId (t.call call).2 rest

/-- It marks at most one. -/
theorem countP_markFirst_le (ws : List CondWaiter) :
    (markFirst ws).2.countP (·.signaled) ≤ ws.countP (·.signaled) + 1 := by
  rcases markFirst_cases ws with ⟨-, hsame⟩ | ⟨before, v, after, hws, -, hv, hres⟩
  · rw [hsame]
    exact Nat.le_succ _
  rw [hres, hws, List.countP_append, List.countP_append, List.countP_cons, List.countP_cons, hv]
  simp
  omega

/-- A marked waiter is taken out. -/
theorem countP_eraseP {pid : ℕ} (hw : ws.find? (·.pid = pid) = some w)
    (hmarked : w.signaled = true) :
    (ws.eraseP (·.pid = pid)).countP (·.signaled) + 1 = ws.countP (·.signaled) := by
  induction ws with
  | nil => cases hw
  | cons v ws ih =>
    by_cases hv : v.pid = pid
    · rw [List.find?_cons_of_pos (by simpa using hv)] at hw
      cases hw
      rw [List.eraseP_cons_of_pos (by simpa using hv), List.countP_cons_of_pos hmarked]
    rw [List.find?_cons_of_neg (by simpa using hv)] at hw
    have hrest := ih hw
    rw [List.eraseP_cons_of_neg (by simpa using hv), List.countP_cons, List.countP_cons]
    omega

/-- **The marks of one call**: a signal makes one at most, and a wait that completes takes one. -/
theorem marked_call_le (t : PSharedTable) (hb : call.broadcasts condId = false) :
    (t.call call).2.marked condId + (call.checks condId && (t.call call).1.isOk).toNat ≤
      t.marked condId + (call.signals condId).toNat := by
  rw [marked, waiters_call, marked]
  cases call with
  | condInit =>
    simp only [waitersAfter, PSharedCall.checks, PSharedCall.signals, Bool.false_and]
    split <;> simp
  | condWaitBegin =>
    simp only [waitersAfter, PSharedCall.checks, PSharedCall.signals, Bool.false_and,
      PSharedCond.begin]
    split
    · split
      · simp
      · simp
    · simp
  | condWaitCheck a id mutexId =>
    simp only [waitersAfter, PSharedCall.checks, PSharedCall.signals]
    by_cases hends : id = condId ∧ (t.call (.condWaitCheck a id mutexId)).1.isOk = true
    · obtain ⟨c, w, m, hc, hw, -, hmarked, -, -⟩ := wakes_of_isOk hends.2
      rw [hends.1] at hc
      rw [if_pos hends, waiters_of_lookup hc, ← countP_eraseP hw hmarked]
      exact (Nat.add_le_add_left (Bool.toNat_le _) _).trans (Nat.le_add_right _ _)
    rw [if_neg hends]
    have hnot : (decide (id = condId) && (t.call (.condWaitCheck a id mutexId)).1.isOk) = false :=
      eq_false_of_ne_true (by simpa using hends)
    simp [hnot]
  | condWaitAbort =>
    simp only [waitersAfter, PSharedCall.checks, PSharedCall.signals, Bool.false_and]
    split
    · simpa using List.filter_sublist.countP_le
    · simp
  | condSignal =>
    simp only [waitersAfter, PSharedCall.checks, PSharedCall.signals, Bool.false_and]
    split
    next hid => simpa [hid] using countP_markFirst_le _
    next => simp
  | condBroadcast =>
    simp only [waitersAfter, PSharedCall.checks, PSharedCall.signals, Bool.false_and]
    rw [if_neg (by simpa [PSharedCall.broadcasts] using hb)]
  | removeProcess =>
    simp only [waitersAfter, PSharedCall.checks, PSharedCall.signals, Bool.false_and]
    simpa using List.filter_sublist.countP_le
  | _ => simp [waitersAfter, PSharedCall.checks, PSharedCall.signals]

/-- **Signals bound the waits that complete**, where there is no broadcast. -/
theorem completions_le (condId : ℕ) (calls : List (PSharedCall α)) (t : PSharedTable)
    (hb : ∀ call ∈ calls, call.broadcasts condId = false) :
    completions condId t calls ≤ t.marked condId + calls.countP (·.signals condId) := by
  induction calls generalizing t with
  | nil => exact Nat.zero_le _
  | cons call rest ih =>
    have hstep := marked_call_le t (hb call List.mem_cons_self)
    have hrest := ih (t.call call).2 fun c hc => hb c (List.mem_cons_of_mem call hc)
    have hcount : (call :: rest).countP (·.signals condId) =
        (call.signals condId).toNat + rest.countP (·.signals condId) := by
      rw [List.countP_cons, add_comm]
      cases call.signals condId <;> rfl
    rw [completions, hcount]
    omega

/-! ### Runs -/

/-- A call, with the observer of a condition variable beside. -/
abbrev condNext [DecidableEq α] (condId : ℕ) :
    PSharedTable × CondLog α → PSharedCall α → PSharedTable × CondLog α :=
  Runs.observed PSharedTable.call (recordWaits condId)

/-- A process does not begin a wait on a condition variable before its last one there is over. -/
def OneAtATime (condId : ℕ) (j : CondLog α) : PSharedCall α → Prop
  | .condWaitBegin a id _ => id = condId → ∀ x ∈ j.waits, x.agent ≠ a
  | _ => True

/-- Where no two callers have the same process, it is enough that each waits once. -/
theorem OneAtATime.condClear (hsole : ∀ a b : α, Caller.pid a = Caller.pid b → a = b)
    (h : OneAtATime condId j call) : CondClear t condId j call := by
  cases call with
  | condWaitBegin => exact fun hid x hx hpid => h hid x hx (hsole _ _ hpid)
  | condWaitCheck => exact fun _ _ x _ hpid => hsole _ _ hpid
  | condWaitAbort => exact fun _ x _ hpid => hsole _ _ hpid
  | _ => trivial

/-- **Shared condition variables.** In every run of processes of one thread each that begins with a
condition variable nobody waits on, in which each process ends a wait on it before it begins
another, and as long as no other is made under its number: every call respects the guarantee, and
where there is no broadcast no more waits complete than were marked before or are signalled. -/
theorem sharedCond_guarantee (condId : ℕ) (t : PSharedTable) (hnew : t.waiters condId = [])
    (calls : List (PSharedCall SoleThread)) (hrun : Runs (condNext condId)
      (fun s call => OneAtATime condId s.2 call ∧ ¬ Renews s.1 condId call) (t, .start) calls) :
    (∀ earlier call later, calls = earlier ++ call :: later →
      CondGuarantee (earlier.foldl (condNext condId) (t, .start)).1 condId
        (earlier.foldl (condNext condId) (t, .start)).2 call) ∧
    ∀ earlier segment later, calls = earlier ++ segment ++ later →
      (∀ call ∈ segment, call.broadcasts condId = false) →
      completions condId (earlier.foldl (condNext condId) (t, .start)).1 segment ≤
        (earlier.foldl (condNext condId) (t, .start)).1.marked condId +
          segment.countP (·.signals condId) := by
  refine ⟨?_, fun earlier segment later _ hb => completions_le condId segment _ hb⟩
  rintro earlier call later rfl
  obtain ⟨htracks, hone, hrenews⟩ := Runs.invariant_at
    (I := fun s : PSharedTable × CondLog SoleThread => Tracks s.2 (s.1.waiters condId)) hrun
    (by rw [hnew]; exact tracks_start)
    fun s c htracks hc => tracks_call htracks (hc.1.condClear SoleThread.eq_of_pid)
  exact htracks.guarantee (hone.condClear SoleThread.eq_of_pid) hrenews

/-- A wait that is signalled. -/
theorem sharedCond_guarantee_signalled :
    let p : SoleThread := ⟨1, by decide⟩
    let t := (([.mutexInit 0, .condInit, .mutexLock p 1] : List (PSharedCall SoleThread)).foldl
      (fun t call => (t.call call).2) new)
    let calls : List (PSharedCall SoleThread) :=
      [.condWaitBegin p 2 1, .condSignal 2, .condWaitCheck p 2 1]
    CondGuarantee ((calls.take 2).foldl (condNext 2) (t, .start)).1 2
      ((calls.take 2).foldl (condNext 2) (t, .start)).2 (.condWaitCheck p 2 1) := by
  intro p t calls
  refine (sharedCond_guarantee 2 t rfl calls ⟨⟨?_, ?_⟩, ⟨trivial, ?_⟩, ⟨trivial, ?_⟩, trivial⟩).1
    (calls.take 2) _ [] rfl
  · exact fun _ x hx => absurd hx List.not_mem_nil
  · exact fun hrenews => absurd hrenews.1 (by simp)
  · exact fun hrenews => absurd hrenews.1 (by simp)
  · exact fun hrenews => absurd hrenews.1 (by simp)

end PosixKernel
