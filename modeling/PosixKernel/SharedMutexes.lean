import PosixKernel.Lib.Runs
import PosixKernel.PShared

/-!
# Who Holds a Shared Mutex

An observer of all calls and their answers knows how often each caller has locked a mutex and not
unlocked it. The table keeps the process of the owner and a count of 32 bits. The two agree as long
as no mutex is locked more than `2 ^ 32` times in a row, and as long as no two callers of the same
process use one mutex.

## Main definitions

* `recordDepth` — the observer;
* `Agrees` — the observer and the table agree on a mutex;
* `MutexGuarantee` — what a call on a mutex has to respect.

## Main results

* `agrees_call` — one call keeps the agreement;
* `sharedMutex_guarantee` — the guarantee for processes of one thread.
-/

namespace PosixKernel

open PSharedTable

/-! ### The observer -/

section Observer

variable {α : Type} [DecidableEq α]

/-- How often each caller holds each mutex. -/
abbrev Depths (α : Type) := ℕ → α → ℕ

namespace Depths

/-- How often one caller holds one mutex, anew. -/
def put (h : Depths α) (m : ℕ) (a : α) (n : ℕ) : Depths α :=
  Function.update h m (Function.update (h m) a n)

/-- The depths of the mutex that was set. -/
theorem put_same (h : Depths α) (m : ℕ) (a : α) (n : ℕ) :
    h.put m a n m = Function.update (h m) a n := Function.update_self ..

/-- The depths of the others. -/
theorem put_other (h : Depths α) {m m' : ℕ} (hne : m' ≠ m) (a : α) (n : ℕ) :
    h.put m a n m' = h m' := Function.update_of_ne hne ..

end Depths

variable [Caller α]

/-- **The observer of mutexes.** A lock that succeeds counts, and an unlock counts back; a wait on a
condition variable gives the mutex up, whatever it reports but that the caller does not own it, and
comes back with it. A new mutex is held by nobody, and a process that is removed holds nothing. -/
def recordDepth (h : Depths α) (call : PSharedCall α) (r : Except Errno ℤ) : Depths α :=
  match call with
  | .mutexInit _ =>
    match r with
    | .ok id => fun m => if (m : ℤ) = id then fun _ => 0 else h m
    | .error _ => h
  | .mutexLock a m => if r.isOk then h.put m a (h m a + 1) else h
  | .mutexTrylock a m => if r.isOk then h.put m a (h m a + 1) else h
  | .mutexUnlock a m => if r.isOk then h.put m a (h m a - 1) else h
  | .condWaitBegin a _ m =>
    match r with
    | .error .EPERM => h
    | _ => h.put m a 0
  | .condWaitCheck a _ m => if r.isOk then h.put m a 1 else h
  | .removeProcess pid => fun m a => if Caller.pid a = pid then 0 else h m a
  | _ => h

end Observer

variable {α : Type} [Caller α]

/-- No other caller of the same process holds the mutex. -/
def Clear (d : α → ℕ) (a : α) : Prop :=
  ∀ b, 0 < d b → Caller.pid b = Caller.pid a → b = a

/-- **Agreement on one mutex**: nobody holds a mutex that is missing or free, and one caller of the
owner holds the others. -/
inductive Agrees : Option PSharedMutex → (α → ℕ) → Prop
  | missing {d : α → ℕ} (hnone : ∀ a, d a = 0) : Agrees none d
  | free {m : PSharedMutex} {d : α → ℕ} (howner : m.owner = 0) (hnone : ∀ a, d a = 0) :
      Agrees (some m) d
  | owned {m : PSharedMutex} {d : α → ℕ} (a : α) (howner : m.owner = Caller.pid a)
      (hdepth : d a = m.recursiveCount + 1) (hothers : ∀ b, b ≠ a → d b = 0)
      (hplain : m.mtype ≠ MUTEX_TYPE_RECURSIVE → m.recursiveCount = 0) : Agrees (some m) d

namespace Agrees

variable {m : PSharedMutex} {d : α → ℕ} {a : α}

/-- Who holds a mutex owns it, and holds it alone. -/
theorem of_pos [DecidableEq α] {mx : Option PSharedMutex} (h : Agrees mx d) (ha : 0 < d a) :
    ∃ m, mx = some m ∧ m.owner = Caller.pid a ∧ d a = m.recursiveCount + 1 ∧
      (∀ b, b ≠ a → d b = 0) ∧ (m.mtype ≠ MUTEX_TYPE_RECURSIVE → m.recursiveCount = 0) := by
  cases h with
  | missing hnone => exact absurd (hnone a) ha.ne'
  | free _ hnone => exact absurd (hnone a) ha.ne'
  | @owned m _ b howner hdepth hothers hplain =>
    by_cases hab : a = b
    · subst hab
      exact ⟨m, rfl, howner, hdepth, hothers, hplain⟩
    · exact absurd (hothers a hab) ha.ne'

/-- A mutex that the process of a caller owns is held by that caller, where no other caller of the
process holds it. -/
theorem of_owner (h : Agrees (some m) d) (howner : m.owner = Caller.pid a) (hclear : Clear d a) :
    d a = m.recursiveCount + 1 ∧ (∀ b, b ≠ a → d b = 0) ∧
      (m.mtype ≠ MUTEX_TYPE_RECURSIVE → m.recursiveCount = 0) := by
  cases h with
  | free hfree =>
    rw [hfree] at howner
    exact absurd howner (Caller.pid_pos a).ne
  | owned b hb hdepth hothers hplain =>
    obtain rfl : b = a := hclear b (by omega) (hb.symm.trans howner)
    exact ⟨hdepth, hothers, hplain⟩

/-- Nobody is in a free mutex. -/
theorem of_free (h : Agrees (some m) d) (hfree : m.owner = 0) (b : α) : d b = 0 := by
  cases h with
  | free _ hnone => exact hnone b
  | owned a howner =>
    rw [hfree] at howner
    exact absurd howner (Caller.pid_pos a).ne

/-- Whoever may take a mutex is alone in it. -/
theorem others_zero (h : Agrees (some m) d) (howner : m.owner = 0 ∨ m.owner = Caller.pid a)
    (hclear : Clear d a) (b : α) (hb : b ≠ a) : d b = 0 :=
  howner.elim (fun hfree => h.of_free hfree b) fun howner => (h.of_owner howner hclear).2.1 b hb

variable [DecidableEq α]

/-- A mutex that is taken agrees with its new depth. -/
theorem taken (h : Agrees (some m) d) (howner : m.owner = 0 ∨ m.owner = Caller.pid a)
    (hclear : Clear d a) :
    Agrees (some { m with owner := Caller.pid a, recursiveCount := 0 })
      (Function.update d a 1) := by
  refine .owned a rfl (Function.update_self ..) (fun b hb => ?_) fun _ => rfl
  rw [Function.update_of_ne hb]
  exact h.others_zero howner hclear b hb

/-- So does one that is released. -/
theorem released (h : Agrees (some m) d) (howner : m.owner = Caller.pid a) (hclear : Clear d a) :
    Agrees (some m.release) (Function.update d a 0) := by
  refine .free rfl fun b => ?_
  by_cases hb : b = a
  · rw [hb, Function.update_self]
  · rw [Function.update_of_ne hb]
    exact (h.of_owner howner hclear).2.1 b hb

/-- A lock keeps the agreement, unless the count is at its end. -/
theorem trylock (h : Agrees (some m) d)
    (hclear : m.mtype = MUTEX_TYPE_RECURSIVE → Clear d a) (hshallow : d a < 2 ^ 32) :
    Agrees (some (m.trylock (Caller.pid a)).2)
      (if (m.trylock (Caller.pid a)).1.isOk then Function.update d a (d a + 1) else d) := by
  rw [PSharedMutex.trylock]
  by_cases hfree : m.owner = 0
  · have hzero := h.of_free hfree
    simp only [if_pos hfree]
    rw [isOk_ok, if_pos rfl, hzero a]
    refine h.taken (.inl hfree) fun b hb => ?_
    exact absurd (hzero b) hb.ne'
  simp only [if_neg hfree]
  by_cases howner : m.owner = Caller.pid a
  · simp only [if_pos howner]
    by_cases hrec : m.mtype = MUTEX_TYPE_RECURSIVE
    · obtain ⟨hdepth, hothers, -⟩ := h.of_owner howner (hclear hrec)
      simp only [if_pos hrec]
      rw [isOk_ok, if_pos rfl]
      refine .owned a howner ?_ (fun b hb => ?_) fun hplain => absurd hrec hplain
      · rw [Function.update_self]
        simp only
        omega
      · rw [Function.update_of_ne hb]
        exact hothers b hb
    · simp only [if_neg hrec]
      split <;> exact h
  · simp only [if_neg howner]
    exact h

omit [Caller α] [DecidableEq α] in
/-- A mutex whose unlock gives it up was locked once. -/
theorem count_eq_zero (hplain : m.mtype ≠ MUTEX_TYPE_RECURSIVE → m.recursiveCount = 0)
    (hrec : ¬(m.mtype = MUTEX_TYPE_RECURSIVE ∧ 0 < m.recursiveCount)) : m.recursiveCount = 0 := by
  by_contra hcount
  exact hrec ⟨not_not.mp fun htype => hcount (hplain htype), Nat.pos_of_ne_zero hcount⟩

/-- And one that is unlocked. -/
theorem unlock (h : Agrees (some m) d) (hclear : Clear d a) :
    Agrees (some (m.unlock (Caller.pid a)).2)
      (if (m.unlock (Caller.pid a)).1.isOk then Function.update d a (d a - 1) else d) := by
  rw [PSharedMutex.unlock]
  by_cases howner : m.owner = Caller.pid a
  · obtain ⟨hdepth, hothers, hplain⟩ := h.of_owner howner hclear
    rw [if_neg (not_not.mpr howner)]
    by_cases hrec : m.mtype = MUTEX_TYPE_RECURSIVE ∧ 0 < m.recursiveCount
    · rw [if_pos hrec]
      refine .owned a howner ?_ (fun b hb => ?_) fun hplain => absurd hrec.1 hplain
      · rw [isOk_ok, if_pos rfl, Function.update_self]
        simp only
        omega
      · rw [isOk_ok, if_pos rfl, Function.update_of_ne hb]
        exact hothers b hb
    · rw [if_neg hrec, isOk_ok, if_pos rfl, hdepth, count_eq_zero hplain hrec]
      exact h.released howner hclear
  · rwa [if_pos howner]

/-- And one whose owner was removed. -/
theorem removed {mx : Option PSharedMutex} (h : Agrees mx d) (pid : ℕ) :
    Agrees (mx.map fun m => if m.owner = pid then m.release else m)
      (fun a => if Caller.pid a = pid then 0 else d a) := by
  have hzero : ∀ b : α, d b = 0 → (if Caller.pid b = pid then 0 else d b) = 0 := by
    intro b hb
    rw [hb, ite_self]
  cases h with
  | missing hnone => exact .missing fun a => hzero a (hnone a)
  | @free m _ howner hnone =>
    refine .free ?_ fun a => hzero a (hnone a)
    simp only
    split
    · rfl
    · exact howner
  | @owned m _ a howner hdepth hothers hplain =>
    by_cases hpid : m.owner = pid
    · refine .free (by simp only [if_pos hpid]; rfl) fun b => ?_
      by_cases hb : b = a
      · rw [hb, ← howner, if_pos hpid]
      · exact hzero b (hothers b hb)
    rw [Option.map_some, if_neg hpid]
    refine .owned a howner ?_ (fun b hb => hzero b (hothers b hb)) hplain
    rw [← howner, if_neg hpid, hdepth]

end Agrees

/-! ### One call -/

variable {t : PSharedTable} {h : Depths α}

/-- No mutex is locked more often in a row than the count can tell. -/
def Shallow (h : Depths α) : PSharedCall α → Prop
  | .mutexLock a m => h m a < 2 ^ 32
  | .mutexTrylock a m => h m a < 2 ^ 32
  | _ => True

instance (h : Depths α) : DecidablePred (Shallow h) := fun call => by
  cases call <;> unfold Shallow <;> infer_instance

/-- A call that takes a mutex or gives it up is not made while another caller of the same process
holds it. -/
def MutexClear (t : PSharedTable) (h : Depths α) : PSharedCall α → Prop
  | .mutexLock a id | .mutexTrylock a id =>
    ∀ m, t.mutexes.lookup id = some m → m.mtype = MUTEX_TYPE_RECURSIVE → Clear (h id) a
  | .mutexUnlock a id => Clear (h id) a
  | .condWaitBegin a _ id => Clear (h id) a
  | .condWaitCheck a condId id => t.Wakes condId id (Caller.pid a) → Clear (h id) a
  | _ => True

/-- Where no two callers have the same process, none is in the way of another. -/
theorem mutexClear_of_sole (hsole : ∀ a b : α, Caller.pid a = Caller.pid b → a = b)
    (call : PSharedCall α) : MutexClear t h call := by
  have hclear : ∀ (d : α → ℕ) (a : α), Clear d a := fun d a b _ hpid => hsole b a hpid
  cases call with
  | mutexLock | mutexTrylock => exact fun _ _ _ => hclear _ _
  | mutexUnlock | condWaitBegin => exact hclear _ _
  | condWaitCheck => exact fun _ => hclear _ _
  | _ => trivial

/-- The observer and the table agree on all mutexes. -/
def AgreesAll (t : PSharedTable) (h : Depths α) : Prop := ∀ m, Agrees (t.mutexes.lookup m) (h m)

/-- One mutex may change as long as it agrees. -/
theorem AgreesAll.insert (hall : AgreesAll t h) {t' : PSharedTable} {h' : Depths α} {id : ℕ}
    {m : PSharedMutex} (ht : t'.mutexes = t.mutexes.insert id m)
    (hsame : ∀ id' ≠ id, h' id' = h id')
    (hm : Agrees (some m) (h' id)) : AgreesAll t' h' := by
  intro id'
  rw [ht, KeyMap.lookup_insert_eq]
  by_cases hid : id' = id
  · rwa [if_pos hid, hid]
  · rw [if_neg hid, hsame id' hid]
    exact hall id'

variable [DecidableEq α]

variable (hall : AgreesAll t h)

include hall

/-- What is done to one mutex by a caller that then holds it `n` times. -/
theorem AgreesAll.onMutex {a : α} {id n : ℕ}
    {op : PSharedMutex → Except Errno Unit × PSharedMutex} {ok : Bool}
    (hok : (t.onMutex id op).1.isOk = ok)
    (hop : ∀ m, t.mutexes.lookup id = some m → Agrees (some (op m).2)
      (if (op m).1.isOk then Function.update (h id) a n else h id)) :
    AgreesAll (t.onMutex id op).2 (if ok then h.put id a n else h) := by
  subst hok
  rcases hm : t.mutexes.lookup id with _ | m
  · have hmissing : t.onMutex id op = (.error .EINVAL, t) := by rw [PSharedTable.onMutex, hm]
    rwa [hmissing]
  have hfound : t.onMutex id op =
      ((op m).1, { t with mutexes := t.mutexes.insert id (op m).2 }) := by
    rw [PSharedTable.onMutex, hm]
  rw [hfound]
  have hagree := hop m hm
  cases hok : (op m).1.isOk with
  | true =>
    rw [hok, if_pos rfl] at hagree
    rw [if_pos rfl]
    refine hall.insert rfl (fun id' hid => h.put_other hid a n) ?_
    rwa [h.put_same]
  | false =>
    rw [hok, if_neg Bool.false_ne_true] at hagree
    rw [if_neg Bool.false_ne_true]
    exact hall.insert rfl (fun _ _ => rfl) hagree

/-- A wait begins, or not. -/
theorem AgreesAll.waitBegin {a : α} {condId id : ℕ} (hclear : Clear (h id) a) :
    AgreesAll (t.call (.condWaitBegin a condId id)).2
      (recordDepth h (.condWaitBegin a condId id) (t.call (.condWaitBegin a condId id)).1) := by
  have hgives : ∀ {t' : PSharedTable} {m : PSharedMutex}, t.mutexes.lookup id = some m →
      m.owner = Caller.pid a → t'.mutexes = t.mutexes.insert id m.release →
      AgreesAll t' (h.put id a 0) := by
    intro t' m hm howner ht
    refine hall.insert ht (fun id' hid => h.put_other hid a 0) ?_
    rw [h.put_same]
    exact (hm ▸ hall id).released howner hclear
  simp only [PSharedTable.call]
  rcases t.condWaitBegin_cases condId id (Caller.pid a) with
    ⟨hres, hm⟩ | hres | ⟨m, hm, howner, ⟨-, hres⟩ | ⟨c, -, hres⟩⟩
  · rw [hres]
    intro id'
    by_cases hid : id' = id
    · subst hid
      have hzero : ∀ b, h id' b = 0 := by
        have hagree := hall id'
        rw [hm] at hagree
        cases hagree with
        | missing hnone => exact hnone
      show Agrees (t.mutexes.lookup id') (h.put id' a 0 id')
      rw [hm, h.put_same, ← hzero a, Function.update_eq_self]
      exact .missing hzero
    show Agrees (t.mutexes.lookup id') (h.put id a 0 id')
    rw [h.put_other hid]
    exact hall id'
  · rwa [hres]
  · rw [hres]
    exact hgives hm howner rfl
  · rw [hres]
    exact hgives hm howner rfl

/-- A wait is over, or not. -/
theorem AgreesAll.waitCheck {a : α} {condId id : ℕ}
    (hclear : t.Wakes condId id (Caller.pid a) → Clear (h id) a) :
    AgreesAll (t.call (.condWaitCheck a condId id)).2
      (recordDepth h (.condWaitCheck a condId id) (t.call (.condWaitCheck a condId id)).1) := by
  simp only [PSharedTable.call]
  rcases t.condWaitCheck_cases condId id (Caller.pid a) with
    ⟨e, hres⟩ | ⟨c, w, m, hc, hw, hid, hmarked, hm, howner, hres⟩
  · rwa [hres]
  rw [hres]
  refine hall.insert rfl (fun id' hid => h.put_other hid a 1) ?_
  have hagree := (hm ▸ hall id).taken howner (hclear ⟨c, w, m, hc, hw, hid, hmarked, hm, howner⟩)
  rwa [← h.put_same] at hagree

/-- **One call keeps the agreement.** -/
theorem agrees_call {call : PSharedCall α} (hshallow : Shallow h call)
    (hclear : MutexClear t h call) :
    AgreesAll (t.call call).2 (recordDepth h call (t.call call).1) := by
  cases call with
  | mutexInit =>
    refine hall.insert rfl (fun id hid => ?_) (.free rfl fun a => ?_)
    · exact if_neg fun heq => hid (Int.ofNat.inj heq)
    · simp [PSharedTable.call, recordDepth, mutexInit]
  | mutexLock a id =>
    obtain ⟨hsame, hok⟩ := t.mutexLock_eq id (Caller.pid a)
    simp only [PSharedTable.call, recordDepth, isOk_zero, hok]
    show AgreesAll (t.mutexLock id (Caller.pid a)).2 _
    rw [hsame]
    exact hall.onMutex rfl fun m hm => (hm ▸ hall id).trylock (hclear m hm) hshallow
  | mutexTrylock a id =>
    simp only [PSharedTable.call, recordDepth, isOk_zero]
    exact hall.onMutex rfl fun m hm => (hm ▸ hall id).trylock (hclear m hm) hshallow
  | mutexUnlock a id =>
    simp only [PSharedTable.call, recordDepth, isOk_zero]
    exact hall.onMutex rfl fun m hm => (hm ▸ hall id).unlock hclear
  | mutexDestroy id =>
    simp only [PSharedTable.call, recordDepth, PSharedTable.zero, mutexDestroy]
    rcases hm : t.mutexes.lookup id with _ | m
    · exact hall
    by_cases hfree : m.owner = 0
    · simp only [hfree, ne_eq, not_true, if_false]
      intro id'
      rw [KeyMap.lookup_erase_eq]
      split_ifs with hid
      · rw [hid]
        exact .missing ((hm ▸ hall id).of_free hfree)
      · exact hall id'
    · simp only [ne_eq, hfree, not_false_eq_true, if_true]
      exact hall
  | condWaitBegin => exact hall.waitBegin hclear
  | condWaitCheck => exact hall.waitCheck hclear
  | removeProcess pid =>
    intro id
    simp only [PSharedTable.call, recordDepth, cleanupProcess]
    rw [KeyMap.lookup_mapValues]
    exact (hall id).removed pid
  | _ => rwa [AgreesAll, (t.frame_call _).mutexes rfl]

omit hall

/-! ### What a call has to respect -/

namespace PSharedTable

/-- A process owns a mutex. -/
def Owns (t : PSharedTable) (id pid : ℕ) : Prop :=
  ∃ m, t.mutexes.lookup id = some m ∧ m.owner = pid

end PSharedTable

/-- Who wants to take which mutex. -/
def PSharedCall.takes : PSharedCall α → Option (α × ℕ)
  | .mutexLock a id => some (a, id)
  | .mutexTrylock a id => some (a, id)
  | .condWaitCheck a _ id => some (a, id)
  | _ => none

/-- **The guarantee.** Who holds a mutex is its owner. It is taken only where no other holds it.
The owner loses it only by an unlock, by a wait on a condition variable, or by being removed; and an
unlock gives it up exactly if it was locked once. -/
structure MutexGuarantee (t : PSharedTable) (h : Depths α) (call : PSharedCall α) : Prop where
  holds : ∀ a m, 0 < h m a ↔ t.Owns m (Caller.pid a)
  alone : ∀ a m, call.takes = some (a, m) → (t.call call).1.isOk → ∀ b, b ≠ a → h m b = 0
  stays : ∀ a m, t.Owns m (Caller.pid a) →
    (t.call call).2.Owns m (Caller.pid a) ∨ call = .mutexUnlock a m ∨
      (∃ condId, call = .condWaitBegin a condId m) ∨ call = .removeProcess (Caller.pid a)
  unlocks : ∀ a m, call = .mutexUnlock a m → 0 < h m a →
    (t.call call).1 = .ok 0 ∧ ((t.call call).2.Owns m (Caller.pid a) ↔ 1 < h m a)

omit [DecidableEq α] in
/-- A mutex that is taken is free, or is the caller's own. -/
theorem owner_of_takes {call : PSharedCall α} {a : α} {id : ℕ} (htakes : call.takes = some (a, id))
    (hok : (t.call call).1.isOk) :
    ∃ m, t.mutexes.lookup id = some m ∧ (m.owner = 0 ∨ m.owner = Caller.pid a) := by
  have htry : (t.mutexTrylock id (Caller.pid a)).1.isOk →
      ∃ m, t.mutexes.lookup id = some m ∧ (m.owner = 0 ∨ m.owner = Caller.pid a) := by
    intro hok
    rw [mutexTrylock, PSharedTable.onMutex] at hok
    rcases hm : t.mutexes.lookup id with _ | m
    · rw [hm] at hok
      cases hok
    rw [hm] at hok
    refine ⟨m, rfl, ?_⟩
    by_contra hnot
    obtain ⟨hfree, howner⟩ := not_or.mp hnot
    simp only [PSharedMutex.trylock, if_neg hfree, if_neg howner] at hok
    cases hok
  cases call with
  | mutexLock =>
    cases htakes
    rw [PSharedTable.call, isOk_zero, (t.mutexLock_eq _ _).2] at hok
    exact htry hok
  | mutexTrylock =>
    cases htakes
    rw [PSharedTable.call, isOk_zero] at hok
    exact htry hok
  | condWaitCheck b condId id' =>
    obtain ⟨rfl, rfl⟩ := Prod.mk.inj (Option.some.inj htakes)
    rw [PSharedTable.call, isOk_zero] at hok
    rcases t.condWaitCheck_cases condId id' (Caller.pid b) with
      ⟨e, hres⟩ | ⟨c, w, m, -, -, -, -, hm, howner, -⟩
    · rw [hres] at hok
      cases hok
    · exact ⟨m, hm, howner⟩
  | _ => cases htakes

/-- What the observer has of a holder after a call that neither unlocks the mutex, nor waits with
it, nor removes the process, nor makes a new mutex of this number. -/
theorem recordDepth_pos {call : PSharedCall α} {a : α} {id : ℕ} {r : Except Errno ℤ}
    (hpos : 0 < h id a) (hunlock : call ≠ .mutexUnlock a id)
    (hwait : ∀ condId, call ≠ .condWaitBegin a condId id)
    (hremove : call ≠ .removeProcess (Caller.pid a))
    (hnew : ∀ mtype, call = .mutexInit mtype → r ≠ .ok (id : ℤ)) :
    0 < recordDepth h call r id a := by
  have hput : ∀ (b : α) (id' n : ℕ), (b = a → id' = id → 0 < n) → 0 < h.put id' b n id a := by
    intro b id' n hn
    by_cases hid : id = id'
    · rw [← hid, h.put_same]
      by_cases hb : a = b
      · rw [← hb, Function.update_self]
        exact hn hb.symm hid.symm
      · rwa [Function.update_of_ne hb]
    · rwa [h.put_other hid]
  cases call with
  | mutexInit mtype =>
    rcases r with e | new
    · exact hpos
    · show 0 < (if (id : ℤ) = new then fun _ => 0 else h id) a
      rwa [if_neg fun heq => hnew mtype rfl (by rw [heq])]
  | mutexLock b id' | mutexTrylock b id' =>
    simp only [recordDepth]
    split
    · exact hput b id' _ fun _ _ => Nat.succ_pos _
    · exact hpos
  | mutexUnlock b id' =>
    simp only [recordDepth]
    split
    · refine hput b id' _ fun hb hid => ?_
      subst hb hid
      contradiction
    · exact hpos
  | condWaitBegin b condId id' =>
    simp only [recordDepth]
    split
    · exact hpos
    refine hput b id' _ fun hb hid => ?_
    subst hb hid
    exact absurd rfl (hwait condId)
  | condWaitCheck b condId id' =>
    simp only [recordDepth]
    split
    · exact hput b id' _ fun _ _ => Nat.one_pos
    · exact hpos
  | removeProcess pid =>
    show 0 < if Caller.pid a = pid then 0 else h id a
    rwa [if_neg fun heq => hremove (by rw [heq])]
  | _ => exact hpos

/-! ### New numbers -/

/-- After `k` primitives have been made the mutexes have numbers up to `k`, and the next one gets
the number after that, as long as there is one. -/
structure Numbered (t : PSharedTable) (k : ℕ) : Prop where
  le : ∀ id ∈ t.mutexes, id ≤ k
  next : k + 1 < 2 ^ 32 → t.nextId = k + 1

/-- A mutex that is found is in the table. -/
theorem mem_of_lookup {t : PSharedTable} {id : ℕ} {m : PSharedMutex}
    (h : t.mutexes.lookup id = some m) : id ∈ t.mutexes :=
  AList.lookup_isSome.mp (by rw [h]; rfl)

/-- Giving a mutex another value adds none. -/
theorem mem_of_mem_insert {t : PSharedTable} {id k : ℕ} {m m' : PSharedMutex}
    (hm : t.mutexes.lookup k = some m) (h : id ∈ t.mutexes.insert k m') : id ∈ t.mutexes :=
  ((AList.mem_insert _).mp h).elim (fun heq => heq ▸ mem_of_lookup hm) fun h => h

/-- An operation on a mutex makes none. -/
theorem mem_onMutex {t : PSharedTable} {id k : ℕ}
    {op : PSharedMutex → Except Errno Unit × PSharedMutex}
    (h : id ∈ (t.onMutex k op).2.mutexes) : id ∈ t.mutexes := by
  rw [PSharedTable.onMutex] at h
  rcases hm : t.mutexes.lookup k with _ | m <;> rw [hm] at h
  · exact h
  · exact mem_of_mem_insert hm h

omit [DecidableEq α] in
/-- **The numbers after a call**: mutexes keep theirs, and a new one has the next. -/
theorem mem_mutexes_call {t : PSharedTable} {call : PSharedCall α} {id : ℕ}
    (h : id ∈ (t.call call).2.mutexes) :
    id ∈ t.mutexes ∨ id = t.nextId ∧ call.creates = true := by
  cases call with
  | mutexInit => exact ((AList.mem_insert _).mp h).symm.imp_right (⟨·, rfl⟩)
  | mutexLock a k =>
    rw [PSharedTable.call, PSharedTable.zero, (t.mutexLock_eq _ _).1] at h
    exact .inl (mem_onMutex h)
  | mutexTrylock | mutexUnlock => exact .inl (mem_onMutex h)
  | mutexDestroy =>
    simp only [PSharedTable.call, PSharedTable.zero, mutexDestroy] at h
    split at h
    · exact .inl h
    split at h
    · exact .inl h
    · exact .inl (AList.mem_erase.mp h).2
  | condWaitBegin a condId k =>
    simp only [PSharedTable.call, PSharedTable.zero] at h
    rcases t.condWaitBegin_cases condId k (Caller.pid a) with
      ⟨hres, -⟩ | hres | ⟨m, hm, -, ⟨-, hres⟩ | ⟨c, -, hres⟩⟩ <;> rw [hres] at h
    · exact .inl h
    · exact .inl h
    · exact .inl (mem_of_mem_insert hm h)
    · exact .inl (mem_of_mem_insert hm h)
  | condWaitCheck a condId k =>
    simp only [PSharedTable.call, PSharedTable.zero] at h
    rcases t.condWaitCheck_cases condId k (Caller.pid a) with
      ⟨e, hres⟩ | ⟨c, w, m, -, -, -, -, hm, -, hres⟩ <;> rw [hres] at h
    · exact .inl h
    · exact .inl (mem_of_mem_insert hm h)
  | removeProcess =>
    rw [← AList.lookup_isSome] at h ⊢
    exact .inl (by simpa [PSharedTable.call, cleanupProcess, KeyMap.lookup_mapValues] using h)
  | _ => exact .inl (by rwa [(t.frame_call _).mutexes rfl] at h)

/-- How many primitives a call makes. -/
def PSharedCall.made (call : PSharedCall α) : ℕ := if call.creates then 1 else 0

omit [DecidableEq α] in
/-- A call numbers the mutexes it makes beyond those there were. -/
theorem Numbered.call {t : PSharedTable} {k : ℕ} (h : Numbered t k) (call : PSharedCall α)
    (hfew : k + call.made < 2 ^ 32) : Numbered (t.call call).2 (k + call.made) := by
  have hnext := (t.frame_call call).nextId
  rw [PSharedCall.made] at hfew ⊢
  cases hcreates : call.creates with
  | false =>
    rw [hcreates] at hnext
    simp only [Bool.false_eq_true, if_false, add_zero] at hnext ⊢
    refine ⟨fun id hid => h.le id ((mem_mutexes_call hid).resolve_right ?_), ?_⟩
    · simp [hcreates]
    · exact fun hlt => hnext.trans (h.next hlt)
  | true =>
    rw [hcreates] at hnext hfew
    simp only [if_true] at hnext hfew ⊢
    have hold := h.next hfew
    refine ⟨fun id hid => ?_, fun hlt => ?_⟩
    · rcases mem_mutexes_call hid with hid | ⟨rfl, -⟩
      · exact (h.le id hid).trans (Nat.le_succ k)
      · exact hold.le
    · rw [hnext, hold, afterId, Nat.mod_eq_of_lt hlt, if_neg (by omega)]

/-! ### Runs -/

/-- A call, with the observer beside. -/
abbrev mutexNext : PSharedTable × Depths α → PSharedCall α → PSharedTable × Depths α :=
  Runs.observed PSharedTable.call recordDepth

/-- The table and the observer at the start. -/
def mutexStart : PSharedTable × Depths α := (.new, fun _ _ => 0)

/-- So does a run. -/
theorem numbered_run {s : PSharedTable × Depths α} {k : ℕ} (h : Numbered s.1 k)
    (calls : List (PSharedCall α)) (hfew : k + calls.countP (·.creates) < 2 ^ 32) :
    Numbered (calls.foldl mutexNext s).1 (k + calls.countP (·.creates)) := by
  induction calls generalizing s k with
  | nil => exact h
  | cons call rest ih =>
    have hcount : (call :: rest).countP (·.creates) = call.made + rest.countP (·.creates) := by
      rw [List.countP_cons, PSharedCall.made, add_comm]
    rw [hcount, ← add_assoc] at hfew ⊢
    exact ih (h.call call (by omega)) hfew

/-- **Agreement gives the guarantee**, where no two callers have the same process. -/
theorem AgreesAll.guarantee (hall : AgreesAll t h) {call : PSharedCall α}
    (hsole : ∀ a b : α, Caller.pid a = Caller.pid b → a = b) (hshallow : Shallow h call) {k : ℕ}
    (hnumbered : Numbered t k) (hfew : k + call.made < 2 ^ 32) : MutexGuarantee t h call := by
  have hclear : ∀ (d : α → ℕ) (a : α), Clear d a := fun d a b _ hpid => hsole b a hpid
  have hholds : ∀ a m, 0 < h m a ↔ t.Owns m (Caller.pid a) := by
    intro a m
    constructor
    · intro hpos
      obtain ⟨mx, hm, howner, -⟩ := (hall m).of_pos hpos
      exact ⟨mx, hm, howner⟩
    rintro ⟨mx, hm, howner⟩
    have hdepth := ((hm ▸ hall m).of_owner howner (hclear _ a)).1
    omega
  have hafter := agrees_call hall hshallow (mutexClear_of_sole hsole call)
  refine ⟨hholds, fun a m htakes hok b hb => ?_, fun a m howns => ?_, ?_⟩
  · obtain ⟨mx, hm, howner⟩ := owner_of_takes htakes hok
    exact (hm ▸ hall m).others_zero howner (hclear _ a) b hb
  · by_contra hnot
    simp only [not_or, not_exists] at hnot
    obtain ⟨hlost, hunlock, hwait, hremove⟩ := hnot
    have hpos := (hholds a m).mpr howns
    have hpos' : 0 < recordDepth h call (t.call call).1 m a := by
      refine recordDepth_pos hpos hunlock hwait hremove ?_
      rintro mtype rfl hnew
      -- a new mutex would have to have a number that is in use
      have hid : t.nextId = m := Int.ofNat.inj (Except.ok.inj hnew)
      obtain ⟨mx, hm, -⟩ := howns
      have hle := hnumbered.le m (mem_of_lookup hm)
      have hnext := hnumbered.next hfew
      omega
    obtain ⟨mx, hm, howner, -⟩ := (hafter m).of_pos hpos'
    exact hlost ⟨mx, hm, howner⟩
  rintro a m rfl hpos
  obtain ⟨mx, hm, howner, hdepth, -, hplain⟩ := (hall m).of_pos hpos
  simp only [PSharedTable.call, PSharedTable.zero, PSharedTable.mutexUnlock,
    PSharedTable.onMutex, hm, PSharedMutex.unlock, howner, ne_eq, not_true, if_false,
    PSharedTable.Owns, KeyMap.lookup_insert_eq, if_true, Option.some.injEq, exists_eq_left']
  split_ifs with hrec
  · exact ⟨rfl, iff_of_true rfl (by omega)⟩
  have hcount := Agrees.count_eq_zero hplain hrec
  refine ⟨rfl, iff_of_false ?_ (by omega)⟩
  exact (Caller.pid_pos a).ne

/-- The only thread of a process. -/
@[ext]
structure SoleThread where
  pid : ℕ
  pid_pos : 0 < pid

instance : DecidableEq SoleThread := fun _ _ => decidable_of_iff _ SoleThread.ext_iff.symm

instance : Caller SoleThread := ⟨SoleThread.pid, SoleThread.pid_pos⟩

/-- A process of one thread is known by its number. -/
theorem SoleThread.eq_of_pid (a b : SoleThread) (h : Caller.pid a = Caller.pid b) : a = b := by
  cases a
  cases b
  simpa [Caller.pid] using h

/-- **Shared mutexes exclude.** In every run of processes of one thread each, in which fewer than
`2 ^ 32` primitives are made and no mutex is locked more than `2 ^ 32` times in a row, every call
respects the guarantee. -/
theorem sharedMutex_guarantee (calls : List (PSharedCall SoleThread))
    (hfew : calls.countP (·.creates) < 2 ^ 32)
    (hshallow : Runs mutexNext (fun s call => Shallow s.2 call) mutexStart calls)
    (earlier later : List (PSharedCall SoleThread)) (call : PSharedCall SoleThread)
    (hcalls : calls = earlier ++ call :: later) :
    MutexGuarantee (earlier.foldl mutexNext mutexStart).1
      (earlier.foldl mutexNext mutexStart).2 call := by
  subst hcalls
  obtain ⟨hall, hdeep⟩ := Runs.invariant_at
    (I := fun s : PSharedTable × Depths SoleThread => AgreesAll s.1 s.2) hshallow
    (fun _ => .missing fun _ => rfl)
    fun s c hall hdeep => agrees_call hall hdeep (mutexClear_of_sole SoleThread.eq_of_pid c)
  rw [List.countP_append, List.countP_cons] at hfew
  have hnumbered := numbered_run (s := mutexStart) (k := 0)
    ⟨fun id hid => absurd hid (AList.notMem_empty id), fun _ => rfl⟩ earlier
    (by omega)
  refine hall.guarantee SoleThread.eq_of_pid hdeep hnumbered ?_
  rw [PSharedCall.made]
  omega

/-- Two processes want one mutex. -/
theorem sharedMutex_guarantee_contended :
    let calls : List (PSharedCall SoleThread) :=
      [.mutexInit MUTEX_TYPE_RECURSIVE, .mutexLock ⟨1, by decide⟩ 1, .mutexLock ⟨2, by decide⟩ 1]
    MutexGuarantee ((calls.take 2).foldl mutexNext mutexStart).1
      ((calls.take 2).foldl mutexNext mutexStart).2 (.mutexLock ⟨2, by decide⟩ 1) :=
  sharedMutex_guarantee
    [.mutexInit MUTEX_TYPE_RECURSIVE, .mutexLock ⟨1, by decide⟩ 1, .mutexLock ⟨2, by decide⟩ 1]
    (by decide) (by decide) _ [] _ rfl

/-! ### The end of the count -/

/-- A recursive mutex with a count, and how often its owner holds it. -/
structure LockedTimes (s : PSharedTable × Depths α) (a : α) (id c d : ℕ) : Prop where
  mutex : s.1.mutexes.lookup id = some ⟨Caller.pid a, c, MUTEX_TYPE_RECURSIVE⟩
  depth : s.2 id a = d

namespace LockedTimes

variable {s : PSharedTable × Depths α} {a : α} {id c d : ℕ}

/-- What a lock that succeeds does. -/
theorem next_lock {m m' : PSharedMutex} (hmutex : s.1.mutexes.lookup id = some m)
    (hlock : m.trylock (Caller.pid a) = (.ok (), m')) : mutexNext s (.mutexLock a id) =
      ({ s.1 with mutexes := s.1.mutexes.insert id m' }, s.2.put id a (s.2 id a + 1)) := by
  simp [Runs.observed, PSharedTable.call, mutexLock, mutexTrylock,
    PSharedTable.onMutex, hmutex, hlock, PSharedTable.zero, recordDepth, Except.map]

/-- What an unlock that succeeds does. -/
theorem next_unlock {m m' : PSharedMutex} (hmutex : s.1.mutexes.lookup id = some m)
    (hunlock : m.unlock (Caller.pid a) = (.ok (), m')) : mutexNext s (.mutexUnlock a id) =
      ({ s.1 with mutexes := s.1.mutexes.insert id m' }, s.2.put id a (s.2 id a - 1)) := by
  simp [Runs.observed, PSharedTable.call, PSharedTable.mutexUnlock, PSharedTable.onMutex, hmutex,
    hunlock, PSharedTable.zero, recordDepth, Except.map]

/-- The first lock of a recursive mutex. -/
theorem lock_first (hmutex : s.1.mutexes.lookup id = some ⟨0, 0, MUTEX_TYPE_RECURSIVE⟩)
    (hdepth : s.2 id a = 0) : LockedTimes (mutexNext s (.mutexLock a id)) a id 0 1 := by
  rw [next_lock hmutex rfl]
  constructor <;> simp [Depths.put_same, hdepth]

/-- Each further one counts up to what 32 bits hold. -/
theorem lock (hs : LockedTimes s a id c d) :
    LockedTimes (mutexNext s (.mutexLock a id)) a id (min (c + 1) (2 ^ 32 - 1)) (d + 1) := by
  have hpid : Caller.pid a ≠ 0 := (Caller.pid_pos a).ne'
  rw [next_lock hs.mutex (by rw [PSharedMutex.trylock, if_neg hpid, if_pos rfl, if_pos rfl])]
  constructor <;> simp [Depths.put_same, hs.depth]

/-- Each unlock counts down. -/
theorem unlock (hs : LockedTimes s a id (c + 1) d) :
    LockedTimes (mutexNext s (.mutexUnlock a id)) a id c (d - 1) := by
  rw [next_unlock hs.mutex (if_neg (not_not.mpr rfl))]
  constructor <;> simp [Depths.put_same, hs.depth]

/-- Where the count says that it was locked once, an unlock gives the mutex up. -/
theorem unlock_last (hs : LockedTimes s a id 0 d) :
    (mutexNext s (.mutexUnlock a id)).1.mutexes.lookup id = some ⟨0, 0, MUTEX_TYPE_RECURSIVE⟩ ∧
      (mutexNext s (.mutexUnlock a id)).2 id a = d - 1 := by
  rw [next_unlock hs.mutex (if_neg (not_not.mpr rfl))]
  constructor <;> simp [Depths.put_same, hs.depth, PSharedMutex.release]

/-- Many locks after one another. -/
theorem lock_replicate (hs : LockedTimes s a id c d) (hc : c ≤ 2 ^ 32 - 1) (n : ℕ) :
    LockedTimes ((List.replicate n (.mutexLock a id)).foldl mutexNext s) a id
      (min (c + n) (2 ^ 32 - 1)) (d + n) := by
  induction n generalizing s c d with
  | zero =>
    rwa [add_zero, min_eq_left hc]
  | succ n ih =>
    rw [List.replicate_succ, List.foldl_cons]
    have hrest := ih hs.lock (min_le_right _ _)
    rwa [show min (min (c + 1) (2 ^ 32 - 1) + n) (2 ^ 32 - 1) = min (c + (n + 1)) (2 ^ 32 - 1) by
      omega, add_assoc, add_comm 1 n] at hrest

/-- Many unlocks after one another. -/
theorem unlock_replicate (n : ℕ) (hs : LockedTimes s a id (c + n) (d + n)) :
    LockedTimes ((List.replicate n (.mutexUnlock a id)).foldl mutexNext s) a id c d := by
  induction n generalizing s with
  | zero => exact hs
  | succ n ih =>
    rw [List.replicate_succ, List.foldl_cons]
    exact ih hs.unlock

end LockedTimes

/-- A recursive mutex that is locked once more often than the count can tell. -/
theorem released_early {n : ℕ} (hn : n + 1 = 2 ^ 32) (p q : SoleThread)
    {s : PSharedTable × Depths SoleThread} (hs : s = (PSharedCall.mutexInit MUTEX_TYPE_RECURSIVE ::
      (List.replicate (n + 2) (.mutexLock p 1) ++ List.replicate (n + 1) (.mutexUnlock p 1))).foldl
        mutexNext mutexStart) : s.2 1 p = 1 ∧ (s.1.call (.mutexLock q 1)).1 = .ok 0 := by
  have hfirst : LockedTimes (mutexNext (mutexNext mutexStart (.mutexInit MUTEX_TYPE_RECURSIVE))
      (.mutexLock p 1)) p 1 0 1 := LockedTimes.lock_first rfl rfl
  have hlocked := hfirst.lock_replicate (Nat.zero_le _) (n + 1)
  rw [show min (0 + (n + 1)) (2 ^ 32 - 1) = 0 + n by omega,
    show 1 + (n + 1) = 2 + n by omega] at hlocked
  obtain ⟨hmutex, hdepth⟩ := hlocked.unlock_replicate.unlock_last
  rw [List.replicate_succ (n := n + 1),
    List.replicate_succ' (n := n) (a := PSharedCall.mutexUnlock p 1), List.foldl_cons,
    List.cons_append, List.foldl_cons, List.foldl_append, List.foldl_append] at hs
  rw [List.foldl_cons, List.foldl_nil] at hs
  rw [← hs] at hmutex hdepth
  refine ⟨hdepth, ?_⟩
  simp [PSharedTable.call, mutexLock, mutexTrylock,
    PSharedTable.onMutex, hmutex, PSharedMutex.trylock, PSharedTable.zero, Except.map]

/-- A process locks a recursive mutex `2 ^ 32 + 1` times and unlocks it `2 ^ 32` times. It still
holds it, but another process can lock it. -/
theorem sharedMutex_released_early : ∃ (n : ℕ) (s : PSharedTable × Depths SoleThread),
    n = 2 ^ 32 - 1 ∧ s = (PSharedCall.mutexInit MUTEX_TYPE_RECURSIVE ::
      (List.replicate (n + 2) (.mutexLock ⟨1, Nat.one_pos⟩ 1) ++
        List.replicate (n + 1) (.mutexUnlock ⟨1, Nat.one_pos⟩ 1))).foldl mutexNext mutexStart ∧
    s.2 1 ⟨1, Nat.one_pos⟩ = 1 ∧
      (s.1.call (.mutexLock (⟨2, Nat.two_pos⟩ : SoleThread) 1)).1 = .ok 0 :=
  ⟨2 ^ 32 - 1, _, rfl, rfl, released_early (by norm_num) _ _ rfl⟩

end PosixKernel
