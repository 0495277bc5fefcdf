import PosixKernel.Lib.Ranges
import PosixKernel.Lib.Runs
import PosixKernel.Lib.SwapRemove
import Mathlib.Tactic

/-!
# The Shared Lock Table

The host's table of advisory file locks (`shared-lock-table.ts`): an array of 32-bit cells,
shared by all workers, in which each lock takes eight cells and 64-bit offsets are kept as
two halves. All operations run under one spinlock, so an interleaving of them is a sequence
of whole operations; a waiting request is one attempt after another.

## Main results

* `i64FromParts_i64ToParts` — the halves determine the offset;
* `SharedLockTable.attempt_setLock` — what a request does to the table;
* `sharedLocks_exclusive_run` — locks of different owners exclude each other, and the table
  never overflows;
* `setLock_refused` — a request that is refused leaves the entries as they were;
* `setLockWait_holds_iff` — when a waiting request that returns has its lock.
-/

namespace PosixKernel

def F_RDLCK : Int32 := 0
def F_WRLCK : Int32 := 1
def F_UNLCK : Int32 := 2

/-- The cells of one entry. -/
structure LockCells where
  pathHash : Int32
  pid : Int32
  lockType : Int32
  reserved : Int32
  startLo : Int32
  startHi : Int32
  lenLo : Int32
  lenHi : Int32

/-- A lock, with the offsets as the big integers that the host computes with. -/
structure LockInfo where
  pathHash : Int32
  pid : Int32
  lockType : Int32
  start : ℤ
  len : ℤ
  deriving DecidableEq

/-- A request, with 64-bit offsets. -/
structure LockRequest where
  pathHash : Int32
  pid : Int32
  lockType : Int32
  start : Int64
  len : Int64

/-- The lock that a request asks for. -/
def LockRequest.info (q : LockRequest) : LockInfo :=
  ⟨q.pathHash, q.pid, q.lockType, q.start.toInt, q.len.toInt⟩

/-! ### Entries -/

def i64FromParts (lo hi : Int32) : ℤ := hi.toInt * 2 ^ 32 + lo.toInt % 2 ^ 32

def i64ToParts (val : ℤ) : Int32 × Int32 :=
  (Int32.ofInt (val % 2 ^ 32), Int32.ofInt (val / 2 ^ 32 % 2 ^ 32))

def readEntry (c : LockCells) : LockInfo where
  pathHash := c.pathHash
  pid := c.pid
  lockType := c.lockType
  start := i64FromParts c.startLo c.startHi
  len := i64FromParts c.lenLo c.lenHi

def writeEntry (e : LockInfo) : LockCells where
  pathHash := e.pathHash
  pid := e.pid
  lockType := e.lockType
  reserved := 0
  startLo := (i64ToParts e.start).1
  startHi := (i64ToParts e.start).2
  lenLo := (i64ToParts e.len).1
  lenHi := (i64ToParts e.len).2

/-- The two halves of a 64-bit offset determine it. -/
theorem i64FromParts_i64ToParts {val : ℤ} (hlo : -2 ^ 63 ≤ val) (hhi : val < 2 ^ 63) :
    i64FromParts (i64ToParts val).1 (i64ToParts val).2 = val := by
  have hsize : (Int32.size : ℤ) = 2 ^ 32 := rfl
  rw [i64FromParts, i64ToParts, Int32.toInt_ofInt, Int32.toInt_ofInt]
  simp only [Int.bmod, hsize]
  omega

/-- An entry is read back. -/
theorem readEntry_writeEntry (q : LockRequest) : readEntry (writeEntry q.info) = q.info := by
  have hstart := i64FromParts_i64ToParts q.start.le_toInt q.start.toInt_lt
  have hlen := i64FromParts_i64ToParts q.len.le_toInt q.len.toInt_lt
  rw [readEntry, writeEntry]
  simp [LockRequest.info, hstart, hlen]

/-! ### Ranges -/

/-- Where a range ends; a length of zero means the end of the file. -/
def rangeEnd (start len : ℤ) : ℤ := if len = 0 then 0x7fffffffffffffff else start + len

def rangesOverlap (s₁ l₁ s₂ l₂ : ℤ) : Bool := s₁ < rangeEnd s₂ l₂ ∧ s₂ < rangeEnd s₁ l₁

/-- Whether an entry blocks a request. -/
def LockInfo.conflicts (e : LockInfo) (q : LockInfo) : Bool :=
  if e.pid = q.pid then false
  else if ¬ rangesOverlap e.start e.len q.start q.len then false
  else ¬ (e.lockType = F_RDLCK ∧ q.lockType = F_RDLCK)

/-- Whether an entry is the caller's own, on the same path, and overlaps the request. -/
def LockInfo.replacedBy (e : LockInfo) (q : LockInfo) : Bool :=
  e.pathHash = q.pathHash ∧ e.pid = q.pid ∧ rangesOverlap e.start e.len q.start q.len

/-! ### The table -/

structure SharedLockTable where
  entries : SwapArray LockCells
  capacity : ℕ

namespace SharedLockTable

/-- A new table; the buffer is zeroed. -/
def create (capacity : ℕ) : SharedLockTable := ⟨⟨fun _ => ⟨0, 0, 0, 0, 0, 0, 0, 0⟩, 0⟩, capacity⟩

/-- The locks in the table. -/
def locks (t : SharedLockTable) : List LockInfo := t.entries.toList.map readEntry

def getBlockingLock (t : SharedLockTable) (q : LockRequest) : Option LockInfo :=
  t.locks.find? fun e => e.pathHash = q.pathHash ∧ e.conflicts q.info

/-- Remove the caller's entries that the request overlaps. -/
def removeReplaced (t : SharedLockTable) (q : LockRequest) : SharedLockTable :=
  { t with entries := t.entries.sweep fun c => (readEntry c).replacedBy q.info }

/-- Set or release a lock, and say whether that was possible. -/
def setLock (t : SharedLockTable) (q : LockRequest) : Bool × SharedLockTable :=
  if q.lockType = F_UNLCK then (true, t.removeReplaced q)
  else if (t.getBlockingLock q).isSome then (false, t)
  else
    let t := t.removeReplaced q
    if t.capacity ≤ t.entries.count then (false, t)
    else (true, { t with entries := t.entries.push (writeEntry q.info) })

/-- One attempt of a request that waits: the table it leaves when it returns, and nothing
while it goes on waiting. -/
def setLockWait (t : SharedLockTable) (q : LockRequest) : Option SharedLockTable :=
  if (t.getBlockingLock q).isSome then none else some (t.setLock q).2

/-- Release all locks of an owner. -/
def removeLocksByPid (t : SharedLockTable) (pid : Int32) : SharedLockTable :=
  { t with entries := t.entries.sweep fun c => (readEntry c).pid = pid }

variable {t : SharedLockTable} {q : LockRequest} {e : LockInfo}

/-- There are as many locks as entries. -/
theorem length_locks (t : SharedLockTable) : t.locks.length = t.entries.count := by
  rw [locks, List.length_map, SwapArray.length_toList]

/-- The locks left by a sweep. -/
theorem locks_sweep_perm (p : LockInfo → Bool) (t : SharedLockTable) :
    ({ t with entries := t.entries.sweep fun c => p (readEntry c) } : SharedLockTable).locks.Perm
      (t.locks.filter fun e => !p e) := by
  refine ((SwapArray.sweep_perm _ t.entries).map readEntry).trans ?_
  rw [locks, List.filter_map]
  rfl

/-- What replacing leaves. -/
theorem locks_removeReplaced_perm (t : SharedLockTable) (q : LockRequest) :
    (t.removeReplaced q).locks.Perm (t.locks.filter fun e => !e.replacedBy q.info) :=
  locks_sweep_perm (fun e => e.replacedBy q.info) t

/-- The locks it leaves. -/
theorem mem_removeReplaced :
    e ∈ (t.removeReplaced q).locks ↔ e ∈ t.locks ∧ e.replacedBy q.info = false := by
  rw [(locks_removeReplaced_perm t q).mem_iff, List.mem_filter, Bool.not_eq_true']

/-- The locks of the others stay. -/
theorem mem_removeLocksByPid {pid : Int32} :
    e ∈ (t.removeLocksByPid pid).locks ↔ e ∈ t.locks ∧ e.pid ≠ pid := by
  rw [removeLocksByPid, (locks_sweep_perm (fun e => e.pid = pid) t).mem_iff, List.mem_filter,
    Bool.not_eq_true', decide_eq_false_iff_not]

/-- A new entry is the last lock. -/
theorem locks_push (t : SharedLockTable) (q : LockRequest) :
    ({ t with entries := t.entries.push (writeEntry q.info) } : SharedLockTable).locks =
      t.locks ++ [q.info] := by
  rw [locks, SwapArray.toList_push, List.map_append, List.map_singleton, readEntry_writeEntry]
  rfl

/-- A request is not blocked if no entry of its path conflicts with it. -/
theorem getBlockingLock_isSome_iff : (t.getBlockingLock q).isSome = true ↔
      ∃ e ∈ t.locks, e.pathHash = q.pathHash ∧ e.conflicts q.info = true := by
  rw [getBlockingLock, List.find?_isSome]
  simp

/-- What an attempt can do. -/
inductive Attempt (t : SharedLockTable) (q : LockRequest) : Bool × SharedLockTable → Prop
  | unlocked (htype : q.lockType = F_UNLCK) : Attempt t q (true, t.removeReplaced q)
  | blocked (h : (t.getBlockingLock q).isSome = true) : Attempt t q (false, t)
  | full (htype : q.lockType ≠ F_UNLCK) (hfull : t.capacity ≤ (t.removeReplaced q).entries.count) :
      Attempt t q (false, t.removeReplaced q)
  | locked (htype : q.lockType ≠ F_UNLCK) (hfree : ¬ (t.getBlockingLock q).isSome = true)
      (hroom : (t.removeReplaced q).entries.count < t.capacity) :
      Attempt t q (true, { t.removeReplaced q with
        entries := (t.removeReplaced q).entries.push (writeEntry q.info) })

/-- A request is one of the attempts. -/
theorem attempt_setLock (t : SharedLockTable) (q : LockRequest) : Attempt t q (t.setLock q) := by
  rw [setLock]
  split
  · rename_i htype
    exact .unlocked htype
  rename_i htype
  split
  · rename_i hblocked
    exact .blocked hblocked
  rename_i hfree
  dsimp only
  split
  · rename_i hfull
    exact .full htype hfull
  · rename_i hroom
    exact .locked htype hfree (not_le.mp hroom)

end SharedLockTable

/-! ### Exclusion -/

/-- Overlapping is symmetric. -/
theorem rangesOverlap_comm (s₁ l₁ s₂ l₂ : ℤ) :
    rangesOverlap s₁ l₁ s₂ l₂ = rangesOverlap s₂ l₂ s₁ l₁ := by
  simp [rangesOverlap, and_comm]

/-- An entry does not block a request. -/
theorem LockInfo.conflicts_eq_false {e q : LockInfo} (h : e.conflicts q = false)
    (hpid : e.pid ≠ q.pid) (hoverlap : rangesOverlap e.start e.len q.start q.len = true) :
    e.lockType = F_RDLCK ∧ q.lockType = F_RDLCK := by
  rw [LockInfo.conflicts, if_neg hpid, if_neg (not_not.mpr hoverlap)] at h
  simpa using h

/-- Locks of different owners on one path overlap only if both are read locks. -/
def Exclusive (l : List LockInfo) : Prop :=
  ∀ e ∈ l, ∀ e' ∈ l, e.pathHash = e'.pathHash → e.pid ≠ e'.pid →
    rangesOverlap e.start e.len e'.start e'.len = true →
    e.lockType = F_RDLCK ∧ e'.lockType = F_RDLCK

namespace Exclusive

variable {l m : List LockInfo} {q : LockInfo}

/-- Fewer locks exclude one another too. -/
theorem mono (h : Exclusive l) (hsub : ∀ e ∈ m, e ∈ l) : Exclusive m :=
  fun e he e' he' => h e (hsub e he) e' (hsub e' he')

/-- A lock that no entry blocks can be added. -/
theorem append (h : Exclusive l)
    (hfree : ∀ e ∈ l, e.pathHash = q.pathHash → e.conflicts q = false) : Exclusive (l ++ [q]) := by
  intro e he e' he' hpath hpid hoverlap
  rcases List.mem_append.mp he with hold | hnew
  · rcases List.mem_append.mp he' with hold' | hnew'
    · exact h e hold e' hold' hpath hpid hoverlap
    · obtain rfl := List.mem_singleton.mp hnew'
      exact LockInfo.conflicts_eq_false (hfree e hold hpath) hpid hoverlap
  obtain rfl := List.mem_singleton.mp hnew
  rcases List.mem_append.mp he' with hold' | hnew'
  · rw [rangesOverlap_comm] at hoverlap
    exact (LockInfo.conflicts_eq_false (hfree e' hold' hpath.symm) hpid.symm hoverlap).symm
  · exact absurd (congrArg LockInfo.pid (List.mem_singleton.mp hnew').symm) hpid

end Exclusive

/-- An operation of one of the owners. A request that waits is attempted again and again;
each attempt is an operation. -/
inductive LockOp
  | setLock (q : LockRequest)
  | setLockWait (q : LockRequest)
  | removeLocksByPid (pid : Int32)

/-- The table after an operation. -/
def LockOp.perform (t : SharedLockTable) : LockOp → SharedLockTable
  | .setLock q => (t.setLock q).2
  | .setLockWait q => (t.setLockWait q).getD t
  | .removeLocksByPid pid => t.removeLocksByPid pid

namespace SharedLockTable

/-- The locks exclude each other, and there is room for them. -/
structure Sound (t : SharedLockTable) : Prop where
  exclusive : Exclusive t.locks
  count_le : t.entries.count ≤ t.capacity

variable {t : SharedLockTable}

/-- Replacing keeps a table sound. -/
theorem Sound.removeReplaced (h : t.Sound) (q : LockRequest) : (t.removeReplaced q).Sound :=
  ⟨h.exclusive.mono fun _ he => (mem_removeReplaced.mp he).1,
    (SwapArray.count_sweep_le _ _).trans h.count_le⟩

/-- So does a request. -/
theorem Sound.setLock (h : t.Sound) (q : LockRequest) : (t.setLock q).2.Sound := by
  have hattempt := attempt_setLock t q
  generalize t.setLock q = res at hattempt ⊢
  cases hattempt with
  | unlocked => exact h.removeReplaced q
  | blocked => exact h
  | full => exact h.removeReplaced q
  | locked _ hfree hroom =>
    refine ⟨?_, hroom⟩
    rw [locks_push]
    refine (h.removeReplaced q).exclusive.append fun e he hpath => ?_
    by_contra hconflict
    exact hfree (getBlockingLock_isSome_iff.mpr
      ⟨e, (mem_removeReplaced.mp he).1, hpath, eq_true_of_ne_false hconflict⟩)

/-- So does every operation. -/
theorem Sound.perform (h : t.Sound) (op : LockOp) : (op.perform t).Sound := by
  cases op with
  | setLock q => exact h.setLock q
  | setLockWait q =>
    show ((t.setLockWait q).getD t).Sound
    rw [setLockWait]
    split
    · exact h
    · exact h.setLock q
  | removeLocksByPid =>
    exact ⟨h.exclusive.mono fun _ he => (mem_removeLocksByPid.mp he).1,
      (SwapArray.count_sweep_le _ _).trans h.count_le⟩

end SharedLockTable

/-- And so does a run. -/
theorem sound_run (capacity : ℕ) (ops : List LockOp) :
    (ops.foldl LockOp.perform (.create capacity)).Sound :=
  Runs.invariant (.of_forall fun _ _ => trivial)
    ⟨fun _ he => absurd he List.not_mem_nil, Nat.zero_le _⟩ fun _ op h _ => h.perform op

/-- **Exclusion.** In every state that any operations lead to, no two entries of different
owners on one path overlap unless both are read locks, and the entries fit in the table. -/
theorem sharedLocks_exclusive_run (capacity : ℕ) (ops : List LockOp) :
    let t := ops.foldl LockOp.perform (.create capacity)
    (∀ i < t.entries.count, ∀ j < t.entries.count,
      let e := readEntry (t.entries.rows i)
      let e' := readEntry (t.entries.rows j)
      e.pathHash = e'.pathHash → e.pid ≠ e'.pid →
        rangesOverlap e.start e.len e'.start e'.len = true →
        e.lockType = F_RDLCK ∧ e'.lockType = F_RDLCK) ∧
    t.entries.count ≤ t.capacity := by
  intro t
  have hsound : t.Sound := sound_run capacity ops
  refine ⟨fun i hi j hj => ?_, hsound.count_le⟩
  have hmem : ∀ i < t.entries.count, readEntry (t.entries.rows i) ∈ t.locks := fun i hi =>
    List.mem_map_of_mem (SwapArray.mem_toList.mpr ⟨i, hi, rfl⟩)
  exact hsound.exclusive _ (hmem i hi) _ (hmem j hj)

/-! ### Waiting requests -/

namespace SharedLockTable

variable {t t' : SharedLockTable} {q : LockRequest}

/-- Room for a request: the entries that stay when the caller's overlapping ones go. -/
theorem count_removeReplaced (t : SharedLockTable) (q : LockRequest) :
    (t.removeReplaced q).entries.count = t.locks.countP fun e => !e.replacedBy q.info := by
  rw [← length_locks, (locks_removeReplaced_perm t q).length_eq, List.countP_eq_length_filter]

/-- **Requests that are refused.** Whatever operations led to the table, a request that is refused,
for a conflict or for want of room, leaves the entries as they were: the caller's own entries go
only if that makes room. -/
theorem setLock_refused (capacity : ℕ) (ops : List LockOp) (q : LockRequest) :
    let t := ops.foldl LockOp.perform (.create capacity)
    (t.setLock q).1 = false → (t.setLock q).2.locks.Perm t.locks := by
  intro t hrefused
  have hcount : t.entries.count ≤ t.capacity := (sound_run capacity ops).count_le
  have hattempt := attempt_setLock t q
  generalize t.setLock q = res at hattempt hrefused ⊢
  cases hattempt with
  | unlocked => cases hrefused
  | blocked => exact .refl _
  | full _ hfull =>
    rw [count_removeReplaced] at hfull
    have hall : (t.locks.countP fun e => !e.replacedBy q.info) = t.locks.length :=
      le_antisymm List.countP_le_length (t.length_locks ▸ hcount.trans hfull)
    have hkept := locks_removeReplaced_perm t q
    rwa [List.filter_eq_self.mpr (List.countP_eq_length.mp hall)] at hkept
  | locked => cases hrefused

/-- **Waiting for a lock.** A request for a read or write lock that returns has its lock
exactly if there was room in the table once the caller's overlapping entries were gone, or
the caller had that very entry and it was not among them. -/
theorem setLockWait_holds_iff (htype : q.lockType = F_RDLCK ∨ q.lockType = F_WRLCK)
    (hreturn : t.setLockWait q = some t') : q.info ∈ t'.locks ↔
      (t.locks.countP fun e => !e.replacedBy q.info) < t.capacity ∨
        (q.info ∈ t.locks ∧ q.info.replacedBy q.info = false) := by
  have hlock : q.lockType ≠ F_UNLCK := by
    rintro heq
    rw [heq] at htype
    exact absurd htype (by decide)
  rw [setLockWait] at hreturn
  split at hreturn
  · exact absurd hreturn (by simp)
  rename_i hfree
  cases hreturn
  have hattempt := attempt_setLock t q
  generalize t.setLock q = res at hattempt ⊢
  rw [← count_removeReplaced]
  cases hattempt with
  | unlocked h => exact absurd h hlock
  | blocked h => exact absurd h hfree
  | full _ hfull =>
    rw [or_iff_right (not_lt.mpr hfull)]
    exact mem_removeReplaced
  | locked _ _ hroom =>
    rw [locks_push]
    exact iff_of_true (List.mem_append_right _ (List.mem_singleton.mpr rfl)) (.inl hroom)

/-- A write lock of owner `pid` on ten bytes. -/
def tenBytes (pid : Int32) (start : Int64) : LockRequest := ⟨7, pid, F_WRLCK, start, 10⟩

/-- A second owner is refused what the first one has. -/
theorem setLock_refused_second :
    let t := [LockOp.setLock (tenBytes 2 0)].foldl LockOp.perform (create 1)
    (t.setLock (tenBytes 3 5)).1 = false ∧ (t.setLock (tenBytes 3 5)).2.locks.Perm t.locks :=
  ⟨by decide, setLock_refused 1 _ _ (by decide)⟩

/-- The first lock need not wait. -/
theorem setLockWait_first : ((create 1).setLockWait (tenBytes 2 0)).isSome = true ∧
    ∀ t', (create 1).setLockWait (tenBytes 2 0) = some t' → (tenBytes 2 0).info ∈ t'.locks :=
  ⟨by decide, fun _ h => (setLockWait_holds_iff (.inr rfl) h).mpr (.inl (by decide))⟩

/-- In a full table a request that waits returns without its lock. -/
theorem setLockWait_full :
    let t := ((create 1).setLock (tenBytes 2 0)).2
    ∃ t', t.setLockWait (tenBytes 3 100) = some t' ∧ (tenBytes 3 100).info ∉ t'.locks := by
  refine ⟨_, rfl, ?_⟩
  decide

end SharedLockTable

end PosixKernel
