import PosixKernel.Lib.RangeLocks
import PosixKernel.Process
import PosixKernel.SharedLocks

/-!
# Locks, Byte by Byte

Both lock tables keep ranges, the host's shared table and the kernel's own (`lock.rs`, used
for files that the host does not know), and a request drops the caller's ranges that it
overlaps, whole. The bytes that are locked are those that the requests lock one by one as
long as no request cuts an older lock of its owner.

## Main results

* `represents_setLock` — one granted request to the shared table;
* `LockTable.represents_setLock` — one granted request to the kernel's table;
* `locks_bytewise_run` — whole histories of either table.
-/

namespace PosixKernel

/-! ### The shared table -/

/-- Locks as ranges of bytes of a file, with an owner and a type. -/
def lockLayout : Layout LockInfo ℤ (Int32 × Int32 × Int32) where
  lo e := e.start
  hi e := rangeEnd e.start e.len
  val e := (e.pathHash, e.pid, e.lockType)

/-- The bytes of a request. -/
def LockInfo.applyTo (q : LockInfo) (held : HeldBytes Int32 Int32 Int32) :
    HeldBytes Int32 Int32 Int32 :=
  held.request q.pathHash q.pid q.start (rangeEnd q.start q.len)
    (if q.lockType = F_UNLCK then none else some q.lockType)

/-- The bytes after an operation. -/
def LockOp.applyTo (held : HeldBytes Int32 Int32 Int32) : LockOp → HeldBytes Int32 Int32 Int32
  | .setLock q => q.info.applyTo held
  | .setLockWait q => q.info.applyTo held
  | .removeLocksByPid pid => held.release pid

/-- The request has no negative length, and cuts no older lock of its owner. -/
def LockRequest.Whole (q : LockRequest) (t : SharedLockTable) : Prop :=
  0 ≤ q.len.toInt ∧ CutsNone lockLayout t.locks q.pathHash q.pid q.start.toInt
    (rangeEnd q.start.toInt q.len.toInt)

/-- The operation is granted, and cuts no older lock; one that waits found room. -/
def LockOp.Clean (t : SharedLockTable) : LockOp → Prop
  | .setLock q => (t.setLock q).1 = true ∧ q.Whole t
  | .setLockWait q => (t.setLockWait q).isSome = true ∧
      (q.lockType = F_UNLCK ∨
        (t.locks.countP fun e => !e.replacedBy q.info) < t.capacity) ∧ q.Whole t
  | .removeLocksByPid _ => True

instance (q : LockRequest) (t : SharedLockTable) : Decidable (q.Whole t) :=
  inferInstanceAs (Decidable (_ ∧ _))

instance (t : SharedLockTable) (op : LockOp) : Decidable (op.Clean t) := by
  cases op <;> unfold LockOp.Clean <;> infer_instance

theorem replacedBy_iff (e q : LockInfo) : (!e.replacedBy q) = false ↔
      ((lockLayout.val e).1 = q.pathHash ∧ (lockLayout.val e).2.1 = q.pid) ∧
        lockLayout.Meets e q.start (rangeEnd q.start q.len) := by
  simp [LockInfo.replacedBy, rangesOverlap, lockLayout, Layout.Meets, and_assoc]

variable {t : SharedLockTable}

/-- **One request.** A granted request that cuts no older lock changes the caller's bytes in
its range. -/
theorem represents_setLock {q : LockRequest} {held : HeldBytes Int32 Int32 Int32}
    (h : Represents lockLayout t.locks held) (hgranted : (t.setLock q).1 = true)
    (hwhole : q.Whole t) : Represents lockLayout (t.setLock q).2.locks (q.info.applyTo held) := by
  have hattempt := t.attempt_setLock q
  generalize t.setLock q = res at hattempt hgranted ⊢
  have hmem : ∀ e, e ∈ (t.removeReplaced q).locks ↔
      e ∈ t.locks.filter fun e => !e.replacedBy q.info := fun e =>
    (t.locks_removeReplaced_perm q).mem_iff
  have hkeep : ∀ e ∈ t.locks, _ := fun e _ => replacedBy_iff e q.info
  rw [LockInfo.applyTo]
  cases hattempt with
  | blocked => cases hgranted
  | full => cases hgranted
  | unlocked htype =>
    rw [if_pos (show q.info.lockType = F_UNLCK from htype)]
    exact represents_drop h hkeep hwhole.2 hmem
  | locked htype =>
    rw [if_neg (show q.info.lockType ≠ F_UNLCK from htype)]
    refine represents_replace h hkeep hwhole.2 (fun e => ?_) rfl rfl rfl
    rw [SharedLockTable.locks_push, List.mem_append, List.mem_append, hmem]

/-- A request that waits and found room is granted. -/
theorem setLock_of_setLockWait {q : LockRequest} (hreturn : (t.setLockWait q).isSome = true)
    (hroom : q.lockType = F_UNLCK ∨ (t.locks.countP fun e => !e.replacedBy q.info) < t.capacity) :
    (t.setLock q).1 = true ∧ (t.setLockWait q).getD t = (t.setLock q).2 := by
  rw [SharedLockTable.setLockWait] at hreturn ⊢
  split at hreturn
  · cases hreturn
  rename_i hfree
  rw [if_neg hfree]
  refine ⟨?_, rfl⟩
  have hattempt := t.attempt_setLock q
  generalize t.setLock q = res at hattempt ⊢
  cases hattempt with
  | unlocked => rfl
  | locked => rfl
  | blocked h => exact absurd h hfree
  | full htype hfull =>
    rw [SharedLockTable.count_removeReplaced] at hfull
    exact absurd (hroom.resolve_left htype) (not_lt.mpr hfull)

/-- A clean operation changes the bytes it should. -/
theorem represents_perform {held : HeldBytes Int32 Int32 Int32} {op : LockOp}
    (h : Represents lockLayout t.locks held) (hclean : op.Clean t) :
    Represents lockLayout (op.perform t).locks (op.applyTo held) := by
  cases op with
  | setLock => exact represents_setLock h hclean.1 hclean.2
  | setLockWait q =>
    obtain ⟨hreturn, hroom, hwhole⟩ := hclean
    obtain ⟨hgranted, hsame⟩ := setLock_of_setLockWait hreturn hroom
    show Represents lockLayout ((t.setLockWait q).getD t).locks (q.info.applyTo held)
    rw [hsame]
    exact represents_setLock h hgranted hwhole
  | removeLocksByPid pid =>
    intro file owner b lockType
    show lockLayout.Holds (t.removeLocksByPid pid).locks b _ ↔ _ ∧ held file owner b lockType
    rw [← h]
    constructor
    · rintro ⟨e, he, hb, hval⟩
      obtain ⟨he, hpid⟩ := SharedLockTable.mem_removeLocksByPid.mp he
      have howner : e.pid = owner := congrArg (fun v => v.2.1) hval
      exact ⟨howner ▸ hpid, e, he, hb, hval⟩
    rintro ⟨hne, e, he, hb, hval⟩
    have howner : e.pid = owner := congrArg (fun v => v.2.1) hval
    exact ⟨e, SharedLockTable.mem_removeLocksByPid.mpr ⟨he, howner ▸ hne⟩, hb, hval⟩

/-! ### The kernel's own table -/

/-- The end of a range, by the wrapping addition of the kernel. -/
def fileLockEnd (start len : ℤ) : ℤ :=
  if len = 0 then 0x7fffffffffffffff else (start + len).bmod (2 ^ 64)

def FileLock.overlaps (l : FileLock) (start len : ℤ) : Bool :=
  l.start < fileLockEnd start len ∧ start < fileLockEnd l.start l.len

namespace LockTable

def F_RDLCK : UInt32 := 0
def F_WRLCK : UInt32 := 1
def F_UNLCK : UInt32 := 2

/-- Set or release a lock: the owner's overlapping locks go, and the new one is added. -/
def setLock (t : LockTable) (hostHandle : ℤ) (lock : FileLock) : LockTable :=
  let kept := t.filter fun l =>
    ¬ (l.1 = hostHandle ∧ l.2.pid = lock.pid ∧ l.2.overlaps lock.start lock.len)
  if lock.lockType = F_UNLCK then kept else kept ++ [(hostHandle, lock)]

/-- The locks of the kernel's table as ranges of bytes. -/
def layout : Layout (ℤ × FileLock) ℤ (ℤ × ℕ × UInt32) where
  lo l := l.2.start
  hi l := fileLockEnd l.2.start l.2.len
  val l := (l.1, l.2.pid, l.2.lockType)

/-- The bytes after a request. -/
def applyTo (held : HeldBytes ℤ ℕ UInt32) (q : ℤ × FileLock) : HeldBytes ℤ ℕ UInt32 :=
  held.request q.1 q.2.pid q.2.start (rangeEnd q.2.start q.2.len)
    (if q.2.lockType = F_UNLCK then none else some q.2.lockType)

/-- The request is for a range of offsets, and cuts no older lock of its owner. -/
def Clean (t : LockTable) (q : ℤ × FileLock) : Prop :=
  0 ≤ q.2.len ∧ -2 ^ 63 ≤ q.2.start ∧ q.2.start + q.2.len < 2 ^ 63 ∧
    CutsNone layout t q.1 q.2.pid q.2.start (rangeEnd q.2.start q.2.len)

instance (t : LockTable) (q : ℤ × FileLock) : Decidable (Clean t q) :=
  inferInstanceAs (Decidable (_ ∧ _ ∧ _ ∧ _))

theorem fileLockEnd_eq {start len : ℤ} (hlen : 0 ≤ len) (hlo : -2 ^ 63 ≤ start)
    (hhi : start + len < 2 ^ 63) : fileLockEnd start len = rangeEnd start len := by
  rw [fileLockEnd, rangeEnd]
  split
  · rfl
  · rw [Int.bmod_eq_of_le] <;> omega

/-- **One request** to the kernel's table. -/
theorem represents_setLock {t : LockTable} {held : HeldBytes ℤ ℕ UInt32} {q : ℤ × FileLock}
    (h : Represents layout t held) (hclean : t.Clean q) :
    Represents layout (t.setLock q.1 q.2) (applyTo held q) := by
  obtain ⟨hlen, hlo, hhi, hcuts⟩ := hclean
  have hend := fileLockEnd_eq hlen hlo hhi
  have hkeep : ∀ l ∈ t, (decide ¬ (l.1 = q.1 ∧ l.2.pid = q.2.pid ∧
        l.2.overlaps q.2.start q.2.len)) = false ↔
      ((layout.val l).1 = q.1 ∧ (layout.val l).2.1 = q.2.pid) ∧
        layout.Meets l q.2.start (rangeEnd q.2.start q.2.len) := by
    intro l _
    rw [decide_eq_false_iff_not, not_not, FileLock.overlaps, hend]
    simp [layout, Layout.Meets, and_assoc]
  rw [setLock, applyTo]
  split
  · exact represents_drop h hkeep hcuts fun _ => Iff.rfl
  · exact represents_replace h hkeep hcuts (fun _ => Iff.rfl) rfl hend rfl

end LockTable

/-! ### Histories -/

/-- **Locks byte by byte.** After granted requests that cut no older lock of their owner, the
bytes that each table holds are those that the requests lock one by one. -/
theorem locks_bytewise_run (capacity : ℕ) (ops : List LockOp) (requests : List (ℤ × FileLock)) :
    (Runs LockOp.perform LockOp.Clean (.create capacity) ops →
      Represents lockLayout (ops.foldl LockOp.perform (.create capacity)).locks
        (ops.foldl LockOp.applyTo .none)) ∧
    (Runs (fun t q => LockTable.setLock t q.1 q.2) LockTable.Clean [] requests →
      Represents LockTable.layout (requests.foldl (fun t q => LockTable.setLock t q.1 q.2) [])
        (requests.foldl LockTable.applyTo .none)) := by
  have hnone : ∀ {κ ο τ ρ : Type} (L : Layout ρ ℤ (κ × ο × τ)), Represents L [] .none :=
    fun L _ _ _ _ => iff_of_false Layout.holds_nil id
  constructor
  · intro hrun
    exact hrun.simulates (R := fun t held => Represents lockLayout t.locks held)
      (hnone lockLayout) fun _ _ _ h hclean => represents_perform h hclean
  intro hrun
  exact hrun.simulates (R := fun t held => Represents LockTable.layout t held)
    (hnone LockTable.layout) fun _ _ _ h hclean => LockTable.represents_setLock h hclean

/-- Two processes lock bytes of one file, and one of them unlocks what it holds. -/
def twoOwners : List LockOp :=
  [.setLock ⟨7, 2, F_WRLCK, 0, 10⟩, .setLockWait ⟨7, 3, F_RDLCK, 20, 0⟩,
    .setLock ⟨7, 2, F_UNLCK, 0, 15⟩]

/-- A lock in the kernel's table is converted and extended. -/
def conversion : List (ℤ × FileLock) :=
  [(5, ⟨2, LockTable.F_RDLCK, 0, 10⟩), (5, ⟨2, LockTable.F_WRLCK, 0, 20⟩)]

theorem locks_bytewise_two_owners :
    (lockLayout.Holds (twoOwners.foldl LockOp.perform (.create 4)).locks 25 (7, 3, F_RDLCK) ↔
      twoOwners.foldl LockOp.applyTo .none 7 3 25 F_RDLCK) ∧
    (LockTable.layout.Holds (conversion.foldl (fun t q => LockTable.setLock t q.1 q.2) []) 3
        (5, 2, LockTable.F_RDLCK) ↔
      conversion.foldl LockTable.applyTo .none 5 2 3 LockTable.F_RDLCK) :=
  ⟨(locks_bytewise_run 4 twoOwners conversion).1 (by decide) 7 3 25 F_RDLCK,
    (locks_bytewise_run 4 twoOwners conversion).2 (by decide) 5 2 3 LockTable.F_RDLCK⟩

/-- A process locks a hundred bytes and unlocks the first ten. -/
def partialUnlock : List LockOp :=
  [.setLock ⟨7, 2, F_WRLCK, 0, 100⟩, .setLock ⟨7, 2, F_UNLCK, 0, 10⟩]

/-- The same in the kernel's table. -/
def partialUnlock' : List (ℤ × FileLock) :=
  [(5, ⟨2, LockTable.F_WRLCK, 0, 100⟩), (5, ⟨2, LockTable.F_UNLCK, 0, 10⟩)]

/-- Unlocking the first ten of a hundred bytes unlocks them all, in both tables. -/
theorem unlock_drops_whole_lock :
    Runs LockOp.perform (fun t op => ∃ q, op = .setLock q ∧ (t.setLock q).1 = true)
      (.create 4) partialUnlock ∧ (partialUnlock.foldl LockOp.perform (.create 4)).locks = [] ∧
    partialUnlock.foldl LockOp.applyTo .none 7 2 50 F_WRLCK ∧
    partialUnlock'.foldl (fun t q => LockTable.setLock t q.1 q.2) [] = [] ∧
    partialUnlock'.foldl LockTable.applyTo .none 5 2 50 LockTable.F_WRLCK := by
  refine ⟨⟨⟨_, rfl, by decide⟩, ⟨_, rfl, by decide⟩, trivial⟩, by decide, ?_, by decide, ?_⟩
  · exact .inr ⟨by decide, .inl ⟨rfl, rfl, by decide, by decide, rfl⟩⟩
  · exact .inr ⟨by decide, .inl ⟨rfl, rfl, by decide, by decide, rfl⟩⟩

end PosixKernel
