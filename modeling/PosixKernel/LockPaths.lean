import PosixKernel.LockBytes

/-!
# Locks on Different Paths

The shared lock table keeps no paths. The host decodes the bytes of a path to a string and
keeps a lock under the 32-bit FNV-1a hash of its UTF-16 code units (`hashPath`); `decode`
stands for the decoder of the platform. Requests on a path look at the entries with its hash
only, but two paths may have the same hash, and all paths share the entries of one table.

## Main results

* `SharedLockTable.setLock_of_hasRoom` — an attempt in a table with room;
* `Unaffected.perform` — requests under one hash and the entries of the others;
* `path_locks_independent_iff` — when the requests on a path do not depend on the locks of
  another one.
-/

open scoped List

namespace PosixKernel

open SharedLockTable

/-! ### The hash of a path -/

/-- The FNV-1a hash of a string, given by its code units. -/
def hashPath (path : List UInt16) : Int32 :=
  (path.foldl (fun hash c => (hash ^^^ c.toUInt32) * 0x01000193) (0x811c9dc5 : UInt32)).toInt32

/-- How the decoder reads bytes below 128. -/
def decodeAscii (path : Bytes) : List UInt16 := path.map UInt8.toUInt16

/-! ### The call of the host -/

def F_GETLK : UInt32 := 12
def F_SETLK : UInt32 := 13
def F_SETLKW : UInt32 := 14

variable (hash : Bytes → Int32)

/-- The request that reaches the shared table. -/
def lockRequest (path : Bytes) (owner lockType : UInt32) (start len : Int64) : LockRequest :=
  ⟨hash path, owner.toInt32, lockType.toInt32, start, len⟩

/-- The host's side of a lock call; nothing while it waits. -/
def hostFcntlLock (t : SharedLockTable) (path : Bytes) (owner cmd lockType : UInt32)
    (start len : Int64) : Option (Except Errno (Option LockInfo) × SharedLockTable) :=
  let q := lockRequest hash path owner lockType start len
  if cmd = F_GETLK then some (.ok (t.getBlockingLock q), t)
  else if cmd = F_SETLK then
    some (if (t.setLock q).1 then .ok none else .error .EAGAIN, (t.setLock q).2)
  else if cmd = F_SETLKW then (t.setLockWait q).map fun t => (.ok none, t)
  else some (.error .EINVAL, t)

variable {hash}

/-! ### A table with room -/

namespace SharedLockTable

variable {t u : SharedLockTable} {q : LockRequest} {e : LockInfo} {h : Int32}

/-- A request that is not refused for another reason finds an entry for its lock. -/
def HasRoom (t : SharedLockTable) (q : LockRequest) : Prop :=
  q.lockType = F_UNLCK ∨ (t.getBlockingLock q).isSome ∨
    (t.locks.countP fun e => !e.replacedBy q.info) < t.capacity

/-- In a table with room an attempt fails only if it is blocked. -/
theorem setLock_of_hasRoom (hroom : t.HasRoom q) :
    t.setLock q =
      if q.lockType = F_UNLCK then (true, t.removeReplaced q)
      else if (t.getBlockingLock q).isSome then (false, t)
      else (true, { t.removeReplaced q with
        entries := (t.removeReplaced q).entries.push (writeEntry q.info) }) := by
  rw [setLock]
  by_cases htype : q.lockType = F_UNLCK
  · rw [if_pos htype, if_pos htype]
  rw [if_neg htype, if_neg htype]
  by_cases hblocked : (t.getBlockingLock q).isSome
  · rw [if_pos hblocked, if_pos hblocked]
  have hfits : (t.removeReplaced q).entries.count < t.capacity := by
    rw [count_removeReplaced]
    exact (hroom.resolve_left htype).resolve_left hblocked
  rw [if_neg hblocked, if_neg hblocked]
  exact if_neg (not_le.mpr hfits)

/-- A new table has room. -/
theorem hasRoom_create {capacity : ℕ} (hcap : 0 < capacity) (q : LockRequest) :
    (create capacity).HasRoom q := .inr (.inr hcap)

/-- The first lock is granted. -/
theorem setLock_create {capacity : ℕ} (hcap : 0 < capacity) (hlock : q.lockType ≠ F_UNLCK) :
    ((create capacity).setLock q).1 = true ∧ ((create capacity).setLock q).2.locks = [q.info] := by
  have hfree : ¬ ((create capacity).getBlockingLock q).isSome = true := Bool.false_ne_true
  rw [setLock_of_hasRoom (hasRoom_create hcap q), if_neg hlock, if_neg hfree]
  refine ⟨rfl, ?_⟩
  rw [locks_push, (locks_removeReplaced_perm (create capacity) q).eq_nil, List.nil_append]

/-- One more reader among readers gets its entry, if there is one left. -/
theorem setLock_reader (hread : q.lockType = F_RDLCK)
    (hlocks : ∀ e ∈ t.locks, e.lockType = F_RDLCK ∧ e.pid ≠ q.pid) :
    (t.setLock q).1 = decide (t.entries.count < t.capacity) ∧
      (t.entries.count < t.capacity → (t.setLock q).2.locks.Perm (t.locks ++ [q.info])) := by
  have hfree : ¬ (t.getBlockingLock q).isSome = true := by
    rw [getBlockingLock_isSome_iff]
    rintro ⟨e, he, -, hconflict⟩
    have hboth : e.lockType = F_RDLCK ∧ q.info.lockType = F_RDLCK := ⟨(hlocks e he).1, hread⟩
    rw [LockInfo.conflicts] at hconflict
    simp [hboth] at hconflict
  have hkept : (t.removeReplaced q).locks.Perm t.locks := by
    refine (locks_removeReplaced_perm t q).trans ?_
    rw [List.filter_eq_self.mpr]
    intro e he
    have hother : e.replacedBy q.info = false := decide_eq_false fun h => (hlocks e he).2 h.2.1
    rw [hother, Bool.not_false]
  have hcount : (t.removeReplaced q).entries.count = t.entries.count := by
    rw [← length_locks, ← length_locks, hkept.length_eq]
  have hattempt := attempt_setLock t q
  generalize t.setLock q = res at hattempt ⊢
  cases hattempt with
  | unlocked htype => cases hread.symm.trans htype
  | blocked hblocked => exact absurd hblocked hfree
  | full _ hfull =>
    have hfull : ¬ t.entries.count < t.capacity := not_lt.mpr (hcount ▸ hfull)
    exact ⟨(decide_eq_false hfull).symm, fun hroom => absurd hroom hfull⟩
  | locked _ _ hroom =>
    refine ⟨(decide_eq_true (hcount ▸ hroom)).symm, fun _ => ?_⟩
    rw [locks_push]
    exact hkept.append_right _

/-- A blocked lock changes nothing. -/
theorem setLock_of_blocked (hlock : q.lockType ≠ F_UNLCK)
    (hblocked : (t.getBlockingLock q).isSome = true) : t.setLock q = (false, t) := by
  rw [setLock, if_neg hlock, if_pos hblocked]

/-- No request changes the capacity. -/
theorem capacity_setLock (t : SharedLockTable) (q : LockRequest) :
    (t.setLock q).2.capacity = t.capacity := by
  have hattempt := attempt_setLock t q
  generalize t.setLock q = res at hattempt ⊢
  cases hattempt <;> rfl

/-! ### The entries of other paths -/

/-- The locks under other hashes. -/
def others (h : Int32) (t : SharedLockTable) : List LockInfo :=
  t.locks.filter fun e => e.pathHash ≠ h

/-- The entries of the other paths. -/
theorem mem_others : e ∈ t.others h ↔ e ∈ t.locks ∧ e.pathHash ≠ h := by
  rw [others, List.mem_filter, decide_eq_true_eq]

/-- What replacing leaves of them. -/
theorem others_removeReplaced_perm (t : SharedLockTable) (q : LockRequest) (h : Int32) :
    ((t.removeReplaced q).others h).Perm ((t.others h).filter fun e => !e.replacedBy q.info) := by
  refine ((locks_removeReplaced_perm t q).filter _).trans ?_
  rw [others, List.filter_filter, List.filter_filter]
  simp only [Bool.and_comm]
  exact List.Perm.refl _

/-- A new entry among them. -/
theorem others_push (t : SharedLockTable) (q : LockRequest) (h : Int32) :
    ({ t with entries := t.entries.push (writeEntry q.info) } : SharedLockTable).others h =
      t.others h ++ if q.pathHash ≠ h then [q.info] else [] := by
  rw [others, locks_push, List.filter_append, others]
  have hinfo : q.info.pathHash = q.pathHash := rfl
  split_ifs with hq
  · rw [List.filter_cons_of_pos (by simpa [hinfo] using hq), List.filter_nil]
  · rw [List.filter_cons_of_neg (by simpa [hinfo] using hq), List.filter_nil]

/-- A request replaces no entry of another path. -/
theorem others_removeReplaced_self (t : SharedLockTable) (q : LockRequest) :
    ((t.removeReplaced q).others q.pathHash).Perm (t.others q.pathHash) := by
  refine (others_removeReplaced_perm t q q.pathHash).trans ?_
  rw [List.filter_eq_self.mpr]
  intro e he
  have hne : e.pathHash ≠ q.pathHash := (mem_others.mp he).2
  have hkept : e.replacedBy q.info = false :=
    decide_eq_false fun hsame => hne hsame.1
  rw [hkept, Bool.not_false]

/-- A request leaves the entries of the other paths. -/
theorem others_setLock_self (t : SharedLockTable) (q : LockRequest) :
    ((t.setLock q).2.others q.pathHash).Perm (t.others q.pathHash) := by
  have hattempt := attempt_setLock t q
  generalize t.setLock q = res at hattempt ⊢
  cases hattempt with
  | unlocked => exact others_removeReplaced_self t q
  | blocked => exact .refl _
  | full => exact others_removeReplaced_self t q
  | locked =>
    rw [others_push, if_neg (not_not.mpr rfl), List.append_nil]
    exact others_removeReplaced_self t q

/-! ### Tables that differ in one hash -/

/-- Two tables hold the same locks, except under one hash. -/
def Unaffected (h : Int32) (t u : SharedLockTable) : Prop := (t.others h).Perm (u.others h)

namespace Unaffected

variable (hR : Unaffected h t u)

include hR

/-- Being unaffected goes both ways. -/
theorem symm : Unaffected h u t := List.Perm.symm hR

/-- Requests under other hashes are blocked in both or in neither. -/
theorem blocked_iff (hq : q.pathHash ≠ h) :
    (t.getBlockingLock q).isSome = true ↔ (u.getBlockingLock q).isSome = true := by
  have himp : ∀ {t u : SharedLockTable}, Unaffected h t u →
      (t.getBlockingLock q).isSome = true → (u.getBlockingLock q).isSome = true := by
    intro t u hR hblocked
    obtain ⟨e, he, hpath, hconflict⟩ := getBlockingLock_isSome_iff.mp hblocked
    have hother : e ∈ u.others h := hR.subset (mem_others.mpr ⟨he, hpath ▸ hq⟩)
    exact getBlockingLock_isSome_iff.mpr ⟨e, (mem_others.mp hother).1, hpath, hconflict⟩
  exact ⟨himp hR, himp hR.symm⟩

/-- Replacing leaves a path unaffected. -/
theorem removeReplaced (q : LockRequest) : Unaffected h (t.removeReplaced q) (u.removeReplaced q) :=
  calc (t.removeReplaced q).others h
    _ ~ (t.others h).filter fun e => !e.replacedBy q.info := others_removeReplaced_perm t q h
    _ ~ (u.others h).filter fun e => !e.replacedBy q.info := hR.filter _
    _ ~ (u.removeReplaced q).others h := (others_removeReplaced_perm u q h).symm

/-- So does the same new entry. -/
theorem push (q : LockRequest) :
    Unaffected h { t with entries := t.entries.push (writeEntry q.info) }
      { u with entries := u.entries.push (writeEntry q.info) } := by
  rw [Unaffected, others_push, others_push]
  exact hR.append_right _

/-- An attempt under another hash does the same to both tables, if both have room. -/
theorem setLock (hq : q.pathHash ≠ h) (ht : t.HasRoom q) (hu : u.HasRoom q) :
    (t.setLock q).1 = (u.setLock q).1 ∧ Unaffected h (t.setLock q).2 (u.setLock q).2 := by
  rw [setLock_of_hasRoom ht, setLock_of_hasRoom hu]
  by_cases htype : q.lockType = F_UNLCK
  · rw [if_pos htype, if_pos htype]
    exact ⟨rfl, hR.removeReplaced q⟩
  rw [if_neg htype, if_neg htype]
  by_cases hblocked : (t.getBlockingLock q).isSome
  · rw [if_pos hblocked, if_pos ((hR.blocked_iff hq).mp hblocked)]
    exact ⟨rfl, hR⟩
  · rw [if_neg hblocked, if_neg fun hu => hblocked ((hR.blocked_iff hq).mpr hu)]
    exact ⟨rfl, (hR.removeReplaced q).push q⟩

/-- An attempt under the hash itself does not matter. -/
theorem setLock_left (hq : q.pathHash = h) : Unaffected h (t.setLock q).2 u := by
  subst hq
  exact (others_setLock_self t q).trans hR

/-- The end of an owner is the same in both. -/
theorem removeLocksByPid (pid : Int32) :
    Unaffected h (t.removeLocksByPid pid) (u.removeLocksByPid pid) := by
  have hothers : ∀ t : SharedLockTable,
      ((t.removeLocksByPid pid).others h).Perm ((t.others h).filter fun e => !(e.pid = pid)) := by
    intro t
    refine ((locks_sweep_perm (fun e => e.pid = pid) t).filter _).trans ?_
    rw [others, List.filter_filter, List.filter_filter]
    simp only [Bool.and_comm]
    exact List.Perm.refl _
  exact (hothers t).trans ((List.Perm.filter _ hR).trans (hothers u).symm)

omit hR

end Unaffected

end SharedLockTable

/-! ### Calls -/

/-- A lock call that reaches the host. -/
structure LockCall where
  path : Bytes
  owner : UInt32
  cmd : UInt32
  lockType : UInt32
  start : Int64
  len : Int64
  deriving DecidableEq

/-- What reaches the table: calls, and the ends of owners. -/
inductive HostLockOp
  | call (c : LockCall)
  | removeLocksByPid (pid : Int32)
  deriving DecidableEq

section

variable (hash : Bytes → Int32)

/-- The request of a call. -/
def LockCall.request (c : LockCall) : LockRequest :=
  lockRequest hash c.path c.owner c.lockType c.start c.len

/-- The host's answer to a call, and the table after it. -/
def LockCall.answer (t : SharedLockTable) (c : LockCall) :
    Option (Except Errno (Option LockInfo) × SharedLockTable) :=
  hostFcntlLock hash t c.path c.owner c.cmd c.lockType c.start c.len

/-- Whether a call gets what it asks for: the lock, its release, or for a test the answer
that nothing blocks the lock. -/
def LockCall.granted (t : SharedLockTable) (c : LockCall) : Bool :=
  match c.answer hash t with
  | some (.ok none, _) => true
  | _ => false

/-- The table after an operation. -/
def HostLockOp.perform (t : SharedLockTable) : HostLockOp → SharedLockTable
  | .call c => ((c.answer hash t).map Prod.snd).getD t
  | .removeLocksByPid pid => t.removeLocksByPid pid

/-- A call for a lock finds an entry for it. -/
def HostLockOp.HasRoom (t : SharedLockTable) : HostLockOp → Prop
  | .call c => c.cmd = F_SETLK ∨ c.cmd = F_SETLKW → t.HasRoom (c.request hash)
  | .removeLocksByPid _ => True

/-- Whether an operation is a call on a path. -/
def HostLockOp.isOn (path : Bytes) : HostLockOp → Bool
  | .call c => c.path = path
  | .removeLocksByPid _ => false

variable {hash} {t u : SharedLockTable} {c : LockCall} {h : Int32}

/-- What each command answers. -/
theorem LockCall.answer_eq (t : SharedLockTable) (c : LockCall) :
    c.answer hash t =
      if c.cmd = F_GETLK then some (.ok (t.getBlockingLock (c.request hash)), t)
      else if c.cmd = F_SETLK then
        some (if (t.setLock (c.request hash)).1 then .ok none else .error .EAGAIN,
          (t.setLock (c.request hash)).2)
      else if c.cmd = F_SETLKW then
        (t.setLockWait (c.request hash)).map fun t => (.ok none, t)
      else some (.error .EINVAL, t) := rfl

/-- The answer to a call depends on what blocks it and on how an attempt ends. -/
theorem LockCall.granted_eq (t : SharedLockTable) (c : LockCall) : c.granted hash t =
      if c.cmd = F_GETLK then !(t.getBlockingLock (c.request hash)).isSome
      else if c.cmd = F_SETLK then (t.setLock (c.request hash)).1
      else if c.cmd = F_SETLKW then !(t.getBlockingLock (c.request hash)).isSome else false := by
  rw [granted, answer_eq]
  by_cases hget : c.cmd = F_GETLK
  · rw [if_pos hget, if_pos hget]
    cases t.getBlockingLock (c.request hash) <;> rfl
  rw [if_neg hget, if_neg hget]
  by_cases hset : c.cmd = F_SETLK
  · rw [if_pos hset, if_pos hset]
    cases (t.setLock (c.request hash)).1 <;> rfl
  rw [if_neg hset, if_neg hset]
  by_cases hwait : c.cmd = F_SETLKW
  · rw [if_pos hwait, if_pos hwait, setLockWait]
    cases (t.getBlockingLock (c.request hash)).isSome <;> rfl
  · rw [if_neg hwait, if_neg hwait]

/-- The table after a call: a call that may set a lock makes an attempt, unless it waits. -/
theorem perform_call (t : SharedLockTable) (c : LockCall) : HostLockOp.perform hash t (.call c) =
      if c.cmd = F_SETLK ∨
          (c.cmd = F_SETLKW ∧ ¬ (t.getBlockingLock (c.request hash)).isSome = true) then
        (t.setLock (c.request hash)).2 else t := by
  rw [HostLockOp.perform, LockCall.answer_eq]
  by_cases hget : c.cmd = F_GETLK
  · have hset : c.cmd ≠ F_SETLK := by rw [hget]; decide
    have hwait : c.cmd ≠ F_SETLKW := by rw [hget]; decide
    rw [if_pos hget, if_neg (not_or.mpr ⟨hset, fun h => hwait h.1⟩)]
    rfl
  rw [if_neg hget]
  by_cases hset : c.cmd = F_SETLK
  · simp only [hset, true_or, if_true]
    rfl
  rw [if_neg hset]
  by_cases hwait : c.cmd = F_SETLKW
  · rw [if_pos hwait, setLockWait]
    by_cases hblocked : (t.getBlockingLock (c.request hash)).isSome = true
    · rw [if_pos hblocked, if_neg (not_or.mpr ⟨hset, fun h => h.2 hblocked⟩)]
      rfl
    · rw [if_neg hblocked, if_pos (.inr ⟨hwait, hblocked⟩)]
      rfl
  · rw [if_neg hwait, if_neg (not_or.mpr ⟨hset, fun h => hwait h.1⟩)]
    rfl

/-- A call under another hash has the same answer in both tables and leaves them alike. -/
theorem SharedLockTable.Unaffected.call (hR : Unaffected h t u) (hc : hash c.path ≠ h)
    (ht : HostLockOp.HasRoom hash t (.call c)) (hu : HostLockOp.HasRoom hash u (.call c)) :
    c.granted hash t = c.granted hash u ∧
      Unaffected h (HostLockOp.perform hash t (.call c)) (HostLockOp.perform hash u (.call c)) := by
  have hblocked : (t.getBlockingLock (c.request hash)).isSome =
      (u.getBlockingLock (c.request hash)).isSome := Bool.eq_iff_iff.mpr (hR.blocked_iff hc)
  have hset : c.cmd = F_SETLK ∨ c.cmd = F_SETLKW →
      (t.setLock (c.request hash)).1 = (u.setLock (c.request hash)).1 ∧
        Unaffected h (t.setLock (c.request hash)).2 (u.setLock (c.request hash)).2 :=
    fun hcmd => hR.setLock hc (ht hcmd) (hu hcmd)
  constructor
  · rw [LockCall.granted_eq, LockCall.granted_eq, hblocked]
    by_cases hcmd : c.cmd = F_SETLK
    · rw [(hset (.inl hcmd)).1]
    · rw [if_neg hcmd, if_neg hcmd]
  rw [perform_call, perform_call, hblocked]
  split
  · rename_i hcmd
    exact (hset (hcmd.imp_right And.left)).2
  · exact hR

/-- A call under the hash itself does not matter. -/
theorem SharedLockTable.Unaffected.call_left (hR : Unaffected h t u) (hc : hash c.path = h) :
    Unaffected h (HostLockOp.perform hash t (.call c)) u := by
  rw [perform_call]
  split
  · exact hR.setLock_left hc
  · exact hR

/-- **Every operation.** Two tables that are alike except under one hash stay so, whatever
is done to both. -/
theorem SharedLockTable.Unaffected.perform (hR : Unaffected h t u) (op : HostLockOp)
    (ht : op.HasRoom hash t) (hu : op.HasRoom hash u) :
    Unaffected h (op.perform hash t) (op.perform hash u) := by
  cases op with
  | removeLocksByPid pid => exact hR.removeLocksByPid pid
  | call c =>
    by_cases hc : hash c.path = h
    · exact ((hR.call_left hc).symm.call_left hc).symm
    · exact (hR.call hc ht hu).2

/-! ### Independence -/

variable (decode : Bytes → List UInt16)

/-- The hash under which the host keeps the locks of a path. -/
def hostHash (path : Bytes) : Int32 := hashPath (decode path)

/-- The host's table after a history. -/
def hostLocks (history : List HostLockOp) : SharedLockTable :=
  history.foldl (HostLockOp.perform (hostHash decode)) (.create 256)

/-- A call at the end of a history of which every operation is admitted. -/
def CallAfter (admitted : SharedLockTable → HostLockOp → Prop) (history : List HostLockOp)
    (c : LockCall) : Prop :=
  Runs (HostLockOp.perform (hostHash decode)) admitted (.create 256) (history ++ [.call c])

/-- A path does not depend on another one: after any two histories that differ in the calls
on the other path only, a call on the path is granted in both or in neither. -/
def Independent (admitted : SharedLockTable → HostLockOp → Prop) (path other : Bytes) : Prop :=
  ∀ (history history' : List HostLockOp) (c : LockCall), c.path = path →
    history.filter (fun op => !op.isOn other) = history'.filter (fun op => !op.isOn other) →
    CallAfter decode admitted history c → CallAfter decode admitted history' c →
    c.granted (hostHash decode) (hostLocks decode history) =
      c.granted (hostHash decode) (hostLocks decode history')

variable {decode} {path other : Bytes}

/-- Paths with different hashes do not depend on each other, while there is room. -/
theorem independent_of_hash_ne (hne : hostHash decode path ≠ hostHash decode other) :
    Independent decode (HostLockOp.HasRoom (hostHash decode)) path other := by
  rintro history history' c rfl hsame hrun hrun'
  obtain ⟨hrun, hroom⟩ := Runs.concat_iff.mp hrun
  obtain ⟨hrun', hroom'⟩ := Runs.concat_iff.mp hrun'
  have hidden : ∀ t u op, (!HostLockOp.isOn other op) = false →
      SharedLockTable.Unaffected (hostHash decode other) t u →
      SharedLockTable.Unaffected (hostHash decode other) (op.perform (hostHash decode) t) u := by
    intro t u op hop hR
    cases op with
    | removeLocksByPid => cases hop
    | call c =>
      have hpath : c.path = other := by simpa [HostLockOp.isOn] using hop
      exact hR.call_left (congrArg (hostHash decode) hpath)
  have hR : SharedLockTable.Unaffected (hostHash decode other) (hostLocks decode history)
      (hostLocks decode history') :=
    hrun.unwinding hrun' hsame (List.Perm.refl _)
      (fun t u op hop hR _ => hidden t u op hop hR)
      (fun t u op hop hR _ => (hidden u t op hop hR.symm).symm)
      (fun t u op _ hR ht hu => hR.perform op ht hu)
  exact (hR.call hne hroom hroom').1

/-- A call for a lock on a whole file. -/
def wholeLock (path : Bytes) (owner lockType : UInt32) : LockCall :=
  ⟨path, owner, F_SETLK, lockType, 0, 0⟩

/-- A whole-file lock is granted when the table grants it. -/
theorem granted_wholeLock (hash : Bytes → Int32) (t : SharedLockTable) (path : Bytes)
    (owner lockType : UInt32) : (wholeLock path owner lockType).granted hash t =
      (t.setLock ((wholeLock path owner lockType).request hash)).1 :=
  LockCall.granted_eq t _

/-- And then it is in the table. -/
theorem perform_wholeLock (hash : Bytes → Int32) (t : SharedLockTable) (path : Bytes)
    (owner lockType : UInt32) : HostLockOp.perform hash t (.call (wholeLock path owner lockType)) =
      (t.setLock ((wholeLock path owner lockType).request hash)).2 :=
  perform_call t _

/-- Write locks of two owners on a whole file conflict. -/
theorem conflicts_writers (h h' : Int32) :
    (LockRequest.info ⟨h, UInt32.toInt32 1, F_WRLCK, 0, 0⟩).conflicts
      (LockRequest.info ⟨h', UInt32.toInt32 2, F_WRLCK, 0, 0⟩) = true := by
  have hpid : UInt32.toInt32 1 ≠ UInt32.toInt32 2 := by decide
  have hoverlap : rangesOverlap (Int64.toInt 0) (Int64.toInt 0) (Int64.toInt 0)
    (Int64.toInt 0) := by
    decide
  by_contra hfree
  have hread : F_WRLCK = F_RDLCK ∧ F_WRLCK = F_RDLCK :=
    LockInfo.conflicts_eq_false (eq_false_of_ne_true hfree) hpid hoverlap
  cases hread.1

/-- Two paths with one hash: a write lock on the one refuses a write lock on the other. -/
theorem not_independent_of_hash_eq (heq : hostHash decode path = hostHash decode other) :
    ¬ Independent decode (HostLockOp.HasRoom (hostHash decode)) path other := by
  intro hind
  have hwrite : UInt32.toInt32 LockTable.F_WRLCK ≠ F_UNLCK := by decide
  let first := wholeLock other 1 LockTable.F_WRLCK
  let second := wholeLock path 2 LockTable.F_WRLCK
  have hlocks : (hostLocks decode [.call first]).locks = [(first.request (hostHash decode)).info] :=
    (setLock_create (by decide) hwrite).2
  have hblocked : ((hostLocks decode [.call first]).getBlockingLock
      (second.request (hostHash decode))).isSome = true :=
    getBlockingLock_isSome_iff.mpr
      ⟨_, hlocks ▸ List.mem_singleton.mpr rfl, heq.symm, conflicts_writers _ _⟩
  have hrefused : second.granted (hostHash decode) (hostLocks decode [.call first]) = false := by
    rw [granted_wholeLock]
    exact congrArg Prod.fst (setLock_of_blocked hwrite hblocked)
  have hgranted : second.granted (hostHash decode) (hostLocks decode []) = true := by
    rw [granted_wholeLock]
    exact (setLock_create (by decide) hwrite).1
  have hempty : ∀ c : LockCall, HostLockOp.HasRoom (hostHash decode) (.create 256) (.call c) :=
    fun c _ => hasRoom_create (by decide) _
  have hsame := hind [.call first] [] second rfl
    (List.filter_cons_of_neg (by simp [HostLockOp.isOn, first, wholeLock]))
    ⟨hempty first, fun _ => .inr (.inl hblocked), trivial⟩ ⟨hempty second, trivial⟩
  rw [hrefused, hgranted] at hsame
  cases hsame

/-! ### A full table -/

/-- Calls of as many owners for a read lock on one file. -/
def readers (path : Bytes) (n : ℕ) : List HostLockOp :=
  (List.range n).map fun i => .call (wholeLock path (UInt32.ofNat i) LockTable.F_RDLCK)

/-- One reader more. -/
theorem readers_succ (path : Bytes) (n : ℕ) : readers path (n + 1) =
      readers path n ++ [.call (wholeLock path (UInt32.ofNat n) LockTable.F_RDLCK)] := by
  rw [readers, List.range_succ, List.map_append, List.map_singleton, readers]

/-- Distinct readers are distinct owners. -/
theorem owner_ne {i n : ℕ} (hi : i < n) (hn : n < 2 ^ 32) :
    (UInt32.ofNat i).toInt32 ≠ (UInt32.ofNat n).toInt32 := by
  intro hsame
  have hnat := congrArg (fun x => x.toUInt32.toNat) hsame
  simp only [UInt32.toUInt32_toInt32, UInt32.toNat_ofNat'] at hnat
  omega

/-- Every reader gets an entry, until all entries are taken. -/
theorem locks_readers (decode : Bytes → List UInt16) (path : Bytes) {n : ℕ} (hn : n ≤ 256) :
    (hostLocks decode (readers path n)).capacity = 256 ∧
    (hostLocks decode (readers path n)).entries.count = n ∧
    ∀ e ∈ (hostLocks decode (readers path n)).locks,
      e.lockType = F_RDLCK ∧ ∃ i < n, e.pid = (UInt32.ofNat i).toInt32 := by
  induction n with
  | zero => exact ⟨rfl, rfl, fun e he => absurd he List.not_mem_nil⟩
  | succ n ih =>
    obtain ⟨hcap, hcount, hlocks⟩ := ih (by omega)
    have hread : ∀ e ∈ (hostLocks decode (readers path n)).locks, e.lockType = F_RDLCK ∧
        e.pid ≠ (UInt32.ofNat n).toInt32 := by
      intro e he
      obtain ⟨htype, i, hi, hpid⟩ := hlocks e he
      exact ⟨htype, hpid ▸ owner_ne hi (by omega)⟩
    let q : LockRequest := ⟨hostHash decode path, (UInt32.ofNat n).toInt32, F_RDLCK, 0, 0⟩
    have hnext : hostLocks decode (readers path (n + 1)) =
        ((hostLocks decode (readers path n)).setLock q).2 := by
      rw [hostLocks, readers_succ, List.foldl_append]
      exact perform_wholeLock _ _ _ _ _
    have hperm : (hostLocks decode (readers path (n + 1))).locks.Perm
        ((hostLocks decode (readers path n)).locks ++ [q.info]) :=
      hnext ▸ (setLock_reader rfl hread).2 (by omega)
    refine ⟨?_, ?_, fun e he => ?_⟩
    · rw [hnext, capacity_setLock, hcap]
    · rw [← length_locks, hperm.length_eq, List.length_append,
        length_locks, hcount]
      rfl
    rcases List.mem_append.mp (hperm.mem_iff.mp he) with hold | hnew
    · obtain ⟨htype, i, hi, hpid⟩ := hlocks e hold
      exact ⟨htype, i, by omega, hpid⟩
    · obtain rfl := List.mem_singleton.mp hnew
      exact ⟨rfl, n, by omega, rfl⟩

/-- Readers of one file fill the table; then no lock on any other file is granted. -/
theorem not_independent_of_full (decode : Bytes → List UInt16) (path other : Bytes) :
    ¬ Independent decode (fun _ _ => True) path other := by
  intro hind
  let late := wholeLock path 256 LockTable.F_RDLCK
  obtain ⟨hcap, hcount, hlocks⟩ := locks_readers decode other (le_refl 256)
  have hread : ∀ e ∈ (hostLocks decode (readers other 256)).locks,
      e.lockType = F_RDLCK ∧ e.pid ≠ (UInt32.ofNat 256).toInt32 := by
    intro e he
    obtain ⟨htype, i, hi, hpid⟩ := hlocks e he
    exact ⟨htype, hpid ▸ owner_ne hi (by decide)⟩
  have hrefused : late.granted (hostHash decode) (hostLocks decode (readers other 256))
      = false := by
    rw [granted_wholeLock]
    refine (setLock_reader rfl hread).1.trans (decide_eq_false ?_)
    rw [hcap, hcount]
    exact lt_irrefl 256
  have hgranted : late.granted (hostHash decode) (hostLocks decode []) = true := by
    rw [granted_wholeLock]
    have hlock : UInt32.toInt32 LockTable.F_RDLCK ≠ F_UNLCK := by decide
    exact (setLock_create (by decide) hlock).1
  have hhidden : (readers other 256).filter (fun op => !op.isOn other) = [] := by
    rw [List.filter_eq_nil_iff]
    intro op hop
    obtain ⟨i, -, rfl⟩ := List.mem_map.mp hop
    simp [HostLockOp.isOn, wholeLock]
  have hsame := hind (readers other 256) [] late rfl hhidden
    (Runs.of_forall fun _ _ => trivial) (Runs.of_forall fun _ _ => trivial)
  rw [hrefused, hgranted] at hsame
  cases hsame

/-- **Locks of another path.** In the histories that never meet a full table, a path does not
depend on another one exactly if the two have different hashes. In all histories together
every path depends on every other one, since the locks of one path can take all entries. -/
theorem path_locks_independent_iff (decode : Bytes → List UInt16) (path other : Bytes) :
    (Independent decode (HostLockOp.HasRoom (hostHash decode)) path other ↔
      hashPath (decode path) ≠ hashPath (decode other)) ∧
    ¬ Independent decode (fun _ _ => True) path other :=
  ⟨⟨fun hind heq => not_independent_of_hash_eq heq hind, independent_of_hash_ne⟩,
    not_independent_of_full decode path other⟩

/-- The bytes of `/state-gold.lock`. -/
def stateGoldLock : Bytes :=
  [47, 115, 116, 97, 116, 101, 45, 103, 111, 108, 100, 46, 108, 111, 99, 107]

/-- The bytes of `/lime-omega.log`. -/
def limeOmegaLog : Bytes := [47, 108, 105, 109, 101, 45, 111, 109, 101, 103, 97, 46, 108, 111, 103]

/-- Two paths with the same hash: owner 1 has locked the one file for writing, and owner 2 is
refused a lock on the other, which nobody else has locked. -/
theorem path_locks_collide :
    stateGoldLock ≠ limeOmegaLog ∧
    hashPath (decodeAscii stateGoldLock) = hashPath (decodeAscii limeOmegaLog) ∧
    let taken := hostLocks decodeAscii [.call (wholeLock stateGoldLock 1 LockTable.F_WRLCK)]
    (wholeLock limeOmegaLog 2 LockTable.F_WRLCK).granted (hostHash decodeAscii) taken = false ∧
    (wholeLock limeOmegaLog 2 LockTable.F_WRLCK).granted (hostHash decodeAscii)
      (hostLocks decodeAscii []) = true := by
  decide +kernel

end

end PosixKernel
