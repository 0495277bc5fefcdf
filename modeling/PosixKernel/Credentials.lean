import PosixKernel.GroupKill

/-!
# User and Group Ids

The calls that change the real and effective ids of a process, and what they do to its right
to send signals. The kernel keeps no saved ids. `setuid`, `seteuid` and their counterparts for
groups ask for effective user id 0 or for the real id; `setresuid` and `setresgid` ask for
nothing.

## Main results

* `maySignal_le_iff` — when one process may signal no more than another;
* `Process.Confined.perform` — what a call leaves of the ids;
* `ids_confined_iff` — the sequences of calls that gain nothing.
-/

namespace PosixKernel

/-! ### Ids -/

/-- A real and an effective id. -/
structure Ids where
  real : UInt32
  effective : UInt32
  deriving DecidableEq

namespace Ids

/-- Set both ids with privilege, and return to the real id without. -/
def set (privileged : Bool) (ids : Ids) (id : UInt32) : Except Errno Ids :=
  if privileged then .ok ⟨id, id⟩
  else if id = ids.real then .ok { ids with effective := id }
  else .error .EPERM

/-- Set the effective id to anything with privilege, and to the real id without. -/
def setEffective (privileged : Bool) (ids : Ids) (id : UInt32) : Except Errno Ids :=
  if privileged ∨ id = ids.real then .ok { ids with effective := id } else .error .EPERM

/-- Set each id that is not given as -1. -/
def setEach (ids : Ids) (real effective : UInt32) : Ids where
  real := if real ≠ 0xFFFFFFFF then real else ids.real
  effective := if effective ≠ 0xFFFFFFFF then effective else ids.effective

end Ids

namespace Process

def userIds (p : Process) : Ids := ⟨p.uid, p.euid⟩

def groupIds (p : Process) : Ids := ⟨p.gid, p.egid⟩

/-- The process with the ids that a call came to. -/
def setUserIds (p : Process) : Except Errno Ids → Except Errno Unit × Process
  | .error e => (.error e, p)
  | .ok ids => (.ok (), { p with uid := ids.real, euid := ids.effective })

def setGroupIds (p : Process) : Except Errno Ids → Except Errno Unit × Process
  | .error e => (.error e, p)
  | .ok ids => (.ok (), { p with gid := ids.real, egid := ids.effective })

end Process

/-! ### The calls -/

def sysSetuid (p : Process) (uid : UInt32) : Except Errno Unit × Process :=
  p.setUserIds (p.userIds.set (p.euid = 0) uid)

def sysSetgid (p : Process) (gid : UInt32) : Except Errno Unit × Process :=
  p.setGroupIds (p.groupIds.set (p.euid = 0) gid)

def sysSeteuid (p : Process) (euid : UInt32) : Except Errno Unit × Process :=
  p.setUserIds (p.userIds.setEffective (p.euid = 0) euid)

def sysSetegid (p : Process) (egid : UInt32) : Except Errno Unit × Process :=
  p.setGroupIds (p.groupIds.setEffective (p.euid = 0) egid)

-- the saved id that the caller names is not looked at
def sysSetresuid (p : Process) (ruid euid _suid : UInt32) : Except Errno Unit × Process :=
  p.setUserIds (.ok (p.userIds.setEach ruid euid))

def sysSetresgid (p : Process) (rgid egid _sgid : UInt32) : Except Errno Unit × Process :=
  p.setGroupIds (.ok (p.groupIds.setEach rgid egid))

/-- A call that changes ids. -/
inductive IdCall
  | setuid (uid : UInt32)
  | setgid (gid : UInt32)
  | seteuid (euid : UInt32)
  | setegid (egid : UInt32)
  | setresuid (ruid euid suid : UInt32)
  | setresgid (rgid egid sgid : UInt32)

def IdCall.run (p : Process) : IdCall → Except Errno Unit × Process
  | .setuid uid => sysSetuid p uid
  | .setgid gid => sysSetgid p gid
  | .seteuid euid => sysSeteuid p euid
  | .setegid egid => sysSetegid p egid
  | .setresuid ruid euid suid => sysSetresuid p ruid euid suid
  | .setresgid rgid egid sgid => sysSetresgid p rgid egid sgid

/-- The process after a call. -/
def IdCall.perform (p : Process) (call : IdCall) : Process := (call.run p).2

/-! ### Permission -/

theorem maySignal_iff {p : Process} (h : p.euid ≠ 0) (target : Process) :
    p.maySignal target = true ↔
      (p.uid = target.uid ∨ p.uid = target.euid) ∨ p.euid = target.uid ∨ p.euid = target.euid := by
  rw [Process.maySignal, canSignal]
  simp only [h, if_false, Bool.or_eq_true, decide_eq_true_eq]
  tauto

/-- A process of one user. -/
def userProcess (uid : UInt32) : Process := { Process.new 0 with uid, euid := uid }

theorem maySignal_userProcess {p : Process} {uid : UInt32} (h : p.uid = uid ∨ p.euid = uid) :
    p.maySignal (userProcess uid) = true := by
  by_cases hroot : p.euid = 0
  · rw [Process.maySignal, canSignal, if_pos hroot]
  · rw [maySignal_iff hroot]
    exact h.imp .inl .inl

/-- Ids that are both among the ids of another process. -/
structure Process.Confined (own p : Process) : Prop where
  real : p.uid = own.uid ∨ p.uid = own.euid
  effective : p.euid = own.uid ∨ p.euid = own.euid

/-- **Rights are ids.** A process may signal no more than another one without privilege,
exactly if it has no other ids. -/
theorem maySignal_le_iff {own p : Process} (huid : own.uid ≠ 0) (heuid : own.euid ≠ 0) :
    (p.euid ≠ 0 ∧ ∀ target : Process, p.maySignal target = true → own.maySignal target = true) ↔
      own.Confined p := by
  constructor
  · rintro ⟨-, hle⟩
    have hown : ∀ uid, p.uid = uid ∨ p.euid = uid → uid = own.uid ∨ uid = own.euid := by
      intro uid hp
      have hmay := (maySignal_iff heuid _).mp (hle _ (maySignal_userProcess hp))
      rcases hmay with (h | h) | h | h
      · exact .inl h.symm
      · exact .inl h.symm
      · exact .inr h.symm
      · exact .inr h.symm
    exact ⟨hown _ (.inl rfl), hown _ (.inr rfl)⟩
  rintro ⟨hreal, heffective⟩
  have hplain : p.euid ≠ 0 := by
    rcases heffective with h | h
    · rwa [h]
    · rwa [h]
  refine ⟨hplain, fun target hmay => ?_⟩
  rw [maySignal_iff heuid]
  rw [maySignal_iff hplain] at hmay
  rcases hmay with hmay | hmay
  · rcases hreal with h | h
    · exact .inl (h ▸ hmay)
    · exact .inr (h ▸ hmay)
  rcases heffective with h | h
  · exact .inl (h ▸ hmay)
  · exact .inr (h ▸ hmay)

/-! ### Calls that stay within -/

/-- An id that a call leaves, or that is among two. -/
def Within (uid euid id : UInt32) : Prop := id = 0xFFFFFFFF ∨ id = uid ∨ id = euid

/-- The id that is left when one is given. -/
theorem Within.picked {uid euid id old : UInt32} (hid : Within uid euid id)
    (hold : old = uid ∨ old = euid) :
    (if id ≠ 0xFFFFFFFF then id else old) = uid ∨ (if id ≠ 0xFFFFFFFF then id else old) = euid := by
  by_cases hgiven : id = 0xFFFFFFFF
  · rwa [if_neg (not_not.mpr hgiven)]
  · rw [if_pos hgiven]
    exact hid.resolve_left hgiven

theorem within_of_picked {uid euid id old : UInt32}
    (h : (if id ≠ 0xFFFFFFFF then id else old) = uid ∨
      (if id ≠ 0xFFFFFFFF then id else old) = euid) : Within uid euid id := by
  by_cases hgiven : id = 0xFFFFFFFF
  · exact .inl hgiven
  · rw [if_pos hgiven] at h
    exact .inr h

/-- The call names no user ids but two. -/
def IdCall.Names (uid euid : UInt32) : IdCall → Prop
  | .setresuid ruid euid' _ => Within uid euid ruid ∧ Within uid euid euid'
  | _ => True

variable {own p : Process}

/-- The calls without privilege at most return to the real id. -/
theorem Process.Confined.effective_of_real (h : own.Confined p) {id : UInt32} (hid : id = p.uid) :
    own.Confined { p with euid := id } :=
  ⟨h.real, hid ▸ h.real⟩

/-- **One call.** Ids that are confined stay so, if the call names no others. -/
theorem Process.Confined.perform (h : own.Confined p) (hplain : p.euid ≠ 0) (call : IdCall)
    (hnames : call.Names own.uid own.euid) : own.Confined (call.perform p) := by
  have hprivileged : decide (p.euid = 0) = false := decide_eq_false hplain
  cases call with
  | setuid uid =>
    show own.Confined (sysSetuid p uid).2
    rw [sysSetuid, Ids.set, hprivileged, if_neg Bool.false_ne_true]
    by_cases hid : uid = p.userIds.real
    · rw [if_pos hid]
      exact h.effective_of_real hid
    · rwa [if_neg hid]
  | seteuid euid =>
    show own.Confined (sysSeteuid p euid).2
    rw [sysSeteuid, Ids.setEffective, hprivileged]
    by_cases hid : euid = p.userIds.real
    · rw [if_pos (.inr hid)]
      exact h.effective_of_real hid
    · rwa [if_neg (by simpa using hid)]
  | setresuid =>
    obtain ⟨hruid, heuid⟩ := hnames
    exact ⟨hruid.picked h.real, heuid.picked h.effective⟩
  | setgid gid =>
    show own.Confined (p.setGroupIds _).2
    cases p.groupIds.set (p.euid = 0) gid with
    | error => exact h
    | ok => exact ⟨h.real, h.effective⟩
  | setegid egid =>
    show own.Confined (p.setGroupIds _).2
    cases p.groupIds.setEffective (p.euid = 0) egid with
    | error => exact h
    | ok => exact ⟨h.real, h.effective⟩
  | setresgid => exact ⟨h.real, h.effective⟩

/-- A call that ends with confined ids named no others. -/
theorem IdCall.names_of_confined (call : IdCall) (h : own.Confined (call.perform p)) :
    call.Names own.uid own.euid := by
  cases call with
  | setresuid =>
    exact ⟨within_of_picked h.real, within_of_picked h.effective⟩
  | _ => trivial

theorem Process.Confined.foldl (h : own.Confined p) (huid : own.uid ≠ 0) (heuid : own.euid ≠ 0)
    (calls : List IdCall) (hnames : ∀ call ∈ calls, call.Names own.uid own.euid) :
    own.Confined (calls.foldl IdCall.perform p) := by
  induction calls generalizing p with
  | nil => exact h
  | cons call rest ih =>
    have hplain : p.euid ≠ 0 := ((maySignal_le_iff huid heuid).mpr h).1
    exact ih (h.perform hplain call (hnames call List.mem_cons_self))
      fun next hnext => hnames next (List.mem_cons_of_mem call hnext)

/-- **Ids are not gained.** A process whose real and effective user ids are not 0 has an
effective user id other than 0, and may signal no one whom it could not signal before, after
each of a sequence of calls, exactly if no `setresuid` among them names an id other than the
two that it had. -/
theorem ids_confined_iff (p : Process) (huid : p.uid ≠ 0) (heuid : p.euid ≠ 0)
    (calls : List IdCall) : (∀ n, ((calls.take n).foldl IdCall.perform p).euid ≠ 0 ∧
      ∀ target : Process, ((calls.take n).foldl IdCall.perform p).maySignal target = true →
        p.maySignal target = true) ↔ ∀ call ∈ calls, call.Names p.uid p.euid := by
  simp only [maySignal_le_iff huid heuid]
  constructor
  · intro hconfined call hcall
    obtain ⟨before, after, rfl⟩ := List.append_of_mem hcall
    have hafter := hconfined (before.length + 1)
    rw [List.take_length_add_append, List.foldl_append] at hafter
    exact call.names_of_confined hafter
  intro hnames n
  have hself : p.Confined p := ⟨.inl rfl, .inr rfl⟩
  exact hself.foldl huid heuid _ fun call hcall => hnames call (List.mem_of_mem_take hcall)

/-- A process with user ids 7 and 8. -/
def twoIds : Process := { Process.new 2 with uid := 7, euid := 8 }

/-- It swaps its ids and returns to the real one. -/
theorem ids_confined_swap :
    let calls : List IdCall := [.setresuid 8 7 0, .setuid 8, .setresgid 0 0 0]
    ((calls.take 2).foldl IdCall.perform twoIds).euid ≠ 0 ∧
      ∀ target : Process, ((calls.take 2).foldl IdCall.perform twoIds).maySignal target = true →
        twoIds.maySignal target = true := by
  refine (ids_confined_iff twoIds (by decide) (by decide) _).mpr ?_ 2
  intro call hcall
  simp only [List.mem_cons, List.not_mem_nil, or_false] at hcall
  rcases hcall with rfl | rfl | rfl
  · exact ⟨.inr (.inr rfl), .inr (.inl rfl)⟩
  · trivial
  · trivial

/-- A process of user 7 makes itself root, and may signal the processes of user 9. -/
theorem ids_gained :
    let p := userProcess 7
    (IdCall.perform p (.setresuid 0 0 0)).euid = 0 ∧
      (IdCall.perform p (.setresuid 0 0 0)).maySignal (userProcess 9) = true ∧
      p.maySignal (userProcess 9) = false := by
  decide

end PosixKernel
