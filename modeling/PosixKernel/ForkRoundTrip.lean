import PosixKernel.Fork

/-!
# What a Forked Child Inherits

The fork codec carries a process over field by field, but not every field has a place in
it: the data limit, the baseline of the break and the ceiling for mappings restart at
their defaults, and the socket timeouts and the paths of pending opens are lost.
`ForkFaithful` lists what a parent must look like for its child to agree with it.

## Main results

* `fork_round_trip` — a child that agrees with its parent comes out of the codec exactly
  for the parents that are `ForkFaithful`.
-/

namespace PosixKernel

open MemoryManager

/-- What a forked child has to share with its parent. -/
structure ForkAgrees (p child : Process) : Prop where
  uid : child.uid = p.uid
  gid : child.gid = p.gid
  euid : child.euid = p.euid
  egid : child.egid = p.egid
  pgid : child.pgid = p.pgid
  sid : child.sid = p.sid
  umask : child.umask = p.umask
  actions : ∀ i, 1 ≤ i → i ≤ 64 → child.signals.getAction i = p.signals.getAction i
  environ : child.environ = p.environ
  argv : child.argv = p.argv
  cwd : child.cwd = p.cwd
  rlimits : child.rlimits = p.rlimits
  dataLimit : child.memory.dataLimit = p.memory.dataLimit
  programBreak : child.memory.programBreak = p.memory.programBreak
  initialBrk : child.memory.initialBrk = p.memory.initialBrk
  mappings : child.memory.mappings = p.memory.mappings
  maxAddr : child.memory.maxAddr = p.memory.maxAddr
  fdActions : child.forkFdActions = p.forkFdActions
  sockets : ∀ i s, p.sockets.get i = some s → ∃ s', child.sockets.get i = some s' ∧
    s'.options = s.options ∧ s'.recvTimeoutUs = s.recvTimeoutUs ∧
    s'.sendTimeoutUs = s.sendTimeoutUs

/-- Whether an action opens a path. -/
def FdAction.isOpen : FdAction → Bool
  | .Open .. => true
  | .Dup2 .. | .Close .. => false

/-- The parents whose children agree with them. -/
structure ForkFaithful (p : Process) : Prop where
  caps : WithinCaps p
  handlers : ∀ i, 1 ≤ i → i ≤ 64 → ∀ ptr, (p.signals.getAction i).handler = .Handler ptr →
    ptr.toNat < 2 ^ 32 - 2
  dataLimit : p.memory.dataLimit = new.dataLimit
  brkPos : 0 < p.memory.programBreak
  brkLe : p.memory.programBreak ≤ MemoryManager.MMAP_BASE
  initialBrk : p.memory.initialBrk = MemoryManager.INITIAL_BRK
  mappings : ∀ m ∈ p.memory.mappings, m.addr < 2 ^ 32 ∧ m.len < 2 ^ 32
  maxAddr : p.memory.maxAddr = MemoryManager.DEFAULT_MAX_ADDR
  fdActions : ∀ a ∈ p.forkFdActions, a.isOpen = false
  sockets : ∀ i s, p.sockets.get i = some s →
    i < 2 ^ 32 ∧ s.recvTimeoutUs = 0 ∧ s.sendTimeoutUs = 0

/-! ### Memory -/

theorem MemoryManager.setBrk_fields (m : MemoryManager) (b : ℕ) :
    (m.setBrk b).dataLimit = m.dataLimit ∧ (m.setBrk b).initialBrk = m.initialBrk ∧
      (m.setBrk b).maxAddr = m.maxAddr := by
  rw [setBrk]
  split_ifs <;> exact ⟨rfl, rfl, rfl⟩

/-- The break survives exactly when the new manager of the child takes it. -/
theorem programBreak_memoryImage (m : MemoryManager) :
    (memoryImage m).programBreak = m.programBreak ↔
      0 < m.programBreak ∧ m.programBreak ≤ MemoryManager.MMAP_BASE := by
  have himage : (memoryImage m).programBreak =
      (new.setBrk (low32 m.programBreak)).programBreak := rfl
  have hbase : MemoryManager.MMAP_BASE = 0x04000000 := rfl
  have hnew : new.programBreak = 0x01000000 := rfl
  rw [himage, setBrk_new]
  constructor
  · intro h
    split at h
    next hrefused =>
      omega
    next htaken =>
      obtain ⟨h0, hb⟩ := not_or.mp htaken
      have hb' : low32 m.programBreak = m.programBreak := h
      omega
  rintro ⟨hpos, hmax⟩
  have hsame : low32 m.programBreak = m.programBreak := low32_of_lt (by omega)
  rw [hsame, if_neg]
  rintro (h | h) <;> omega

theorem mappingImage_eq_self {m : MappedRegion} :
    mappingImage m = m ↔ m.addr < 2 ^ 32 ∧ m.len < 2 ^ 32 := by
  obtain ⟨addr, len, prot, flags⟩ := m
  simp [mappingImage, MappedRegion.mk.injEq, low32_eq_self_iff]

theorem map_eq_self_iff {α : Type} {f : α → α} {l : List α} : l.map f = l ↔ ∀ x ∈ l, f x = x := by
  constructor
  · intro h x hx
    have hid : l.map f = l.map id := by rw [h, List.map_id]
    exact List.map_inj_left.mp hid x hx
  · intro h
    exact (List.map_congr_left h).trans (List.map_id l)

/-! ### Descriptor actions -/

/-- An action that has an image is no open, and is its own image. -/
theorem fdActionImage_eq_some {a b : FdAction} :
    fdActionImage a = some b ↔ a.isOpen = false ∧ b = a := by
  cases a <;> simp [fdActionImage, FdAction.isOpen, eq_comm]

/-- The actions survive exactly when none of them is an open. -/
theorem filterMap_fdActionImage_eq_self {l : List FdAction} :
    l.filterMap fdActionImage = l ↔ ∀ a ∈ l, a.isOpen = false := by
  constructor
  · intro h a ha
    rw [← h, List.mem_filterMap] at ha
    obtain ⟨b, -, hb⟩ := ha
    obtain ⟨hopen, rfl⟩ := fdActionImage_eq_some.mp hb
    exact hopen
  intro h
  induction l with
  | nil => rfl
  | cons a l ih =>
    rw [List.filterMap_cons_some (fdActionImage_eq_some.mpr ⟨h a List.mem_cons_self, rfl⟩),
      ih fun b hb => h b (List.mem_cons_of_mem _ hb)]

/-! ### Sockets -/

/-- The options and timeouts of all sockets survive exactly when no timeout is set; a slot
number past 32 bits does not survive either. -/
theorem sockets_socketsImage (t : SocketTable) :
    (∀ i s, t.get i = some s → ∃ s', (socketsImage t).get i = some s' ∧
      s'.options = s.options ∧ s'.recvTimeoutUs = s.recvTimeoutUs ∧
      s'.sendTimeoutUs = s.sendTimeoutUs) ↔
    ∀ i s, t.get i = some s → i < 2 ^ 32 ∧ s.recvTimeoutUs = 0 ∧ s.sendTimeoutUs = 0 := by
  constructor
  · intro h i s hs
    obtain ⟨s', hs', -, hrecv, hsend⟩ := h i s hs
    obtain ⟨⟨j, sj⟩, -, heq⟩ := List.mem_map.mp (SlotTable.mem_of_get_ofEntries hs')
    obtain ⟨hi, himg⟩ := Prod.mk.inj heq
    refine ⟨hi ▸ Nat.mod_lt _ (by decide), ?_, ?_⟩
    · rw [← hrecv, ← himg]
      rfl
    · rw [← hsend, ← himg]
      rfl
  intro h i s hs
  obtain ⟨-, hrecv, hsend⟩ := h i s hs
  refine ⟨socketImage s, ?_, rfl, hrecv.symm, hsend.symm⟩
  rw [socketsImage, SlotTable.get_ofEntries_map fun j x hx => low32_of_lt (h j x hx).1, hs]
  rfl

/-! ### The whole process -/

/-- The dispositions survive exactly when no handler address wraps around. -/
theorem actions_signalsImage (s : SignalState) :
    (∀ i, 1 ≤ i → i ≤ 64 → (signalsImage s).getAction i = s.getAction i) ↔
      ∀ i, 1 ≤ i → i ≤ 64 → ∀ ptr, (s.getAction i).handler = .Handler ptr →
        ptr.toNat < 2 ^ 32 - 2 := by
  refine forall_congr' fun i => forall_congr' fun h1 => forall_congr' fun h64 => ?_
  rw [getAction_signalsImage s h1 h64, ← u32ToHandler_handlerToU32, actionImage]
  obtain ⟨handler, flags, mask⟩ := s.getAction i
  simp

/-- The child that the codec builds agrees with its parent under the conditions listed. -/
theorem forkAgrees_forkChild {p : Process} (hcaps : WithinCaps p) (childPid : ℕ) :
    ForkAgrees p (forkChild p childPid) ↔ ForkFaithful p := by
  obtain ⟨hlimit, hinit, hmax⟩ :=
    setBrk_fields .new (low32 p.memory.programBreak)
  have hmaps : (forkChild p childPid).memory.mappings = p.memory.mappings.map mappingImage := rfl
  constructor
  · intro h
    have hbrk := (programBreak_memoryImage p.memory).mp h.programBreak
    refine ⟨hcaps, (actions_signalsImage p.signals).mp h.actions, ?_, hbrk.1, hbrk.2, ?_, ?_, ?_,
      filterMap_fdActionImage_eq_self.mp h.fdActions, (sockets_socketsImage p.sockets).mp h.sockets⟩
    · exact h.dataLimit.symm.trans hlimit
    · exact h.initialBrk.symm.trans hinit
    · intro m hm
      exact mappingImage_eq_self.mp (map_eq_self_iff.mp (hmaps ▸ h.mappings) m hm)
    · exact h.maxAddr.symm.trans hmax
  intro h
  refine ⟨rfl, rfl, rfl, rfl, rfl, rfl, rfl, (actions_signalsImage p.signals).mpr h.handlers,
    rfl, rfl, rfl, rfl, ?_, (programBreak_memoryImage p.memory).mpr ⟨h.brkPos, h.brkLe⟩, ?_, ?_,
    ?_, filterMap_fdActionImage_eq_self.mpr h.fdActions,
    (sockets_socketsImage p.sockets).mpr h.sockets⟩
  · exact hlimit.trans h.dataLimit.symm
  · exact hinit.trans h.initialBrk.symm
  · rw [hmaps]
    exact map_eq_self_iff.mpr fun m hm => mappingImage_eq_self.mpr (h.mappings m hm)
  · exact hmax.trans h.maxAddr.symm

/-- **The fork round trip.** Whatever the buffer, reading back a state that was written
yields a child that agrees with its parent exactly when the parent is within the reader's
bounds, has kept the default data limit, break baseline and mapping ceiling, has its break
in the range of a new manager, has no handler, mapping or socket number too wide for its
field, no pending open and no socket timeout. -/
theorem fork_round_trip (p : Process) (bufLen : UInt32) (bytes : Bytes) (childPid : ℕ)
    (h : serializeForkState p bufLen = .ok bytes) :
    (∃ child, deserializeForkState bytes childPid = .ok child ∧ ForkAgrees p child) ↔
      ForkFaithful p := by
  obtain ⟨hok, herr⟩ := deserialize_serialize h childPid
  by_cases hcaps : WithinCaps p
  · rw [← forkAgrees_forkChild hcaps childPid, hok hcaps]
    constructor
    · rintro ⟨child, hchild, hagree⟩
      rwa [Except.ok.inj hchild]
    · exact fun hagree => ⟨_, rfl, hagree⟩
  rw [herr hcaps]
  constructor
  · rintro ⟨child, hchild, -⟩
    cases hchild
  · exact fun hfaith => absurd hfaith.caps hcaps

/-- A process with arguments, an environment, a mapping, a socket and a pending action. -/
def furnished : Process :=
  { Process.new 1 with
    argv := [ascii "sh"]
    environ := [ascii "A=1", ascii "PATH=/bin"]
    memory := { new with mappings := [⟨0x04000000, 0x10000, 3, 34⟩] }
    sockets := ⟨[none, some { SocketInfo.new .Inet .Stream 0 with bindPort := 80 }]⟩
    forkFdActions := [.Close 5] }

theorem fork_round_trip_furnished :
    ∃ bytes child, serializeForkState furnished FORK_BUF_LEN = .ok bytes ∧
      deserializeForkState bytes 2 = .ok child ∧ ForkAgrees furnished child := by
  obtain ⟨bytes, hbytes⟩ : ∃ bytes, serializeForkState furnished FORK_BUF_LEN = .ok bytes :=
    writeState_isOk (by decide +kernel)
  have hfaithful : ForkFaithful furnished := by
    refine ⟨withinCaps_of_serialize hbytes, ?_, rfl, by decide, by decide, rfl, by decide, rfl,
      by decide, fun i s hs => ?_⟩
    · intro i h1 h64 ptr hptr
      rw [SignalState.getAction, if_pos (validSignal_iff.mpr ⟨h1, h64⟩)] at hptr
      cases hptr
    · rcases i with _ | _ | i
      · cases hs
      · cases hs
        exact ⟨by decide, rfl, rfl⟩
      · cases hs
  obtain ⟨child, hchild, hagree⟩ := (fork_round_trip _ _ _ 2 hbytes).mpr hfaithful
  exact ⟨bytes, child, hbytes, hchild, hagree⟩

/-- A process that has lowered its data limit to one mebibyte: the forked child is back at
no limit, although it reports the same `RLIMIT_DATA`. -/
theorem fork_loses_data_limit :
    ∃ p bytes child, sysSetrlimit (.new 1) RLIMIT_DATA 0x100000 0x100000 = .ok p ∧
      serializeForkState p FORK_BUF_LEN = .ok bytes ∧
      deserializeForkState bytes 2 = .ok child ∧ child.rlimits = p.rlimits ∧
      child.memory.dataLimit ≠ p.memory.dataLimit ∧ ¬ ForkAgrees p child := by
  obtain ⟨p, hp, hlimit⟩ : ∃ p, sysSetrlimit (.new 1) RLIMIT_DATA 0x100000 0x100000 = .ok p ∧
      p = { Process.new 1 with
        rlimits := Function.update defaultRlimits ⟨RLIMIT_DATA, by decide⟩ (0x100000, 0x100000)
        memory := new.setDataLimit 0x100000 } :=
    ⟨_, rfl, rfl⟩
  obtain ⟨bytes, hbytes⟩ : ∃ bytes, serializeForkState p FORK_BUF_LEN = .ok bytes :=
    writeState_isOk (by rw [hlimit]; decide +kernel)
  have hne : (forkChild p 2).memory.dataLimit ≠ p.memory.dataLimit := by
    rw [hlimit]
    decide
  exact ⟨p, bytes, _, hp, hbytes,
    (deserialize_serialize hbytes 2).1 (withinCaps_of_serialize hbytes), rfl, hne,
    fun hagree => hne hagree.dataLimit⟩

end PosixKernel
