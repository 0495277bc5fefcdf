import PosixKernel.System

/-!
# The Tables of a New Process

On the machine's number ranges the fork codec is exact: the tables of a forked child, and
those that an exec rebuilds, hold the entries of the parent in the same slots. What they
leave out is then visible: descriptors marked close-on-fork, descriptions that no
descriptor points at, and all sockets.

## Main results

* `Process.Fits.get_fdTableImage`, `Process.Fits.get_ofdTableImage`,
  `Process.Fits.get_socketsImage` — the tables of a forked child;
* `fork_keeps_descriptors_iff` — the descriptors of a child, whatever the buffer;
* `System.forkProcess_eq_ok` — what a successful fork did to the system.
-/

namespace PosixKernel

/-- A description as a new process gets it: its own owner, and no directory iteration. -/
def OpenFileDesc.inheritedBy (pid : ℕ) (o : OpenFileDesc) : OpenFileDesc :=
  { o with ownerPid := pid, dirHostHandle := -1, dirSynthState := 0, dirEntryOffset := 0 }

theorem OpenFileDesc.Fits.ofdImage {o : OpenFileDesc} (h : o.Fits) (pid : ℕ) :
    ofdImage pid o = o.inheritedBy pid := by
  obtain ⟨hhandle, hoffset, hcount⟩ := h
  rw [PosixKernel.ofdImage, lowI64_of_range hhandle.1 hhandle.2,
    lowI64_of_range hoffset.1 hoffset.2, low32_of_lt hcount]
  rfl

theorem get_execOfds {p : Process}
    (h : ∀ i o, p.ofdTable.get i = some o → i < 2 ^ 32 ∧ o.Fits) (pid i : ℕ) :
    (execImage p pid).ofdTable.get i = ((p.ofdTable.get i).filter fun _ =>
        ((execFds p).map fun f => f.2.ofdRef).contains i).map (·.inheritedBy pid) := by
  have hget := SlotTable.get_ofEntries_filter_map (t := p.ofdTable)
    (fun e => ((execFds p).map fun f => f.2.ofdRef).contains e.1) (PosixKernel.ofdImage pid)
    (fun j o ho => low32_of_lt (h j o ho).1) i
  refine hget.trans ?_
  rcases ho : p.ofdTable.get i with _ | o
  · rfl
  refine Option.map_congr fun o' ho' => ?_
  obtain rfl := Option.some.inj (Option.filter_eq_some_iff.mp ho').1
  exact (h i _ ho).2.ofdImage pid

namespace Process.Fits

variable {p : Process}

theorem fdImage (h : p.Fits) {e : ℕ × FdEntry} (he : e ∈ p.fdTable.entries.entries) :
    fdImage e = e := by
  have hfd := h.fd (SlotTable.mem_entries.mp he)
  rw [PosixKernel.fdImage, low32_of_lt hfd.1, low32_of_lt hfd.2]

theorem get_fdTableImage (h : p.Fits) (i : ℕ) : (fdTableImage p.fdTable).entries.get i =
      (p.fdTable.entries.get i).filter FdEntry.survivesFork := by
  have hmap : p.fdTable.entries.entries.map PosixKernel.fdImage = p.fdTable.entries.entries :=
    (List.map_congr_left fun e he => h.fdImage he).trans (List.map_id _)
  have hget := SlotTable.get_ofEntries_filter_map (t := p.fdTable.entries)
    (fun e => e.2.survivesFork) id (fun i _ _ => id_eq i) i
  rw [fdTableImage, hmap]
  simpa using hget

theorem get_ofdTableImage (h : p.Fits) (pid i : ℕ) :
    (ofdTableImage pid p.ofdTable).get i = (p.ofdTable.get i).map (·.inheritedBy pid) := by
  rw [ofdTableImage, SlotTable.get_ofEntries_map fun j o ho => low32_of_lt (h.ofd ho).1]
  rcases ho : p.ofdTable.get i with _ | o
  · rfl
  · rw [Option.map_some, Option.map_some, (h.ofd ho).2.ofdImage]

theorem get_socketsImage (h : p.Fits) (i : ℕ) :
    (socketsImage p.sockets).get i = (p.sockets.get i).map socketImage := by
  rw [socketsImage, SlotTable.get_ofEntries_map fun j s hs => low32_of_lt (h.socket hs).1]

end Process.Fits

/-- The descriptors of a child are those of its parent: the same limit, exactly the descriptors
that are not marked close-on-fork, as they were, and each description in its slot, with its
kind, flags, handle, offset and path. -/
structure DescriptorsKept (p child : Process) : Prop where
  limit : child.fdTable.maxFds = p.fdTable.maxFds
  fds : ∀ fd e, child.fdTable.entries.get fd = some e ↔
    p.fdTable.entries.get fd = some e ∧ hasFlag e.fdFlags FD_CLOFORK = false
  ofds : ∀ i o, p.ofdTable.get i = some o → ∃ o', child.ofdTable.get i = some o' ∧
    o'.fileType = o.fileType ∧ o'.statusFlags = o.statusFlags ∧ o'.hostHandle = o.hostHandle ∧
    o'.offset = o.offset ∧ o'.path = o.path

/-- **The descriptors of a child**, whenever a state is written and read back: all is kept,
except that a limit that takes more than 32 bits is cut. -/
theorem fork_keeps_descriptors_iff {p child : Process} {bufLen : UInt32} {bytes : Bytes}
    {childPid : ℕ} (hfits : p.Fits) (hser : serializeForkState p bufLen = .ok bytes)
    (hde : deserializeForkState bytes childPid = .ok child) :
    DescriptorsKept p child ↔ p.fdTable.maxFds < 2 ^ 32 := by
  obtain ⟨hok, herr⟩ := deserialize_serialize hser childPid
  have hcaps : WithinCaps p := by
    by_contra hnot
    cases (herr hnot).symm.trans hde
  obtain rfl : forkChild p childPid = child := Except.ok.inj ((hok hcaps).symm.trans hde)
  refine ⟨fun hkept => low32_eq_self_iff.mp hkept.limit, fun hmax => ⟨low32_of_lt hmax,
    fun fd e => ?_, fun i o ho => ⟨o.inheritedBy childPid, ?_, rfl, rfl, rfl, rfl, rfl⟩⟩⟩
  · have hget := hfits.get_fdTableImage fd
    rw [show (forkChild p childPid).fdTable = fdTableImage p.fdTable from rfl, hget,
      Option.filter_eq_some_iff, FdEntry.survivesFork, Bool.not_eq_true']
  · have hget := hfits.get_ofdTableImage childPid i
    rwa [ho] at hget

/-- A process with a close-on-fork descriptor: its child has the others. -/
theorem fork_keeps_descriptors_opened : ∃ p bytes child,
    (sysOpen .barren .bare ⟨.boot, .new 1⟩ (ascii "/dev/null") O_CLOFORK 0).2.proc = p ∧
      serializeForkState p FORK_BUF_LEN = .ok bytes ∧
      deserializeForkState bytes 2 = .ok child ∧ DescriptorsKept p child ∧
      p.fdTable.entries.get 3 ≠ none ∧ child.fdTable.entries.get 3 = none := by
  obtain ⟨p, hp, hfits, hlen, hmax, hopen⟩ : ∃ p,
      (sysOpen .barren .bare ⟨.boot, .new 1⟩ (ascii "/dev/null") O_CLOFORK 0).2.proc = p ∧
        p.Fits ∧ 12 + (forkBody p).flatten.length ≤ FORK_BUF_LEN.toNat ∧
        p.fdTable.maxFds < 2 ^ 32 ∧ p.fdTable.entries.get 3 = some ⟨3, FD_CLOFORK⟩ :=
    ⟨_, rfl, by decide +kernel⟩
  obtain ⟨bytes, hser⟩ : ∃ bytes, serializeForkState p FORK_BUF_LEN = .ok bytes :=
    writeState_isOk hlen
  have hde := (deserialize_serialize hser 2).1 (withinCaps_of_serialize hser)
  have hkept := (fork_keeps_descriptors_iff hfits hser hde).mpr hmax
  refine ⟨p, bytes, _, hp, hser, hde, hkept, by simp [hopen], ?_⟩
  -- a descriptor of the child would be one that is not marked
  rcases hnone : (forkChild p 2).fdTable.entries.get 3 with _ | e
  · rfl
  obtain ⟨he, hmark⟩ := (hkept.fds 3 e).mp hnone
  rw [hopen] at he
  cases he
  exact absurd hmark (by decide)

/-- **A limit of 2^32 descriptors** becomes a limit of none in the child. -/
theorem fork_loses_descriptor_limit : ∃ p bytes child,
    sysSetrlimit (.new 1) RLIMIT_NOFILE 0x100000000 0x100000000 = .ok p ∧
      serializeForkState p FORK_BUF_LEN = .ok bytes ∧
      deserializeForkState bytes 2 = .ok child ∧ p.fdTable.maxFds = 2 ^ 32 ∧
      child.fdTable.maxFds = 0 ∧ ¬ DescriptorsKept p child := by
  obtain ⟨p, hp, hlimit, hlen⟩ :
      ∃ p, sysSetrlimit (.new 1) RLIMIT_NOFILE 0x100000000 0x100000000 = .ok p ∧
        p.fdTable.maxFds = 2 ^ 32 ∧ 12 + (forkBody p).flatten.length ≤ FORK_BUF_LEN.toNat :=
    ⟨_, rfl, rfl, by decide +kernel⟩
  obtain ⟨bytes, hser⟩ : ∃ bytes, serializeForkState p FORK_BUF_LEN = .ok bytes :=
    writeState_isOk hlen
  have hzero : (forkChild p 2).fdTable.maxFds = 0 := congrArg low32 hlimit
  refine ⟨p, bytes, _, hp, hser, (deserialize_serialize hser 2).1 (withinCaps_of_serialize hser),
    hlimit, hzero, fun hkept => ?_⟩
  have := hkept.limit
  omega

/-! ### What a fork leaves behind -/

/-- The child that a fork puts in the table. -/
def forkedChild (parent : Process) (childPid : ℕ) : Process :=
  { forkChild parent childPid with
    forkPipeReplay := buildForkPipeReplay (forkChild parent childPid) }

/-- The parent after a fork. -/
def Process.forkedOnce (p : Process) : Process := { p with forkCount := p.forkCount + 1 }

/-- The system after a fork. -/
def System.forked (s : System) (parentPid childPid : ℕ) (parent : Process) : System :=
  ⟨bumpInheritedResourceRefcounts s.kernel (forkedChild parent childPid),
    (s.procs.put childPid (some (forkedChild parent childPid))).modify parentPid
      Process.forkedOnce⟩

namespace System

variable {s s' : System} {parentPid childPid : ℕ} {parent : Process}

/-- **What a successful fork did.** -/
theorem forkProcess_eq_ok (h : s.forkProcess parentPid childPid = (.ok (), s')) :
    ∃ parent, s.procs.get parentPid = some parent ∧ s.procs.get childPid = none ∧
      s' = s.forked parentPid childPid parent := by
  rw [forkProcess] at h
  rcases hchild : s.procs.get childPid with _ | other
  · rcases hparent : s.procs.get parentPid with _ | parent
    · simp only [hchild, hparent] at h
      cases congrArg Prod.fst h
    simp only [hchild, hparent] at h
    rcases hser : serializeForkState parent FORK_BUF_LEN with e | bytes
    · rw [hser] at h
      cases congrArg Prod.fst h
    have hde := (deserialize_serialize hser childPid).1 (withinCaps_of_serialize hser)
    simp only [hser, hde] at h
    exact ⟨parent, rfl, rfl, (congrArg Prod.snd h).symm⟩
  · simp only [hchild] at h
    cases congrArg Prod.fst h

theorem forkProcess_eq_error {e : Errno}
    (h : s.forkProcess parentPid childPid = (.error e, s')) : s' = s := by
  rw [forkProcess] at h
  split at h
  · exact (congrArg Prod.snd h).symm
  split at h
  · exact (congrArg Prod.snd h).symm
  split at h
  · exact (congrArg Prod.snd h).symm
  split at h
  · exact (congrArg Prod.snd h).symm
  · cases congrArg Prod.fst h

/-- A parent whose state fits in the buffer can fork. -/
theorem forkProcess_of_fits (hparent : s.procs.get parentPid = some parent)
    (hchild : s.procs.get childPid = none)
    (hlen : 12 + (forkBody parent).flatten.length ≤ FORK_BUF_LEN.toNat) :
    s.forkProcess parentPid childPid = (.ok (), s.forked parentPid childPid parent) := by
  obtain ⟨bytes, hser⟩ : ∃ bytes, serializeForkState parent FORK_BUF_LEN = .ok bytes :=
    writeState_isOk hlen
  have hde := (deserialize_serialize hser childPid).1 (withinCaps_of_serialize hser)
  rw [forkProcess]
  simp only [hchild, hparent, hser, hde]
  rfl

theorem get_forked (hparent : s.procs.get parentPid = some parent)
    (hchild : s.procs.get childPid = none) (pid : ℕ) :
    (s.forked parentPid childPid parent).procs.get pid =
      if pid = parentPid then some parent.forkedOnce
      else if pid = childPid then some (forkedChild parent childPid) else s.procs.get pid := by
  have hne : parentPid ≠ childPid := by
    rintro rfl
    rw [hparent] at hchild
    cases hchild
  rw [forked, SlotTable.get_modify, SlotTable.get_put_of_ne _ _ hne, hparent, SlotTable.get_put]
  rfl

end System

end PosixKernel
