import PosixKernel.Holders

/-!
# Counts of Global Pipes

Every pipe of the global table counts the holders of its two ends: the descriptions on the
pipe and the sockets over it, in all processes. A socket that has shut a direction down no
longer holds that end, but keeps the number of the pipe; whatever later counts it as a
holder again makes the counts wrong.

## Main results

* `Moves.pipeFlow` — descriptor calls keep the counts exact if no pipe that is still in use
  has an end that the process shut down;
* `Ctx.PipesSound.sysPipe`, `Ctx.PipesSound.sysSocketpair`, `Ctx.PipesSound.sysShutdown` — the
  other calls on pipes and sockets.
-/

namespace PosixKernel

open Process OpenFileDesc SlotTable

/-! ### Open and shut directions -/

/-- The pipe ends of the directions that a socket has not shut down. -/
def SocketInfo.openEnds (s : SocketInfo) : List Resource :=
  if s.globalPipes then
    (if s.shutWr then [] else s.sendBufIdx.toList.map (.pipe · .write)) ++
      (if s.shutRd then [] else s.recvBufIdx.toList.map (.pipe · .read))
  else []

/-- The pipe ends of the directions that a socket has shut down. -/
def SocketInfo.shutEnds (s : SocketInfo) : List Resource :=
  if s.globalPipes then
    (if s.shutWr then s.sendBufIdx.toList.map (.pipe · .write) else []) ++
      (if s.shutRd then s.recvBufIdx.toList.map (.pipe · .read) else [])
  else []

/-- The ends of a socket are open or shut. -/
theorem SocketInfo.count_pipeEnds (s : SocketInfo) (r : Resource) :
    s.pipeEnds.count r = s.openEnds.count r + s.shutEnds.count r := by
  rw [pipeEnds, openEnds, shutEnds]
  cases s.globalPipes <;> cases s.shutWr <;> cases s.shutRd <;>
    simp [List.count_append, Nat.add_comm]

/-- How often a process holds a pipe end. -/
def Process.pipeHolds (p : Process) (r : Resource) : ℕ :=
  p.sum (·.pipeEnds.count r) (·.openEnds.count r)

/-- How often a process has a pipe end that it no longer holds. -/
def Process.shutHolds (p : Process) (r : Resource) : ℕ := p.sum (fun _ => 0) (·.shutEnds.count r)

section Pipes

variable {idx : ℕ} {e : PipeEnd}

/-- Of pipes a description holds its ends. -/
theorem OpenFileDesc.count_resources_pipe (o : OpenFileDesc) :
    o.resources.count (.pipe idx e) = o.pipeEnds.count (.pipe idx e) := by
  have hptys : o.ptySides.count (.pipe idx e) = 0 := by
    rw [ptySides]
    cases o.fileType <;> simp
  rw [resources, List.count_append, List.count_append, hptys, count_hostFiles rfl, add_zero,
    add_zero]

/-- A socket holds its open and its shut ends. -/
theorem SocketInfo.count_resources_pipe (s : SocketInfo) : s.resources.count (.pipe idx e) =
      s.openEnds.count (.pipe idx e) + s.shutEnds.count (.pipe idx e) := by
  have hshared : s.shared.count (.pipe idx e) = 0 := by
    rw [List.count_eq_zero]
    simp [shared]
  rw [resources, List.count_append, hshared, add_zero, count_pipeEnds]

/-- So does a process. -/
theorem Process.holds_pipe (p : Process) :
    p.holds (.pipe idx e) = p.pipeHolds (.pipe idx e) + p.shutHolds (.pipe idx e) := by
  have hzero : (p.ofdTable.total fun _ => 0) = 0 := total_eq_zero_iff.mpr fun _ _ _ => rfl
  simp only [holds, pipeHolds, shutHolds, sum, count_resources_pipe,
    SocketInfo.count_resources_pipe, total_add, hzero]
  omega

/-- The description of a socket has no end itself. -/
theorem OpenFileDesc.count_pipeEnds_of_socket {o : OpenFileDesc} (hft : o.fileType = .Socket) :
    o.pipeEnds.count (.pipe idx e) = 0 := by
  rw [← count_resources_pipe, resources_of_socket hft, List.count_nil]

/-- What an open gains has no end of a pipe. -/
theorem Gains.count_pipe {H : HostIO} {k k' : Kernel} {o : OpenFileDesc} (h : Gains H k o k') :
    k'.count (.pipe idx e) = k.count (.pipe idx e) ∧ o.pipeEnds.count (.pipe idx e) = 0 := by
  have hsame : k'.count (.pipe idx e) = k.count (.pipe idx e) := by cases h <;> rfl
  have hgain := h.count (r := .pipe idx e) rfl
  rw [count_resources_pipe] at hgain
  exact ⟨hsame, by omega⟩

end Pipes

/-! ### Descriptor calls -/

/-- No pipe end that a process has shut down has a holder left. -/
def Ctx.ShutDead (c : Ctx) : Prop :=
  ∀ idx e, 0 < c.proc.shutHolds (.pipe idx e) → c.kernel.count (.pipe idx e) = 0

section Moves

variable {H : HostIO} {c c' : Ctx} {idx : ℕ} {e : PipeEnd}

/-- Descriptor calls never add holders of pipes, nor shut directions down. -/
theorem Move.pipes_le (h : Move H c c') (idx : ℕ) (e : PipeEnd) :
    c'.kernel.count (.pipe idx e) ≤ c.kernel.count (.pipe idx e) ∧
      c'.proc.shutHolds (.pipe idx e) ≤ c.proc.shutHolds (.pipe idx e) := by
  have hmeter := Kernel.meter_count (.pipe idx e)
  cases h with
  | alike hk hp =>
    exact ⟨(hk.count _).le, (sum_alike (fun _ => rfl) (fun _ => rfl) hp.ofds hp.socks).le⟩
  | removed hk ho hft hrs hpid hofds hsocks =>
    have hshut := sum_removed (f := fun _ => 0) (g := (·.shutEnds.count (.pipe idx e)))
      (fun _ => rfl) (fun _ => rfl) ho hofds hsocks
    refine ⟨?_, hshut.ge⟩
    rw [hmeter.foldl_drop, hk.count]
    exact Nat.sub_le _ _
  | closed ho hft hs hrs hpid hofds hsocks =>
    have hshut := sum_closed (f := fun _ => 0) (g := (·.shutEnds.count (.pipe idx e)))
      (fun _ => rfl) (fun _ => rfl) ho hs hofds hsocks
    refine ⟨?_, (Nat.le_add_right _ _).trans hshut.ge⟩
    rw [hmeter.foldl_drop]
    exact Nat.sub_le _ _
  | stale ho hft hs hpid hofds hsocks =>
    exact ⟨le_rfl, (sum_removed (f := fun _ => 0) (fun _ => rfl) (fun _ => rfl) ho hofds
      hsocks).ge⟩
  | added hfree hgain hpid hofds hsocks =>
    exact ⟨hgain.count_pipe.1.le, (sum_added (f := fun _ => 0) (fun _ => rfl)
      (fun _ => rfl) hfree hofds hsocks).le⟩

/-- Moves open no end of a pipe. -/
theorem Moves.pipes_le (h : Moves H c c') (idx : ℕ) (e : PipeEnd) :
    c'.kernel.count (.pipe idx e) ≤ c.kernel.count (.pipe idx e) := by
  induction h with
  | refl => exact le_rfl
  | tail _ hmove ih => exact (hmove.pipes_le idx e).1.trans ih

/-- **Count and holders of a pipe end move together**, if the ends that the process has
shut down are dead. -/
theorem Move.pipeFlow (h : Move H c c') (hdead : c.ShutDead) :
    HolderFlow (c.kernel.count (.pipe idx e)) (c.proc.pipeHolds (.pipe idx e))
      (c'.kernel.count (.pipe idx e)) (c'.proc.pipeHolds (.pipe idx e)) := by
  have hmeter := Kernel.meter_count (.pipe idx e)
  cases h with
  | alike hk hp =>
    exact .of_eq (hk.count _)
      (sum_alike (fun _ => rfl) (fun _ => rfl) hp.ofds hp.socks)
  | @removed k p i o rs hk ho hft hrs hpid hofds hsocks =>
    have hheld : c.proc.pipeHolds (.pipe idx e) =
        p.pipeHolds (.pipe idx e) + o.pipeEnds.count (.pipe idx e) :=
      sum_removed (fun _ => rfl) (fun _ => rfl) ho hofds hsocks
    refine .sub ?_ hheld
    rw [hmeter.foldl_drop, hk.count, hrs _ (by simp), count_resources_pipe]
  | @closed p i o s rs ho hft hs hrs hpid hofds hsocks =>
    have hheld : c.proc.pipeHolds (.pipe idx e) = p.pipeHolds (.pipe idx e) +
        o.pipeEnds.count (.pipe idx e) + s.openEnds.count (.pipe idx e) :=
      sum_closed (fun _ => rfl) (fun _ => rfl) ho hs hofds hsocks
    have hshut : c.proc.shutHolds (.pipe idx e) = p.shutHolds (.pipe idx e) +
        0 + s.shutEnds.count (.pipe idx e) :=
      sum_closed (fun _ => rfl) (fun _ => rfl) ho hs hofds hsocks
    have hzero := hdead idx e
    rw [count_pipeEnds_of_socket hft] at hheld
    have hcount : (rs.foldl Kernel.drop c.kernel).count (.pipe idx e) =
        c.kernel.count (.pipe idx e) -
          (s.openEnds.count (.pipe idx e) + s.shutEnds.count (.pipe idx e)) := by
      rw [hmeter.foldl_drop, hrs.count_eq, SocketInfo.count_resources_pipe]
    -- what was shut down is dropped a second time, which a dead pipe does not notice
    show HolderFlow _ _ ((rs.foldl Kernel.drop c.kernel).count _) (p.pipeHolds _)
    rw [hcount]
    exact ⟨fun _ => by omega, fun _ => by omega⟩
  | @stale p i o ho hft hs hpid hofds hsocks =>
    have hheld : c.proc.pipeHolds (.pipe idx e) =
        p.pipeHolds (.pipe idx e) + o.pipeEnds.count (.pipe idx e) :=
      sum_removed (fun _ => rfl) (fun _ => rfl) ho hofds hsocks
    rw [count_pipeEnds_of_socket hft, add_zero] at hheld
    exact .of_eq rfl hheld.symm
  | @added k p i o hfree hgain hpid hofds hsocks =>
    have hheld : p.pipeHolds (.pipe idx e) =
        c.proc.pipeHolds (.pipe idx e) + o.pipeEnds.count (.pipe idx e) :=
      sum_added (fun _ => rfl) (fun _ => rfl) hfree hofds hsocks
    rw [hgain.count_pipe.2, add_zero] at hheld
    exact .of_eq hgain.count_pipe.1 hheld

/-- Moves keep the ends that are shut dead. -/
theorem Moves.shutDead (h : Moves H c c') (hdead : c.ShutDead) : c'.ShutDead := by
  induction h with
  | refl => exact hdead
  | tail _ hmove ih =>
    intro idx e hpos
    have hle := hmove.pipes_le idx e
    have := ih idx e (by omega)
    omega

/-- Moves let the count of an end flow with its open holders. -/
theorem Moves.pipeFlow (h : Moves H c c') (hdead : c.ShutDead) :
    HolderFlow (c.kernel.count (.pipe idx e)) (c.proc.pipeHolds (.pipe idx e))
      (c'.kernel.count (.pipe idx e)) (c'.proc.pipeHolds (.pipe idx e)) := by
  induction h with
  | refl => exact .refl _ _
  | tail hmoves hmove ih => exact ih.trans (hmove.pipeFlow (Moves.shutDead hmoves hdead))

end Moves

/-! ### The state that one process sees -/

/-- The shared state and one process, when all is well with pipes. -/
structure Ctx.PipesSound (c : Ctx) : Prop where
  ok : c.Ok
  wf : c.kernel.pipes.Wf
  paired : c.proc.Paired
  covered : ∀ idx e, c.proc.pipeHolds (.pipe idx e) ≤ c.kernel.count (.pipe idx e)

/-- All is still well with pipes, and the counts moved with the holders. -/
structure Ctx.KeepsPipes (c c' : Ctx) : Prop where
  ok : c'.Ok
  wf : c'.kernel.pipes.Wf
  paired : c'.proc.Paired
  balance : ∀ idx e, c'.kernel.count (.pipe idx e) + c.proc.pipeHolds (.pipe idx e) =
    c.kernel.count (.pipe idx e) + c'.proc.pipeHolds (.pipe idx e)

/-- Dropping a resource keeps the pipes well formed. -/
theorem Kernel.wf_drop {k : Kernel} (h : k.pipes.Wf) (r : Resource) : (k.drop r).pipes.Wf := by
  cases r with
  | pipe i e => exact h.dropEnd i e
  | pty | backlog => exact h
  | hostFile | net =>
    simp only [drop]
    split <;> exact h

/-- So does dropping several. -/
theorem Kernel.wf_foldl_drop {k : Kernel} (h : k.pipes.Wf) (rs : List Resource) :
    (rs.foldl drop k).pipes.Wf := by
  induction rs generalizing k with
  | nil => exact h
  | cons r rs ih => exact ih (wf_drop h r)

/-- So does taking several. -/
theorem Kernel.wf_foldl_take {k : Kernel} (h : k.pipes.Wf) (rs : List Resource) :
    (rs.foldl take k).pipes.Wf := by
  induction rs generalizing k with
  | nil => exact h
  | cons r rs ih =>
    refine ih ?_
    cases r with
    | pipe i => exact h.modify i _
    | _ => exact h

/-- Like states have the same pipes. -/
theorem Kernel.Alike.pipes {k k' : Kernel} (h : k.Alike k') : k'.pipes = k.pipes := by
  obtain ⟨_, _, _, -, rfl⟩ := h
  rfl

/-- A move keeps the pipes well formed. -/
theorem Move.wf {H : HostIO} {c c' : Ctx} (h : Move H c c') (hwf : c.kernel.pipes.Wf) :
    c'.kernel.pipes.Wf := by
  cases h with
  | alike hk => rwa [hk.pipes]
  | removed hk => exact Kernel.wf_foldl_drop (by rwa [hk.pipes]) _
  | closed => exact Kernel.wf_foldl_drop hwf _
  | stale => exact hwf
  | added _ hgain => cases hgain <;> exact hwf

/-- So do moves. -/
theorem Moves.wf {H : HostIO} {c c' : Ctx} (h : Moves H c c') (hwf : c.kernel.pipes.Wf) :
    c'.kernel.pipes.Wf := by
  induction h with
  | refl => exact hwf
  | tail _ hmove ih => exact hmove.wf ih

namespace Ctx.PipesSound

variable {H : HostIO} {c c' : Ctx}

/-- **Descriptor calls** keep all well. -/
theorem moves (h : c.PipesSound) (hdead : c.ShutDead) (hproc : Proceeds H c c') :
    c.KeepsPipes c' := by
  obtain ⟨hmoves, hok⟩ := hproc h.ok
  exact ⟨hok, hmoves.wf h.wf, hmoves.paired h.paired, fun idx e =>
    (hmoves.pipeFlow hdead).exact (h.covered idx e)⟩

/-- A call that leaves a like process keeps the counts. -/
theorem alike (h : c.PipesSound) (hk : c'.kernel = c.kernel) (hp : c.proc.Alike c'.proc)
    (hpos : c'.proc.ofdTable.Positive) : c.KeepsPipes c' where
  ok := ⟨by rw [hk]; exact h.ok.centralized, hpos⟩
  wf := by rw [hk]; exact h.wf
  paired := h.paired.congr hp.ofds hp.socks
  balance idx e := by
    have hsame : c'.proc.pipeHolds (.pipe idx e) = c.proc.pipeHolds (.pipe idx e) :=
      sum_alike (fun _ => rfl) (fun _ => rfl) hp.ofds hp.socks
    rw [hk, hsame]

end Ctx.PipesSound

/-! ### Creating pipes -/

/-- What follows leaves the shared state, the descriptions and the sockets alone. -/
theorem Ctx.KeepsPipes.frame {c c₁ c₂ : Ctx} (h : c.KeepsPipes c₁)
    (hk : c₂.kernel = c₁.kernel) (hofds : c₂.proc.ofdTable = c₁.proc.ofdTable)
    (hsockets : c₂.proc.sockets = c₁.proc.sockets) : c.KeepsPipes c₂ where
  ok := ⟨by rw [hk]; exact h.ok.centralized, by rw [hofds]; exact h.ok.positive⟩
  wf := by rw [hk]; exact h.wf
  paired := h.paired.congr (funext fun i => by rw [ofds, ofds, hofds])
    (funext fun i => by rw [socks, socks, hsockets])
  balance idx e := by
    rw [hk, h.balance idx e]
    simp [pipeHolds, sum, hofds, hsockets]

/-- Whether a process will be handed a pipe that it inherited. -/
def Process.Replays (p : Process) : Prop := p.forkChild = true ∧ p.forkPipeReplay ≠ []

/-- The description of a pipe has the end its flags name. -/
theorem pipeEnds_pipeOfd (idx : ℕ) (flags : UInt32) :
    (pipeOfd idx flags).pipeEnds = [.pipe idx (pipeEndOf flags)] := by
  rw [pipeEnds]
  simp [pipeOfd, fresh, slotHandle_neg]

/-- A new pipe in the global table with its two descriptions, before they have
descriptors. -/
def placedPipe (c : Ctx) : Ctx :=
  let made := c.kernel.pipes.alloc (.new DEFAULT_PIPE_CAPACITY)
  (c.updKernel fun k => { k with pipes := made.2 }).updProc fun p =>
    { p with ofdTable := ((c.proc.ofdTable.alloc (pipeOfd made.1 O_RDONLY)).2.alloc
        (pipeOfd made.1 O_WRONLY)).2 }

/-- A pipe is created with both descriptors, if two numbers are free. -/
theorem sysPipe_of_free {c : Ctx} (hmode : c.kernel.centralized = true) (hnew : ¬ c.proc.Replays)
    (hfree : 2 ≤ c.proc.fdTable.freeNumbers.length) :
    ∃ t, (sysPipe c).2 = (placedPipe c).updProc fun p => { p with fdTable := t } := by
  obtain ⟨fd₀, fd₁, t₀, t₁, hfirst, hsecond⟩ := allocFd_twice (c := placedPipe c) hfree
    (c.proc.ofdTable.alloc (pipeOfd (c.kernel.pipes.alloc (.new DEFAULT_PIPE_CAPACITY)).1
      O_RDONLY)).1
    ((c.proc.ofdTable.alloc (pipeOfd (c.kernel.pipes.alloc (.new DEFAULT_PIPE_CAPACITY)).1
      O_RDONLY)).2.alloc (pipeOfd (c.kernel.pipes.alloc (.new DEFAULT_PIPE_CAPACITY)).1
        O_WRONLY)).1 0 0
  refine ⟨t₁, ?_⟩
  rw [sysPipe.eq_def]
  split
  next fds rest hchild hrest => exact absurd ⟨hchild, by simp [hrest]⟩ hnew
  simp only [placedPipe] at hfirst hsecond ⊢
  simp only [allocPipe, hmode, if_true, Ctx.updKernel_proc]
  rw [hfirst]
  simp [hsecond]

/-- Two descriptions bring the ends of both. -/
theorem Process.pipeHolds_alloc₂ {p q : Process} {a b : OpenFileDesc}
    (hofds : q.ofdTable = ((p.ofdTable.alloc a).2.alloc b).2) (hsockets : q.sockets = p.sockets)
    (r : Resource) : q.pipeHolds r = p.pipeHolds r + a.pipeEnds.count r + b.pipeEnds.count r := by
  rw [pipeHolds, pipeHolds, sum, sum, hofds, hsockets, total_alloc, total_alloc]
  omega

/-- A new pipe has one end of each kind. -/
theorem PipeTable.ends_alloc_new {t : PipeTable} (hwf : t.Wf) (n idx : ℕ) (e : PipeEnd) :
    (t.alloc (.new n)).2.ends idx e = t.ends idx e +
      ([Resource.pipe (t.alloc (.new n)).1 .read, .pipe (t.alloc (.new n)).1 .write].count
        (.pipe idx e)) := by
  rw [ends_alloc hwf]
  congr 1
  split_ifs with hidx
  · rw [← hidx]
    cases e <;> simp [PipeBuffer.count, PipeBuffer.new]
  · rw [eq_comm, List.count_eq_zero]
    simp [Resource.pipe.injEq, hidx]

namespace Ctx.PipesSound

variable {c : Ctx}

/-- **A new pipe** comes with the two descriptions that its counts stand for. -/
theorem placedPipe (h : c.PipesSound) : c.KeepsPipes (placedPipe c) where
  ok := ⟨h.ok.centralized, (h.ok.positive.alloc rfl).alloc rfl⟩
  wf := h.wf.alloc _
  paired := by
    have hne : ∀ idx flags, (pipeOfd idx flags).fileType ≠ .Socket := fun _ _ => by simp [pipeOfd,
      fresh]
    have hread : ({ c.proc with ofdTable := (c.proc.ofdTable.alloc (pipeOfd
        (c.kernel.pipes.alloc (.new DEFAULT_PIPE_CAPACITY)).1 O_RDONLY)).2 } : Process).Paired :=
      h.paired.alloc (hne _ _) rfl rfl
    exact hread.alloc (hne _ _) rfl rfl
  balance idx e := by
    have hcount := PipeTable.ends_alloc_new h.wf DEFAULT_PIPE_CAPACITY idx e
    have hheld := pipeHolds_alloc₂ (p := c.proc) (q := (PosixKernel.placedPipe c).proc)
      rfl rfl (.pipe idx e)
    rw [pipeEnds_pipeOfd, pipeEnds_pipeOfd, add_assoc, ← List.count_append] at hheld
    rw [hheld]
    show (c.kernel.pipes.alloc (.new DEFAULT_PIPE_CAPACITY)).2.ends idx e + _ = _
    rw [hcount]
    exact (Nat.add_right_comm _ _ _).trans (Nat.add_assoc _ _ _)

/-- Making a pipe keeps the counts. -/
theorem sysPipe (h : c.PipesSound)
    (hroom : c.proc.Replays ∨ 2 ≤ c.proc.fdTable.freeNumbers.length) :
    c.KeepsPipes (sysPipe c).2 := by
  by_cases hrep : c.proc.Replays
  · obtain ⟨hchild, hne⟩ := hrep
    obtain ⟨fds, rest, hrest⟩ := List.exists_cons_of_ne_nil hne
    have heq : (PosixKernel.sysPipe c).2 =
        c.updProc fun p => { p with forkPipeReplay := rest } := by
      rw [PosixKernel.sysPipe, hchild, hrest]
    rw [heq]
    exact h.alike rfl ⟨rfl, rfl, rfl⟩ h.ok.positive
  obtain ⟨t, heq⟩ := sysPipe_of_free h.ok.centralized hrep (hroom.resolve_left hrep)
  rw [heq]
  exact h.placedPipe.frame rfl rfl rfl

end Ctx.PipesSound

/-! ### Creating and shutting down sockets -/

/-- A paired socket writes to one buffer and reads from the other. -/
theorem openEnds_pairedSocket (sendBuf recvBuf peer : ℕ) :
    (pairedSocket sendBuf recvBuf peer).openEnds =
      [.pipe sendBuf .write, .pipe recvBuf .read] := rfl

namespace Ctx.PipesSound

variable {c : Ctx}

/-- **A new pair of sockets** holds the two pipes that come with it. -/
theorem placedSockets (h : c.PipesSound) (flags : UInt32) :
    c.KeepsPipes (placedSockets c flags) where
  ok := ⟨h.ok.centralized, (h.ok.positive.alloc rfl).alloc rfl⟩
  wf := (h.wf.alloc _).alloc _
  paired := by
    simp only [PosixKernel.placedSockets]
    generalize c.kernel.pipes.alloc (.new DEFAULT_PIPE_CAPACITY) = ab
    generalize ab.2.alloc (.new DEFAULT_PIPE_CAPACITY) = ba
    generalize hb : ((c.proc.sockets.alloc (pairedSocket ab.1 ba.1 0)).2.alloc
      (pairedSocket ba.1 ab.1 (c.proc.sockets.alloc (pairedSocket ab.1 ba.1 0)).1)).1 = b
    have hfirst : ({ c.proc with
        ofdTable := (c.proc.ofdTable.alloc (socketOfd c.proc.sockets.nextIdx flags)).2
        sockets := (c.proc.sockets.alloc (pairedSocket ab.1 ba.1 b)).2 } : Process).Paired :=
      h.paired.allocSocket flags rfl rfl rfl
    -- the second socket goes to the slot that was found with the first one in place
    have hslot : b = (c.proc.sockets.alloc (pairedSocket ab.1 ba.1 b)).2.nextIdx :=
      hb.symm.trans (nextIdx_alloc _ _ _)
    refine hfirst.allocSocket (s := pairedSocket ba.1 ab.1
      (c.proc.sockets.alloc (pairedSocket ab.1 ba.1 0)).1) flags rfl ?_ rfl
    show ((c.proc.ofdTable.alloc _).2.alloc (socketOfd b flags)).2 = _
    rw [← hslot]
    rfl
  balance idx e := by
    have hab := PipeTable.ends_alloc_new h.wf DEFAULT_PIPE_CAPACITY idx e
    have hba := PipeTable.ends_alloc_new (h.wf.alloc (.new DEFAULT_PIPE_CAPACITY))
      DEFAULT_PIPE_CAPACITY idx e
    have hofd : ∀ i, (socketOfd i flags).pipeEnds.count (.pipe idx e) = 0 :=
      fun i => count_pipeEnds_of_socket rfl
    simp only [PosixKernel.placedSockets, Kernel.count, Ctx.updProc_kernel, Ctx.updKernel_kernel,
      Ctx.updProc_proc, pipeHolds, sum, total_alloc, hofd,
      openEnds_pairedSocket, hba, hab, List.count_cons, List.count_nil]
    omega

/-- Making a pair of sockets keeps the counts. -/
theorem sysSocketpair (h : c.PipesSound) (domain sockType : UInt32) :
    c.KeepsPipes (sysSocketpair c domain sockType).2 := by
  rcases sysSocketpair_cases c domain sockType with ⟨-, heq⟩ | ⟨-, flags, t, heq⟩
  · rw [heq]
    exact h.alike rfl (.refl _) h.ok.positive
  · rw [heq]
    exact (h.placedSockets flags).frame rfl rfl rfl

end Ctx.PipesSound

/-- Whether a shutdown closes exactly the ends of the directions that it shuts: receiving
is never closed by itself, and what is shut already is closed again. -/
def Process.ShutsOnce (p : Process) (fd : ℤ) (how : UInt32) : Prop :=
  match socketOf p fd with
  | .error _ => True
  | .ok (_, s) => s.globalPipes = true →
      (how = SHUT_RD → s.shutRd = true ∨ s.recvBufIdx = none) ∧
      (how = SHUT_WR → s.shutWr = false) ∧
      (how = SHUT_RDWR → s.shutRd = false ∧ s.shutWr = false)

/-- The end of a socket's buffer, if it is in the global table. -/
def globalEnd (g : Bool) (buf : Option ℕ) (e : PipeEnd) : List Resource :=
  if g then buf.toList.map (.pipe · e) else []

section ShutBuffer

variable (g : Bool) (c : Ctx) (buf : Option ℕ) (e : PipeEnd)

/-- Shutting a buffer leaves the tables of the process and the mode. -/
theorem shutBuffer_tables : (shutBuffer g c buf e).proc.ofdTable = c.proc.ofdTable ∧
      (shutBuffer g c buf e).proc.sockets = c.proc.sockets ∧
      (shutBuffer g c buf e).kernel.centralized = c.kernel.centralized := by
  rcases buf with _ | idx
  · exact ⟨rfl, rfl, rfl⟩
  · cases g <;> exact ⟨rfl, rfl, rfl⟩

/-- It keeps the pipes well formed. -/
theorem wf_shutBuffer (h : c.kernel.pipes.Wf) : (shutBuffer g c buf e).kernel.pipes.Wf := by
  rcases buf with _ | idx
  · exact h
  cases g with
  | true => exact h.modify idx _
  | false => exact h

/-- It takes one from the count of the end it shuts. -/
theorem count_shutBuffer (i : ℕ) (e' : PipeEnd) : (shutBuffer g c buf e).kernel.count (.pipe i e') =
      c.kernel.count (.pipe i e') - (globalEnd g buf e).count (.pipe i e') := by
  rcases buf with _ | idx
  · cases g <;> rfl
  cases g with
  | false => rfl
  | true =>
    refine (PipeTable.ends_modify_closeEnd c.kernel.pipes idx e i e').trans ?_
    simp only [globalEnd, if_true, Option.toList_some, List.map_cons, List.map_nil,
      List.count_singleton, Kernel.count]
    by_cases h : i = idx ∧ e' = e
    · rw [if_pos h, h.1, h.2, beq_self_eq_true, if_pos rfl]
    rw [if_neg h, if_neg]
    · rfl
    intro heq
    cases beq_iff_eq.mp heq
    exact h ⟨rfl, rfl⟩

end ShutBuffer

namespace Ctx.PipesSound

variable {c c' : Ctx} {idx : ℕ} {s : SocketInfo} {f : SocketInfo → SocketInfo}
  {l : List Resource}

/-- A change of a socket together with closing the ends that it gives up. -/
theorem modifySocket (h : c.PipesSound) (hs : c.proc.sockets.get idx = some s)
    (hback : ∀ s, (f s).listenBacklog = s.listenBacklog)
    (hofds : c'.proc.ofdTable = c.proc.ofdTable)
    (hsockets : c'.proc.sockets = c.proc.sockets.modify idx f)
    (hmode : c'.kernel.centralized = c.kernel.centralized) (hwf : c'.kernel.pipes.Wf)
    (hcount : ∀ i e, c'.kernel.count (.pipe i e) =
      c.kernel.count (.pipe i e) - l.count (.pipe i e))
    (hends : ∀ i e, s.openEnds.count (.pipe i e) =
      (f s).openEnds.count (.pipe i e) + l.count (.pipe i e)) : c.KeepsPipes c' where
  ok := ⟨hmode.trans h.ok.centralized, by rw [hofds]; exact h.ok.positive⟩
  wf := hwf
  paired := h.paired.modifySocket hback hofds hsockets
  balance i e := by
    have hsum := total_modify c.proc.sockets (·.openEnds.count (.pipe i e)) idx f
    have hcov := h.covered i e
    have hcnt := hcount i e
    have hend := hends i e
    rw [hs, Option.map_some, weight_some, weight_some] at hsum
    simp only [pipeHolds, sum, hofds, hsockets] at hcov ⊢
    omega

/-- **A shutdown** of directions that were open keeps all well. -/
theorem sysShutdown (h : c.PipesSound) {fd : ℤ} {how : UInt32}
    (honce : c.proc.ShutsOnce fd how) : c.KeepsPipes (sysShutdown c fd how).2 := by
  have hsame : c.KeepsPipes c := h.alike rfl (.refl _) h.ok.positive
  rw [PosixKernel.sysShutdown]
  rw [Process.ShutsOnce] at honce
  rcases hsock : socketOf c.proc fd with e | ⟨idx, s⟩
  · exact hsame
  rw [hsock] at honce
  have hs := socketOf_eq_ok hsock
  simp only
  split
  next hrd =>
    refine h.modifySocket (f := fun s => { s with shutRd := true }) (l := []) hs
      (fun _ => rfl) rfl rfl rfl h.wf (fun _ _ => rfl) ?_
    intro i e
    simp only [SocketInfo.openEnds]
    by_cases hg : s.globalPipes = true
    · rcases (honce hg).1 hrd with hshut | hnone
      · simp [hshut]
      · simp [hnone]
    · simp [hg]
  split
  next hwr =>
    have htab := shutBuffer_tables s.globalPipes
      (c.updSocket idx fun s => { s with shutWr := true }) s.sendBufIdx .write
    refine h.modifySocket (f := fun s => { s with shutWr := true })
      (l := globalEnd s.globalPipes s.sendBufIdx .write) hs (fun _ => rfl) htab.1 htab.2.1
      htab.2.2 (wf_shutBuffer _ _ _ _ h.wf) (fun i e => count_shutBuffer _ _ _ _ i e) ?_
    intro i e
    simp only [SocketInfo.openEnds, globalEnd]
    by_cases hg : s.globalPipes = true
    · simp [hg, (honce hg).2.1 hwr, Nat.add_comm]
    · simp [hg]
  split
  next hrdwr =>
    generalize hopen :
      (c.updSocket idx fun s => { s with shutRd := true, shutWr := true }) = c₀
    have hnet : ∃ log, shutNetHandle c₀ s.hostNetHandle =
        c₀.updKernel fun k => { k with log := log } := by
      rcases s.hostNetHandle with _ | n
      · exact ⟨c₀.kernel.log, rfl⟩
      · exact ⟨_, rfl⟩
    obtain ⟨log, hnet⟩ := hnet
    rw [hnet]
    have hw := shutBuffer_tables s.globalPipes (c₀.updKernel fun k => { k with log := log })
      s.sendBufIdx .write
    have hr := shutBuffer_tables s.globalPipes
      (shutBuffer s.globalPipes (c₀.updKernel fun k => { k with log := log })
        s.sendBufIdx .write)
      s.recvBufIdx .read
    rw [← hopen] at hw hr ⊢
    refine h.modifySocket (f := fun s => { s with shutRd := true, shutWr := true })
      (l := globalEnd s.globalPipes s.sendBufIdx .write ++
        globalEnd s.globalPipes s.recvBufIdx .read) hs (fun _ => rfl) (hr.1.trans hw.1)
      (hr.2.1.trans hw.2.1) (hr.2.2.trans hw.2.2)
      (wf_shutBuffer _ _ _ _ (wf_shutBuffer _ _ _ _ h.wf)) (fun i e => ?_) ?_
    · rw [count_shutBuffer, count_shutBuffer, List.count_append, Nat.sub_sub]
      rfl
    intro i e
    simp only [SocketInfo.openEnds, globalEnd]
    by_cases hg : s.globalPipes = true
    · simp [hg, (honce hg).2.2 hrdwr]
    · simp [hg]
  · exact hsame

end Ctx.PipesSound

end PosixKernel
