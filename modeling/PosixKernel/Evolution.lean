import PosixKernel.HostLedger
import PosixKernel.Standing

/-!
# Calls That Make No Moves

Creating pipes, sockets and other objects, the calls on sockets, and those on positions:
the descriptions they add hold no host file, those they change refer to what they referred
to before, and no count of a host file moves.

## Main results

* `Call.quiet` — every call that is not a sequence of moves;
* `Call.standing` — no call changes the standing of its process;
* `OfdTable.Evolves.execImage` — the descriptions that an exec rebuilds.
-/

namespace PosixKernel

/-! ### Tables of descriptions -/

/-- What a description became: what it refers to stays, and so does being referred to. -/
structure OpenFileDesc.Becomes (o o' : OpenFileDesc) : Prop where
  fileType : o'.fileType = o.fileType
  hostHandle : o'.hostHandle = o.hostHandle
  positive : 0 < o.refCount → 0 < o'.refCount

/-- Every description is one there was, or has a handle that is not the host's. -/
def OfdTable.Evolves (t t' : OfdTable) : Prop :=
  ∀ i o', t'.get i = some o' →
    (0 < o'.refCount ∧ o'.hostHandle < 0) ∨ ∃ j o, t.get j = some o ∧ o.Becomes o'

namespace OfdTable.Evolves

variable {t t' t'' : OfdTable}

/-- A table evolves into itself. -/
theorem refl (t : OfdTable) : OfdTable.Evolves t t :=
  fun i o' ho => .inr ⟨i, o', ho, rfl, rfl, id⟩

/-- Evolutions compose. -/
theorem trans (h : OfdTable.Evolves t t') (h' : OfdTable.Evolves t' t'') :
    OfdTable.Evolves t t'' := by
  intro i o'' ho''
  rcases h' i o'' ho'' with hnew | ⟨j, o', ho', hft', hhandle', hpos'⟩
  · exact .inl hnew
  rcases h j o' ho' with ⟨hpos, hneg⟩ | ⟨j', o, ho, hft, hhandle, hpos⟩
  · exact .inl ⟨hpos' hpos, by rwa [hhandle']⟩
  · exact .inr ⟨j', o, ho, hft'.trans hft, hhandle'.trans hhandle, fun h => hpos' (hpos h)⟩

/-- A new description without a handle of the host's is an evolution. -/
theorem alloc (t : OfdTable) {o : OpenFileDesc} (hcount : o.refCount = 1)
    (hneg : o.hostHandle < 0) : OfdTable.Evolves t (t.alloc o).2 := by
  exact SlotTable.forall_put (.inl ⟨by omega, hneg⟩) (refl t)

/-- Dropping a reference is an evolution. -/
theorem decRef (t : OfdTable) (j : ℕ) : OfdTable.Evolves t (t.decRef j).2 := by
  intro i o' ho'
  rcases hj : t.get j with _ | o
  · rw [OfdTable.decRef_of_free hj] at ho'
    exact refl t i o' ho'
  rw [OfdTable.get_decRef hj] at ho'
  split at ho'
  · split at ho'
    · cases ho'
    next hne =>
      cases ho'
      exact .inr ⟨j, o, hj, rfl, rfl, fun _ => Nat.pos_of_ne_zero hne⟩
  · exact refl t i o' ho'

/-- So is changing what does not name the description's object. -/
theorem modify (t : OfdTable) (j : ℕ) {f : OpenFileDesc → OpenFileDesc}
    (hf : ∀ o : OpenFileDesc, o.Becomes (f o)) : OfdTable.Evolves t (SlotTable.modify t j f) := by
  intro i o' ho'
  rw [SlotTable.get_modify] at ho'
  split at ho'
  · obtain ⟨o, ho, rfl⟩ := Option.map_eq_some_iff.mp ho'
    exact .inr ⟨j, o, ho, hf o⟩
  · exact refl t i o' ho'

end OfdTable.Evolves

/-- The table after an exec evolved from the one before. -/
theorem OfdTable.Evolves.execImage {p : Process} (h : ∀ i o, p.ofdTable.get i = some o → o.Fits)
    (pid : ℕ) : OfdTable.Evolves p.ofdTable (execImage p pid).ofdTable := by
  intro i o' ho'
  have hmem := SlotTable.mem_of_get_ofEntries ho'
  obtain ⟨e, he, heq⟩ := List.mem_map.mp hmem
  cases heq
  have hget := SlotTable.mem_entries.mp (List.mem_filter.mp he).1
  rw [(h e.1 e.2 hget).ofdImage]
  exact .inr ⟨e.1, e.2, hget, rfl, rfl, id⟩

/-! ### Contexts -/

/-- The shared state after calls that touch no count of a host file. -/
structure Kernel.Tame (k k' : Kernel) : Prop where
  centralized : k'.centralized = k.centralized
  refs : k'.hostHandleRefs = k.hostHandleRefs
  log : k.log <:+ k'.log

namespace Kernel.Tame

variable {k k' k'' : Kernel}

/-- A shared state is tame towards itself. -/
theorem refl (k : Kernel) : k.Tame k := ⟨rfl, rfl, List.suffix_rfl⟩

/-- Tame changes compose. -/
theorem trans (h : k.Tame k') (h' : k'.Tame k'') : k.Tame k'' :=
  ⟨h'.centralized.trans h.centralized, h'.refs.trans h.refs, h.log.trans h'.log⟩

/-- A host call in the log is tame. -/
theorem logCall (k : Kernel) (call : HostCall) : k.Tame (k.logCall call) :=
  ⟨rfl, rfl, List.suffix_cons _ _⟩

end Kernel.Tame

/-- A context after a call that makes no moves. -/
structure Ctx.Tame (c c' : Ctx) : Prop where
  kernel : c.kernel.Tame c'.kernel
  ofds : OfdTable.Evolves c.proc.ofdTable c'.proc.ofdTable
  actions : c'.proc.forkFdActions = c.proc.forkFdActions

/-- The same with the whole standing of the process. -/
structure Ctx.Quiet (c c' : Ctx) : Prop where
  kernel : c.kernel.Tame c'.kernel
  ofds : OfdTable.Evolves c.proc.ofdTable c'.proc.ofdTable
  standing : c'.proc.standing = c.proc.standing

/-- What is quiet is tame. -/
theorem Ctx.Quiet.tame {c c' : Ctx} (h : c.Quiet c') : c.Tame c' :=
  ⟨h.kernel, h.ofds, Process.actions_of_standing h.standing⟩

namespace Ctx.Quiet

variable {c c' c'' : Ctx}

/-- Doing nothing is quiet. -/
theorem refl (c : Ctx) : c.Quiet c := ⟨.refl _, .refl _, rfl⟩

/-- Quiet calls after one another are quiet. -/
theorem trans (h : c.Quiet c') (h' : c'.Quiet c'') : c.Quiet c'' :=
  ⟨h.kernel.trans h'.kernel, h.ofds.trans h'.ofds, h'.standing.trans h.standing⟩

/-- A host call in the log is quiet. -/
theorem logCall (c : Ctx) (call : HostCall) : c.Quiet (c.logCall call) :=
  ⟨.logCall _ call, .refl _, rfl⟩

/-- Changes of the process that do not concern its descriptions. -/
theorem proc (hkernel : c'.kernel = c.kernel) (hofds : c'.proc.ofdTable = c.proc.ofdTable)
    (hstanding : c'.proc.standing = c.proc.standing) : c.Quiet c' := by
  refine ⟨?_, ?_, hstanding⟩
  · rw [hkernel]
    exact .refl _
  · rw [hofds]
    exact .refl _

/-- So is a change of the process beside its descriptions and its standing. -/
theorem updProc (c : Ctx) {f : Process → Process}
    (hf : ∀ p, (f p).ofdTable = p.ofdTable ∧ (f p).standing = p.standing) : c.Quiet (c.updProc f) :=
  .proc rfl (hf c.proc).1 (hf c.proc).2

/-- Changes of the shared state that show neither in a count of a host file nor in the
log. -/
theorem updKernel (c : Ctx) {f : Kernel → Kernel}
    (hf : ∀ k, (f k).centralized = k.centralized ∧ (f k).hostHandleRefs = k.hostHandleRefs ∧
      (f k).log = k.log) : c.Quiet (c.updKernel f) := by
  obtain ⟨hmode, hrefs, hlog⟩ := hf c.kernel
  exact ⟨⟨hmode, hrefs, by rw [Ctx.updKernel_kernel, hlog]⟩, .refl _, rfl⟩

/-- So is a change of a description that stays what it is. -/
theorem updOfd (c : Ctx) (idx : ℕ) {f : OpenFileDesc → OpenFileDesc}
    (hf : ∀ o : OpenFileDesc, o.Becomes (f o)) : c.Quiet (c.updOfd idx f) :=
  ⟨.refl _, .modify _ idx hf, rfl⟩

/-- So is any change of a socket. -/
theorem updSocket (c : Ctx) (idx : ℕ) (f : SocketInfo → SocketInfo) : c.Quiet (c.updSocket idx f) :=
  ⟨.refl _, .refl _, rfl⟩

/-- So is a new descriptor. -/
theorem allocFd (c : Ctx) (ofdRef : ℕ) (fdFlags : UInt32) :
    c.Quiet (allocFd c ofdRef fdFlags).2 := by
  rw [PosixKernel.allocFd]
  rcases c.proc.fdTable.alloc ofdRef fdFlags with e | ⟨fd, t⟩
  · exact .refl c
  · exact .proc rfl rfl rfl

/-- So is a new description without a handle of the host's. -/
theorem allocOfd (c : Ctx) {o : OpenFileDesc} (hcount : o.refCount = 1)
    (hneg : o.hostHandle < 0) :
    c.Quiet (c.updProc fun p => { p with ofdTable := (p.ofdTable.alloc o).2 }) :=
  ⟨.refl _, .alloc _ hcount hneg, rfl⟩

end Ctx.Quiet

/-! ### Creating calls -/

/-- What a function may return: a statement about every value of an option. -/
theorem forall_mem_some {α : Type} {a : α} {P : α → Prop} : (∀ x ∈ some a, P x) ↔ P a := by
  simp

/-- Whatever is said of the outcome of a call that does not return holds. -/
theorem forall_mem_none {α : Type} {P : α → Prop} : ∀ x ∈ (none : Option α), P x := by
  simp

section Calls

variable {H : HostIO}

variable (c : Ctx)

/-- A description with its descriptor is made quietly. -/
theorem quiet_newDescriptor {o : OpenFileDesc} (hcount : o.refCount = 1) (hneg : o.hostHandle < 0)
    (fdFlags : UInt32) : c.Quiet (newDescriptor c o fdFlags).2 :=
  (Ctx.Quiet.allocOfd c hcount hneg).trans (.allocFd _ _ _)

/-- A new object with its description and descriptor, or without either. -/
theorem quiet_newDescriptorOrUndo {place undo : Process → Process} {o : OpenFileDesc}
    (hcount : o.refCount = 1) (hneg : o.hostHandle < 0) (fdFlags : UInt32)
    (hplace : ∀ p, (place p).ofdTable = p.ofdTable ∧ (place p).standing = p.standing)
    (hundo : ∀ p, (undo p).ofdTable = p.ofdTable ∧ (undo p).standing = p.standing) :
    c.Quiet (newDescriptorOrUndo undo (c.updProc place) o fdFlags).2 := by
  refine (Ctx.Quiet.updProc c hplace).trans ?_
  generalize c.updProc place = c₁
  have hfd := (Ctx.Quiet.allocOfd c₁ hcount hneg).trans
    (.allocFd _ (c₁.proc.ofdTable.alloc o).1 fdFlags)
  simp only [newDescriptorOrUndo]
  change c₁.Quiet (allocFd (c₁.updProc fun p => { p with ofdTable := (c₁.proc.ofdTable.alloc o).2 })
    (c₁.proc.ofdTable.alloc o).1 fdFlags).2 at hfd
  generalize allocFd (c₁.updProc fun p => { p with ofdTable := (c₁.proc.ofdTable.alloc o).2 })
    (c₁.proc.ofdTable.alloc o).1 fdFlags = r at hfd ⊢
  rcases r with ⟨e | fd, c'⟩
  · obtain ⟨hofds, hstanding⟩ := hundo
      { c'.proc with ofdTable := (c'.proc.ofdTable.decRef (c₁.proc.ofdTable.alloc o).1).2 }
    refine hfd.trans ⟨.refl _, ?_, hstanding⟩
    show OfdTable.Evolves _ (undo _).ofdTable
    rw [hofds]
    exact .decRef _ _
  · exact hfd

/-- Making an event counter is quiet. -/
theorem quiet_sysEventfd2 (initval flags : UInt32) : c.Quiet (sysEventfd2 c initval flags).2 := by
  fun_cases sysEventfd2 with
  | case1 => exact .refl c
  | case2 =>
    refine quiet_newDescriptorOrUndo c rfl (slotHandle_neg _) _ ?_ ?_ <;> exact fun _ => ⟨rfl, rfl⟩

/-- Making an interest list is quiet. -/
theorem quiet_sysEpollCreate1 (flags : UInt32) : c.Quiet (sysEpollCreate1 c flags).2 := by
  fun_cases sysEpollCreate1 with
  | case1 => exact .refl c
  | case2 =>
    refine quiet_newDescriptorOrUndo c rfl (slotHandle_neg _) _ ?_ ?_ <;> exact fun _ => ⟨rfl, rfl⟩

/-- Making a timer is quiet. -/
theorem quiet_sysTimerfdCreate (clockId flags : UInt32) :
    c.Quiet (sysTimerfdCreate c clockId flags).2 := by
  fun_cases sysTimerfdCreate with
  | case1 => exact .refl c
  | case2 =>
    refine quiet_newDescriptorOrUndo c rfl (slotHandle_neg _) _ ?_ ?_ <;> exact fun _ => ⟨rfl, rfl⟩

/-- Changing the mask of a signal descriptor is quiet. -/
theorem quiet_updateSignalfd (fd : ℤ) (mask : UInt64) : c.Quiet (updateSignalfd c fd mask).2 := by
  fun_cases updateSignalfd with
  | case5 => exact .proc rfl rfl rfl
  | _ => exact .refl c

/-- Making or changing a signal descriptor is quiet. -/
theorem quiet_sysSignalfd4 (fd : ℤ) (mask : UInt64) (flags : UInt32) :
    c.Quiet (sysSignalfd4 c fd mask flags).2 := by
  fun_cases sysSignalfd4 with
  | case1 => exact .refl c
  | case2 => exact quiet_updateSignalfd c fd mask
  | case3 =>
    refine quiet_newDescriptorOrUndo c rfl (slotHandle_neg _) _ ?_ ?_ <;> exact fun _ => ⟨rfl, rfl⟩

/-- Making a file in memory is quiet. -/
theorem quiet_sysMemfdCreate (name : Bytes) (flags : UInt32) :
    c.Quiet (sysMemfdCreate c name flags).2 := by
  fun_cases sysMemfdCreate with
  | case1 => exact .refl c
  | case2 =>
    refine Ctx.Quiet.trans ?_ (quiet_newDescriptor _ rfl (slotHandle_neg _) _)
    exact .proc rfl rfl rfl

/-- Two descriptors, one after the other, with what is undone when one cannot be had. -/
theorem quiet_allocFds {c : Ctx} {a b : ℕ} {fa fb : UInt32} {u : Ctx → Ctx} {v : ℤ → Ctx → Ctx}
    (hu : ∀ c : Ctx, c.Quiet (u c)) (hv : ∀ fd, ∀ c : Ctx, c.Quiet (v fd c)) :
    c.Quiet (match allocFd c a fa with
      | (.error e, c) => (.error e, u c)
      | (.ok fd₀, c) =>
        match allocFd c b fb with
        | (.error e, c) => (.error e, v fd₀ c)
        | (.ok fd₁, c) => (.ok (fd₀, fd₁), c) : Except Errno (ℤ × ℤ) × Ctx).2 := by
  have hfirst := Ctx.Quiet.allocFd c a fa
  generalize allocFd c a fa = r at hfirst
  rcases r with ⟨e | fd₀, c₁⟩
  · exact hfirst.trans (hu c₁)
  have hsecond := Ctx.Quiet.allocFd c₁ b fb
  simp only
  generalize allocFd c₁ b fb = r at hsecond
  rcases r with ⟨e | fd₁, c₂⟩
  · exact (hfirst.trans hsecond).trans (hv fd₀ c₂)
  · exact hfirst.trans hsecond

/-- A buffer put into the table of the mode is quiet. -/
theorem quiet_allocPipe (pipe : PipeBuffer) : c.Quiet (allocPipe c pipe).2 := by
  rw [allocPipe]
  split
  · exact ⟨⟨rfl, rfl, List.suffix_rfl⟩, .refl _, rfl⟩
  · exact .proc rfl rfl rfl

/-- Making a pipe is quiet. -/
theorem quiet_sysPipe : c.Quiet (sysPipe c).2 := by
  have hdrop : ∀ (a b : ℕ) (c : Ctx), c.Quiet (c.updProc fun p =>
      { p with ofdTable := ((p.ofdTable.decRef a).2.decRef b).2 }) :=
    fun a b c => ⟨.refl _, (OfdTable.Evolves.decRef _ a).trans (.decRef _ b), rfl⟩
  have hdropFd : ∀ (a b : ℕ) (fd : ℤ) (c : Ctx), c.Quiet (c.updProc fun p =>
      { p with
        fdTable := { p.fdTable with entries := p.fdTable.entries.clear fd.toNat }
        ofdTable := ((p.ofdTable.decRef a).2.decRef b).2 }) :=
    fun a b _ c => ⟨.refl _, (OfdTable.Evolves.decRef _ a).trans (.decRef _ b), rfl⟩
  rw [sysPipe.eq_def]
  split
  · exact .proc rfl rfl rfl
  have hplaced := quiet_allocPipe c (.new DEFAULT_PIPE_CAPACITY)
  generalize allocPipe c (.new DEFAULT_PIPE_CAPACITY) = placed at hplaced ⊢
  refine hplaced.trans (Ctx.Quiet.trans ?_
    (quiet_allocFds (hdrop _ _) fun fd c => hdropFd _ _ fd c))
  exact ⟨.refl _, (OfdTable.Evolves.alloc _ rfl (slotHandle_neg _)).trans
    (.alloc _ rfl (slotHandle_neg _)), rfl⟩

/-- Making a socket is quiet. -/
theorem quiet_sysSocket (domain sockType protocol : UInt32) :
    c.Quiet (sysSocket c domain sockType protocol).2 := by
  fun_cases sysSocket with
  | case1 | case2 => exact .refl c
  | case3 =>
    refine Ctx.Quiet.trans ?_ (quiet_newDescriptor _ rfl (slotHandle_neg _) _)
    exact .proc rfl rfl rfl

/-- Making a pair of sockets is quiet. -/
theorem quiet_sysSocketpair (domain sockType : UInt32) :
    c.Quiet (sysSocketpair c domain sockType).2 := by
  simp only [sysSocketpair]
  split
  · exact .refl c
  split
  · exact .refl c
  refine Ctx.Quiet.trans ?_ (quiet_allocFds (u := id) (v := fun _ => id) (fun c => .refl c)
    fun _ c => .refl c)
  exact ⟨⟨rfl, rfl, List.suffix_rfl⟩, (OfdTable.Evolves.alloc _ rfl (slotHandle_neg _)).trans
    (.alloc _ rfl (slotHandle_neg _)), rfl⟩

/-! ### Calls on sockets -/

/-- Shutting an end of a buffer is quiet. -/
theorem quiet_shutBuffer (g : Bool) (c : Ctx) (buf : Option ℕ) (e : PipeEnd) :
    c.Quiet (shutBuffer g c buf e) := by
  rcases buf with _ | idx
  · exact .refl c
  cases g
  · exact .proc rfl rfl rfl
  · exact ⟨⟨rfl, rfl, List.suffix_rfl⟩, .refl _, rfl⟩

/-- Shutting a connection of the host's is quiet. -/
theorem quiet_shutNetHandle (h : Option Int32) : c.Quiet (shutNetHandle c h) := by
  rcases h with _ | h
  · exact .refl c
  · exact .logCall c _

/-- Shutting a socket down is quiet. -/
theorem quiet_sysShutdown (fd : ℤ) (how : UInt32) : c.Quiet (sysShutdown c fd how).2 := by
  fun_cases sysShutdown with
  | case1 | case5 => exact .refl c
  | case2 => exact .updSocket c _ _
  | case3 => exact (Ctx.Quiet.updSocket c _ _).trans (quiet_shutBuffer _ _ _ _)
  | case4 =>
    exact (((Ctx.Quiet.updSocket c _ _).trans (quiet_shutNetHandle _ _)).trans
      (quiet_shutBuffer _ _ _ _)).trans (quiet_shutBuffer _ _ _ _)

/-- Choosing a port is quiet. -/
theorem quiet_choosePort (port : UInt16) : c.Quiet (choosePort c port).2 := by
  fun_cases choosePort with
  | case1 => exact .proc rfl rfl rfl
  | case2 => exact .refl c

/-- Binding to a path is quiet. -/
theorem quiet_bindUnix (idx : ℕ) (resolved : Bytes) : c.Quiet (bindUnix H c idx resolved).2 := by
  have hopen := Ctx.Quiet.logCall c (.open resolved (O_CREAT ||| O_EXCL ||| O_WRONLY) 0o600
    (H.hostOpen c.kernel.log resolved (O_CREAT ||| O_EXCL ||| O_WRONLY) 0o600))
  simp only [bindUnix]
  generalize H.hostOpen c.kernel.log resolved (O_CREAT ||| O_EXCL ||| O_WRONLY) 0o600 =
    reply at hopen
  rcases reply with e | h
  · cases e <;> exact hopen
  have hclose := hopen.trans (.logCall _ (.close h))
  simp only
  split
  · exact hclose.trans (.logCall _ _)
  · refine hclose.trans (Ctx.Quiet.trans ?_ (.updSocket _ idx _))
    exact .updKernel _ fun _ => ⟨rfl, rfl, rfl⟩

/-- Binding a socket is quiet. -/
theorem quiet_sysBind (fd : ℤ) (addr : Bytes) : c.Quiet (sysBind H c fd addr).2 := by
  fun_cases sysBind with
  | case4 => exact (quiet_choosePort c _).trans (.updSocket _ _ _)
  | case6 => exact quiet_bindUnix c _ _
  | _ => exact .refl c

/-- Making the queue of a listener is quiet. -/
theorem quiet_listenQueue (idx : ℕ) (sock : SocketInfo) : c.Quiet (listenQueue c idx sock) := by
  fun_cases listenQueue with
  | case1 =>
    refine Ctx.Quiet.trans ?_ (.updSocket _ idx _)
    exact .updKernel c fun _ => ⟨rfl, rfl, rfl⟩
  | case2 => exact .refl c

/-- Listening is quiet. -/
theorem quiet_sysListen (fd : ℤ) : c.Quiet (sysListen c fd).2 := by
  fun_cases sysListen with
  | case4 idx sock =>
    have hlisten := (Ctx.Quiet.updSocket c idx fun s => { s with state := .Listening }).trans
      (quiet_listenQueue _ idx sock)
    split
    · exact hlisten.trans (.logCall _ _)
    · exact hlisten
  | _ => exact .refl c

/-- Accepting from the socket's own list is quiet. -/
theorem quiet_acceptLocal (idx : ℕ) (sock : SocketInfo) : c.Quiet (acceptLocal c idx sock).2 := by
  fun_cases acceptLocal with
  | case1 => exact .refl c
  | case2 =>
    exact (Ctx.Quiet.updSocket c idx _).trans (quiet_newDescriptor _ rfl (slotHandle_neg _) _)

/-- Accepting is quiet. -/
theorem quiet_sysAccept (fd : ℤ) : c.Quiet (sysAccept c fd).2 := by
  fun_cases sysAccept with
  | case1 | case2 => exact .refl c
  | case3 =>
    refine Ctx.Quiet.trans ?_ (quiet_newDescriptor _ rfl (slotHandle_neg _) _)
    exact ⟨⟨rfl, rfl, List.suffix_rfl⟩, .refl _, rfl⟩
  | case4 => exact quiet_acceptLocal c _ _

/-- Joining a client and what its listener will accept is quiet. -/
theorem quiet_joinSockets (client listener : ℕ) (accepted : SocketInfo)
    (f : ℕ → SocketInfo → SocketInfo) : c.Quiet (joinSockets c client listener accepted f) := by
  refine Ctx.Quiet.trans ?_ (.updSocket _ _ _)
  refine Ctx.Quiet.trans ?_ (.updSocket _ _ _)
  refine Ctx.Quiet.trans ?_ (.updSocket _ _ _)
  exact .updProc c fun _ => ⟨rfl, rfl⟩

/-- The two buffers of a connection are made quietly. -/
theorem quiet_allocPipePair (p q : PipeBuffer) : c.Quiet (allocPipePair c p q).2 :=
  ⟨.refl _, .refl _, rfl⟩

/-- Connecting to a listener of the process is quiet. -/
theorem quiet_connectLoopback (idx : ℕ) (sock : SocketInfo) (ip : Ipv4) (port : UInt16) :
    c.Quiet (connectLoopback c idx sock ip port).2 := by
  rw [connectLoopback]
  rcases findListener c.proc.sockets port with _ | listenerIdx
  · exact .refl c
  have hpipes := quiet_allocPipePair c (.new 65536) (.new 65536)
  generalize allocPipePair c (.new 65536) (.new 65536) = pipes at hpipes ⊢
  have hport := hpipes.trans (quiet_choosePort pipes.2 sock.bindPort)
  simp only
  generalize choosePort pipes.2 sock.bindPort = chosen at hport ⊢
  exact hport.trans (quiet_joinSockets chosen.2 idx listenerIdx _ _)

/-- Joining to a listener at a path is quiet. -/
theorem quiet_joinUnix (idx listenerIdx : ℕ) : c.Quiet (joinUnix c idx listenerIdx) := by
  rw [joinUnix]
  refine Ctx.Quiet.trans ?_ (quiet_joinSockets _ _ _ _ _)
  exact .updKernel c fun _ => ⟨rfl, rfl, rfl⟩

/-- Connecting through the host is quiet. -/
theorem quiet_connectExternal (idx : ℕ) (ip : Ipv4) (port : UInt16) :
    c.Quiet (connectExternal H c idx ip port).2 := by
  fun_cases connectExternal with
  | case1 => exact .logCall c _
  | case2 => exact (Ctx.Quiet.logCall c _).trans (.updSocket _ _ _)

/-- Connecting to an address is quiet. -/
theorem quiet_connectInet (idx : ℕ) (sock : SocketInfo) (addr : Bytes) :
    c.Quiet (connectInet H c idx sock addr).2 := by
  fun_cases connectInet with
  | case1 | case2 => exact .refl c
  | case3 => exact (quiet_choosePort c _).trans (.updSocket _ _ _)
  | case4 => exact quiet_connectLoopback c idx sock _ _
  | case5 => exact quiet_connectExternal c idx _ _

/-- Connecting to a path is quiet. -/
theorem quiet_connectUnix (idx : ℕ) (sock : SocketInfo) (addr : Bytes) :
    c.Quiet (connectUnix c idx sock addr).2 := by
  fun_cases connectUnix with
  | case1 => exact .updSocket c idx _
  | case5 => exact quiet_joinUnix c idx _
  | _ => exact .refl c

/-- Connecting is quiet. -/
theorem quiet_sysConnect (fd : ℤ) (addr : Bytes) : c.Quiet (sysConnect H c fd addr).2 := by
  fun_cases sysConnect with
  | case1 => exact .refl c
  | case2 | case3 => exact quiet_connectInet c _ _ addr
  | case4 => exact quiet_connectUnix c _ _ addr

/-! ### Positions and listings -/

/-- Skipping the host's entries is tame. -/
theorem tame_skipEntries (h : ℤ) (n left : ℕ) (k : Kernel) :
    ∀ x ∈ skipEntries H h n left k, k.Tame x.2 := by
  fun_induction skipEntries with
  | case1 => exact forall_mem_some.mpr (.refl _)
  | case2 => exact forall_mem_none
  | case3 | case4 => exact forall_mem_some.mpr (.logCall _ _)
  | case5 | case6 =>
    rename_i ih
    exact fun x hx => (Kernel.Tame.logCall _ _).trans (ih x hx)

/-- Reading the host's entries is tame. -/
theorem tame_readEntries (h : ℤ) (bufLen n : ℕ) (k : Kernel) (out : Bytes) (off : ℤ) :
    ∀ x ∈ readEntries H h bufLen n k out off, k.Tame x.2 := by
  fun_induction readEntries with
  | case1 => exact forall_mem_none
  | case2 | case3 | case5 => exact forall_mem_some.mpr (.logCall _ _)
  | case4 | case6 =>
    rename_i ih
    exact fun x hx => (Kernel.Tame.logCall _ _).trans (ih x hx)

/-- Moving within a known size is quiet. -/
theorem quiet_seekIn (idx : ℕ) (o : OpenFileDesc) (size offset : ℤ) (whence : UInt32) :
    c.Quiet (seekIn c idx o size offset whence).2 := by
  fun_cases seekIn with
  | case1 | case2 => exact .refl c
  | case3 => exact .updOfd c idx fun _ => ⟨rfl, rfl, id⟩

/-- Moving in a file of the host's is quiet. -/
theorem quiet_seekHost (idx : ℕ) (o : OpenFileDesc) (offset : ℤ) (whence : UInt32) :
    c.Quiet (seekHost H c idx o offset whence).2 := by
  simp only [seekHost]
  generalize hx : (if whence = SEEK_SET then _ else _ : Except Errno ℤ × Ctx) = x
  have hasked : c.Quiet x.2 := by
    rw [← hx]
    split
    · exact .logCall c _
    split
    · exact .logCall c _
    split
    · exact .logCall c _
    · exact .refl c
  rcases x with ⟨e | pos, c'⟩
  · exact hasked
  simp only
  split
  · exact hasked
  · exact hasked.trans (.updOfd _ idx fun _ => ⟨rfl, rfl, id⟩)

/-- Moving in a file is quiet. -/
theorem quiet_seekFile (idx : ℕ) (o : OpenFileDesc) (offset : ℤ) (whence : UInt32) :
    c.Quiet (seekFile H c idx o offset whence).2 := by
  fun_cases seekFile with
  | case1 | case5 | case6 => exact quiet_seekIn c idx o _ offset whence
  | case2 | case4 => exact .refl c
  | case3 => exact .updOfd c idx fun _ => ⟨rfl, rfl, id⟩
  | case7 => exact quiet_seekHost c idx o offset whence

/-- Moving in a directory is quiet. -/
theorem quiet_seekDir (fuel : ℕ) (c : Ctx) (idx : ℕ) (o : OpenFileDesc) (offset : ℤ) :
    ∀ x ∈ seekDir H fuel c idx o offset, c.Quiet x.2 := by
  have hstart : c.Quiet ((closeIterator c o).updOfd idx (rewound offset)) := by
    refine Ctx.Quiet.trans ?_ (.updOfd _ idx fun _ => ⟨rfl, rfl, id⟩)
    rw [closeIterator]
    split
    · exact .logCall c _
    · exact .refl c
  have hset := fun reply h => (hstart.trans (.logCall _ (.opendir o.path reply))).trans <|
    .updOfd _ idx (f := fun o => { o with dirHostHandle := h, dirSynthState := 2 })
      fun _ => ⟨rfl, rfl, id⟩
  fun_cases seekDir with
  | case1 => exact forall_mem_some.mpr hstart
  | case2 => exact forall_mem_some.mpr (hstart.trans (.logCall _ _))
  | case3 => exact forall_mem_none
  | case4 _ _ _ _ _ _ _ _ _ hskip =>
    exact forall_mem_some.mpr ((hset _ _).trans ⟨tame_skipEntries _ _ _ _ _ hskip, .refl _, rfl⟩)
  | case5 _ _ _ _ _ _ _ _ hskip =>
    have hskipped : Ctx.Quiet _ ⟨_, _⟩ := ⟨tame_skipEntries _ _ _ _ _ hskip, .refl _, rfl⟩
    refine forall_mem_some.mpr (((hset _ _).trans hskipped).trans (.updOfd _ idx ?_))
    exact fun _ => ⟨rfl, rfl, id⟩

/-- Moving the offset is quiet. -/
theorem quiet_sysLseek (fuel : ℕ) (c : Ctx) (fd offset : ℤ) (whence : UInt32) :
    ∀ x ∈ sysLseek H fuel c fd offset whence, c.Quiet x.2 := by
  fun_cases sysLseek with
  | case3 => exact quiet_seekDir fuel c _ _ offset
  | case5 => exact forall_mem_some.mpr (quiet_seekFile c _ _ offset whence)
  | _ => exact forall_mem_some.mpr (.refl c)

/-- Listing a directory the kernel makes up is quiet. -/
theorem quiet_listVirtual (idx : ℕ) (part : Except Errno DirPart) :
    c.Quiet (listVirtual c idx part).2 := by
  rcases part with e | part
  · exact .refl c
  · exact .updOfd c idx fun _ => ⟨rfl, rfl, id⟩

/-- Listing a directory of procfs is quiet. -/
theorem quiet_listProcfs (E : ProcfsEnv) (c : Ctx) (idx : ℕ) (o : OpenFileDesc) (bufLen : ℕ) :
    c.Quiet (listProcfs E c idx o bufLen).2 := by
  fun_cases listProcfs with
  | case1 => exact .refl c
  | _ => exact quiet_listVirtual c idx _

/-- Listing the virtual directories still to come is quiet. -/
theorem quiet_listPending (idx : ℕ) (o : OpenFileDesc) (bufLen : ℕ) :
    c.Quiet (listPending c idx o bufLen).2 := by
  rw [listPending]
  split <;> exact .updOfd c idx fun _ => ⟨rfl, rfl, id⟩

/-- Closing the iterator at the end of a listing is quiet. -/
theorem quiet_finishListing (idx : ℕ) (o : OpenFileDesc) (h : ℤ) (bufLen : ℕ) (out : Bytes)
    (off : ℤ) : c.Quiet (finishListing c idx o h bufLen out off).2 := by
  simp only [finishListing]
  split <;> exact (Ctx.Quiet.logCall c _).trans (.updOfd _ idx fun _ => ⟨rfl, rfl, id⟩)

/-- Listing the host's entries is quiet. -/
theorem quiet_listHostEntries (fuel : ℕ) (c : Ctx) (idx : ℕ) (o : OpenFileDesc) (h : ℤ)
    (bufLen : ℕ) (out : Bytes) (off : ℤ) :
    ∀ x ∈ listHostEntries H fuel c idx o h bufLen out off, c.Quiet x.2 := by
  have hkernel : ∀ r k, readEntries H h bufLen fuel c.kernel out off = some (r, k) →
      c.Quiet { c with kernel := k } :=
    fun r k hread => ⟨tame_readEntries h bufLen fuel c.kernel out off _ hread, .refl _, rfl⟩
  fun_cases listHostEntries with
  | case1 => exact forall_mem_none
  | case2 e k hread => exact forall_mem_some.mpr (hkernel _ _ hread)
  | case3 out' off' k hread =>
    refine forall_mem_some.mpr ((hkernel _ _ hread).trans (.updOfd _ idx ?_))
    exact fun _ => ⟨rfl, rfl, id⟩
  | case4 out' off' k hread =>
    exact forall_mem_some.mpr ((hkernel _ _ hread).trans (quiet_finishListing _ idx o h bufLen _ _))

/-- Listing a directory of the host's is quiet. -/
theorem quiet_listHost (fuel : ℕ) (c : Ctx) (idx : ℕ) (o : OpenFileDesc) (h : ℤ) (bufLen : ℕ) :
    ∀ x ∈ listHost H fuel c idx o h bufLen, c.Quiet x.2 := by
  fun_cases listHost with
  | case1 =>
    refine forall_mem_some.mpr ?_
    split
    · exact .refl c
    · exact .updOfd c idx fun _ => ⟨rfl, rfl, id⟩
  | case2 =>
    refine fun x hx => Ctx.Quiet.trans ?_ (quiet_listHostEntries fuel _ idx _ h bufLen _ _ x hx)
    exact .updOfd c idx fun _ => ⟨rfl, rfl, id⟩

/-- Listing from the start is quiet. -/
theorem quiet_listFromStart (fuel : ℕ) (c : Ctx) (idx : ℕ) (o : OpenFileDesc) (bufLen : ℕ) :
    ∀ x ∈ listFromStart H fuel c idx o bufLen, c.Quiet x.2 := by
  fun_cases listFromStart with
  | case1 => exact forall_mem_some.mpr (.logCall c _)
  | case2 =>
    refine fun x hx => ((Ctx.Quiet.logCall c _).trans (.updOfd _ idx ?_)).trans
      (quiet_listHost fuel _ idx o _ bufLen x hx)
    exact fun _ => ⟨rfl, rfl, id⟩

/-- Listing a directory is quiet. -/
theorem quiet_sysGetdents64 (E : ProcfsEnv) (fuel : ℕ) (c : Ctx) (fd : ℤ) (bufLen : ℕ) :
    ∀ x ∈ sysGetdents64 H E fuel c fd bufLen, c.Quiet x.2 := by
  fun_cases sysGetdents64 with
  | case3 => exact forall_mem_some.mpr (quiet_listVirtual c _ _)
  | case4 => exact forall_mem_some.mpr (quiet_listProcfs E c _ _ bufLen)
  | case6 =>
    refine forall_mem_some.mpr ?_
    split
    · exact quiet_listPending c _ _ bufLen
    · exact .refl c
  | case7 => exact quiet_listFromStart fuel c _ _ bufLen
  | case8 => exact quiet_listHost fuel c _ _ _ bufLen
  | _ => exact forall_mem_some.mpr (.refl c)

/-- Setting a limit is quiet. -/
theorem quiet_sysSetrlimit {c : Ctx} {p : Process} {resource : ℕ} {soft hard : UInt64}
    (h : sysSetrlimit c.proc resource soft hard = .ok p) : c.Quiet { c with proc := p } := by
  rw [sysSetrlimit] at h
  split at h
  · cases h
  split at h
  · cases h
  simp only at h
  cases h
  split <;> split <;> exact .proc rfl rfl rfl

/-- **Every call** is a sequence of moves or quiet. -/
theorem Call.quiet {E : ProcfsEnv} {c c' : Ctx} (call : Call) {r : Except Errno Reply}
    (hcall : call.isMove = false) (hrun : call.run H E c = some (r, c')) : c.Quiet c' := by
  have hanswer : ∀ {α : Type} (f : α → Reply) (x : Except Errno α × Ctx),
      answer f x = some (r, c') → c.Quiet x.2 → c.Quiet c' := by
    rintro α f x hx h
    obtain rfl := returned_eq hx
    exact h
  cases call with
  | «open» | close | dup | dup2 | fcntlSetFd | chdir | fchdir =>
    cases hcall
  | pipe => exact hanswer _ _ hrun (quiet_sysPipe c)
  | socket domain sockType protocol =>
    exact hanswer _ _ hrun (quiet_sysSocket c domain sockType protocol)
  | socketpair domain sockType => exact hanswer _ _ hrun (quiet_sysSocketpair c domain sockType)
  | bind fd addr => exact hanswer _ _ hrun (quiet_sysBind c fd addr)
  | listen fd => exact hanswer _ _ hrun (quiet_sysListen c fd)
  | accept fd => exact hanswer _ _ hrun (quiet_sysAccept c fd)
  | connect fd addr => exact hanswer _ _ hrun (quiet_sysConnect c fd addr)
  | shutdown fd how => exact hanswer _ _ hrun (quiet_sysShutdown c fd how)
  | eventfd2 initval flags => exact hanswer _ _ hrun (quiet_sysEventfd2 c initval flags)
  | epollCreate1 flags => exact hanswer _ _ hrun (quiet_sysEpollCreate1 c flags)
  | timerfdCreate clockId flags => exact hanswer _ _ hrun (quiet_sysTimerfdCreate c clockId flags)
  | signalfd4 fd mask flags => exact hanswer _ _ hrun (quiet_sysSignalfd4 c fd mask flags)
  | memfdCreate name flags => exact hanswer _ _ hrun (quiet_sysMemfdCreate c name flags)
  | lseek =>
    obtain ⟨x, hx, hrun⟩ := Option.bind_eq_some_iff.mp hrun
    exact hanswer _ _ hrun (quiet_sysLseek _ _ _ _ _ x hx)
  | getdents64 =>
    obtain ⟨x, hx, hrun⟩ := Option.bind_eq_some_iff.mp hrun
    exact hanswer _ _ hrun (quiet_sysGetdents64 _ _ _ _ _ x hx)
  | setrlimit resource soft hard =>
    rw [Call.run] at hrun
    rcases hset : sysSetrlimit c.proc resource soft hard with e | p
    · rw [hset] at hrun
      obtain rfl := returned_eq hrun
      exact .refl c
    rw [hset] at hrun
    obtain rfl := returned_eq hrun
    exact quiet_sysSetrlimit hset

/-- **No call changes the standing of a process.** -/
theorem Call.standing {E : ProcfsEnv} {c c' : Ctx} (call : Call) {r : Except Errno Reply}
    (hrun : call.run H E c = some (r, c')) : c'.proc.standing = c.proc.standing := by
  cases hmove : call.isMove with
  | true => exact standing_followed.call standing_sysDup call hmove hrun
  | false => exact (call.quiet hmove hrun).standing

end Calls

end PosixKernel
