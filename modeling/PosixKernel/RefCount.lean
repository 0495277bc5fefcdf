import PosixKernel.Images

/-!
# Reference Counts of Descriptions

Each description counts the descriptors that point at it. The count is kept by hand in
every call that creates, duplicates or closes a descriptor; between two updates a call
owes references that no descriptor stands for yet, and `CountedWith` keeps the books of
these.

## Main results

* `CountedWith.sysClose`, `CountedWith.sysDup2` — closing and duplicating keep the counts
  exact, whether or not the call succeeds;
* `CountedWith.sysOpen`, `CountedWith.sysPipe`, `CountedWith.sysSocketpair` — so do the
  calls that create descriptors, when they succeed;
* `refCountsExact_fork` — a forked child has exact counts only if the parent had no
  descriptor marked close-on-fork.
-/

namespace PosixKernel

open SlotTable

/-- The number of descriptors that point at a description. -/
def refsTo (f : SlotTable FdEntry) (i : ℕ) : ℕ := f.total fun e => if e.ofdRef = i then 1 else 0

/-- Every live description counts its descriptors, and every descriptor points at a live
description. -/
structure Process.RefCountsExact (p : Process) : Prop where
  counts : ∀ i o, p.ofdTable.get i = some o → o.refCount = refsTo p.fdTable.entries i
  live : ∀ i e, p.fdTable.entries.get i = some e → ∃ o, p.ofdTable.get e.ofdRef = some o

/-- The counts are those of the descriptors plus the references that are listed. -/
def CountedWith (f : SlotTable FdEntry) (t : OfdTable) (owed : List ℕ) : Prop :=
  ∀ i, weight OpenFileDesc.refCount (t.get i) = refsTo f i + owed.count i

/-- The counts of a process owe nothing. -/
abbrev Process.Counted (p : Process) (owed : List ℕ) : Prop :=
  CountedWith p.fdTable.entries p.ofdTable owed

/-- A description with a descriptor is referred to. -/
theorem refsTo_pos {f : SlotTable FdEntry} {i : ℕ} {e : FdEntry} (h : f.get i = some e) :
    0 < refsTo f e.ofdRef :=
  total_pos_iff.mpr ⟨i, e, h, by simp⟩

variable {p : Process}

/-! ### The two tables under each update -/

namespace CountedWith

variable {f : SlotTable FdEntry} {t : OfdTable} {owed : List ℕ}

/-- A descriptor leads to a description. -/
theorem live (h : CountedWith f t owed) {i : ℕ} {e : FdEntry} (he : f.get i = some e) :
    ∃ o, t.get e.ofdRef = some o := by
  rcases ho : t.get e.ofdRef with _ | o
  · have hcount := h e.ofdRef
    have hpos := refsTo_pos he
    rw [ho, weight_none] at hcount
    omega
  · exact ⟨o, rfl⟩

/-- A new description is owed one descriptor. -/
theorem alloc (h : CountedWith f t owed) {o : OpenFileDesc} (ho : o.refCount = 1) :
    CountedWith f (t.alloc o).2 (t.nextIdx :: owed) := by
  intro i
  rw [get_alloc]
  have hi := h i
  by_cases hn : i = t.nextIdx
  · rw [hn, get_nextIdx, weight_none] at hi
    rw [if_pos hn, weight_some, ho, hn, List.count_cons_self]
    omega
  · rwa [if_neg hn, List.count_cons_of_ne (Ne.symm hn)]

/-- So is a reference that is counted. -/
theorem incRef (h : CountedWith f t owed) {j : ℕ} {o : OpenFileDesc} (ho : t.get j = some o) :
    CountedWith f (t.incRef j) (j :: owed) := by
  intro i
  rw [OfdTable.get_incRef]
  have hi := h i
  by_cases hij : i = j
  · subst hij
    rw [ho, weight_some] at hi
    rw [if_pos rfl, ho, Option.map_some, weight_some, List.count_cons_self]
    show o.refCount + 1 = _
    omega
  · rwa [if_neg hij, List.count_cons_of_ne (Ne.symm hij)]

/-- A descriptor pays what is owed. -/
theorem putFd {j : ℕ} (h : CountedWith f t (j :: owed)) {i : ℕ} (hi : f.get i = none)
    (flags : UInt32) : CountedWith (f.put i (some ⟨j, flags⟩)) t owed := by
  intro k
  rw [h k, refsTo, refsTo, total_put_of_free _ _ hi, List.count_cons]
  simp only [beq_iff_eq]
  omega

/-- A descriptor that goes leaves its reference owed. -/
theorem clearFd (h : CountedWith f t owed) {i : ℕ} {e : FdEntry} (he : f.get i = some e) :
    CountedWith (f.clear i) t (e.ofdRef :: owed) := by
  intro k
  have hclear := total_clear f (fun e => if e.ofdRef = k then 1 else 0) i
  rw [he, weight_some] at hclear
  rw [h k, refsTo, refsTo, List.count_cons]
  simp only [beq_iff_eq]
  omega

/-- A reference that is owed is dropped; a description goes with its last one. -/
theorem decRef {j : ℕ} (h : CountedWith f t (j :: owed)) : CountedWith f (t.decRef j).2 owed := by
  have hj := h j
  rw [List.count_cons_self] at hj
  obtain ⟨o, ho⟩ : ∃ o, t.get j = some o := by
    rcases ho : t.get j with _ | o
    · rw [ho, weight_none] at hj
      omega
    · exact ⟨o, rfl⟩
  rw [ho, weight_some] at hj
  intro i
  rw [OfdTable.get_decRef ho]
  by_cases hij : i = j
  · subst hij
    rw [if_pos rfl]
    split
    · rw [weight_none]
      omega
    · show o.refCount - 1 = _
      omega
  · rw [if_neg hij, h i, List.count_cons_of_ne (Ne.symm hij)]

/-- The order in which references are owed does not matter. -/
theorem perm {owed' : List ℕ} (h : CountedWith f t owed) (hp : owed.Perm owed') :
    CountedWith f t owed' :=
  fun i => by rw [h i, hp.count_eq]

/-- Which descriptors point where is all that counts. -/
theorem congr {f' : SlotTable FdEntry} (h : CountedWith f t owed)
    (hf : ∀ i, refsTo f' i = refsTo f i) : CountedWith f' t owed :=
  fun i => by rw [hf, h i]

end CountedWith

/-- Exact counts are counts that owe nothing. -/
theorem refCountsExact_iff : p.RefCountsExact ↔ p.Counted [] := by
  constructor
  · intro h i
    rw [List.count_nil, add_zero]
    rcases ho : p.ofdTable.get i with _ | o
    · rw [weight_none, eq_comm, refsTo, total_eq_zero_iff]
      intro fd e he
      rw [if_neg]
      rintro rfl
      obtain ⟨o, ho'⟩ := h.live fd e he
      rw [ho] at ho'
      cases ho'
    · exact h.counts i o ho
  intro h
  refine ⟨fun i o ho => ?_, fun fd e he => h.live he⟩
  have := h i
  rwa [ho, List.count_nil, add_zero] at this

/-- The counts are in the core. -/
theorem Process.Counted.sameCore {q : Process} {owed : List ℕ} (h : p.Counted owed)
    (hsame : p.SameCore q) : q.Counted owed := by
  rwa [Counted, hsame.fdTable, hsame.ofdTable]

/-! ### Closing and duplicating -/

namespace CountedWith

variable {H : HostIO} {c c' : Ctx} {owed : List ℕ}

/-- **A close keeps the counts exact**, whether or not it succeeds. -/
theorem sysClose (h : c.proc.Counted owed) (fd : ℤ) : (sysClose H c fd).2.proc.Counted owed := by
  rcases sysClose_cases H c fd with ⟨-, heq⟩ | ⟨i, e, rfl, he, ho, -⟩ |
    ⟨i, e, o, owner, rfl, he, -, -, heq⟩
  · rwa [heq]
  · obtain ⟨o, ho'⟩ := h.live he
    rw [ho] at ho'
    cases ho'
  rw [heq]
  have hfreed : { (freedFd c i).proc with
      ofdTable := (c.proc.ofdTable.decRef e.ofdRef).2 }.Counted owed := (h.clearFd he).decRef
  exact hfreed.sameCore (sameCore_dropOfd_dropLocks c i e.ofdRef o)

/-- A descriptor given pays what is owed. -/
theorem allocFd {ofdRef : ℕ} {fdFlags : UInt32} {fd : ℤ} (h : c.proc.Counted (ofdRef :: owed))
    (hok : allocFd c ofdRef fdFlags = (.ok fd, c')) : c'.proc.Counted owed := by
  obtain ⟨i, -, hfree, rfl⟩ := allocFd_eq_ok hok
  exact h.putFd hfree fdFlags

/-- Duplicating keeps the counts. -/
theorem sysDup (h : c.proc.Counted owed) (fd : ℤ) : (sysDup c fd).2.proc.Counted owed := by
  rw [PosixKernel.sysDup, FdTable.get]
  rcases hlook : c.proc.fdTable.lookup fd with _ | entry
  · exact h
  obtain ⟨i, rfl, he⟩ := FdTable.lookup_eq_some.mp hlook
  obtain ⟨o, ho⟩ := h.live he
  have hinc : (c.updProc fun p =>
      { p with ofdTable := p.ofdTable.incRef entry.ofdRef }).proc.Counted
      (entry.ofdRef :: owed) := h.incRef ho
  simp only
  rcases halloc : PosixKernel.allocFd (c.updProc fun p =>
      { p with ofdTable := p.ofdTable.incRef entry.ofdRef }) entry.ofdRef 0 with ⟨e | fd', c'⟩
  · rw [allocFd_eq_error halloc]
    exact hinc.decRef
  · exact allocFd hinc halloc

end CountedWith

/-- A closed number is free. -/
theorem get_sysClose_self {H : HostIO} (c : Ctx) (i : ℕ) :
    (sysClose H c i).2.proc.fdTable.entries.get i = none := by
  have hfreed : (freedFd c i).proc.fdTable.entries.get i = none := by
    show (c.proc.fdTable.entries.clear i).get i = none
    rw [get_clear, if_pos rfl]
  rcases sysClose_cases H c i with ⟨hnone, heq⟩ | ⟨j, e, hj, -, -, heq⟩ |
    ⟨j, e, o, owner, hj, -, -, -, heq⟩
  · rw [heq, ← FdTable.lookup_natCast, hnone]
  · cases hj
    rwa [heq]
  cases hj
  rw [heq]
  show (dropOfd H _ _ _).2.proc.fdTable.entries.get i = none
  rwa [(sameCore_dropOfd_dropLocks c i e.ofdRef o).fdTable]

namespace CountedWith

variable {H : HostIO} {E : ProcfsEnv} {c c' : Ctx} {owed : List ℕ}

/-- **Duplicating to a given number** keeps the counts exact, whether or not it
succeeds. -/
theorem sysDup2 (h : c.proc.Counted owed) (oldfd newfd : ℤ) :
    (sysDup2 H c oldfd newfd).2.proc.Counted owed := by
  rw [PosixKernel.sysDup2]
  rcases c.proc.fdTable.get oldfd with e | entry
  · exact h
  by_cases heq : oldfd = newfd
  · simp only [if_pos heq]
    exact h
  simp only [if_neg heq]
  have hclosed := sysClose (H := H) h newfd
  rw [FdTable.get]
  rcases hlook : (PosixKernel.sysClose H c newfd).2.proc.fdTable.lookup oldfd with _ | entry
  · exact hclosed
  obtain ⟨i, rfl, he⟩ := FdTable.lookup_eq_some.mp hlook
  obtain ⟨o, ho⟩ := hclosed.live he
  have hinc := hclosed.incRef ho
  simp only [Ctx.updProc_proc]
  rcases hset : (PosixKernel.sysClose H c newfd).2.proc.fdTable.setAt newfd
    entry.ofdRef 0 with e | t
  · exact hinc.decRef
  · obtain ⟨j, rfl, -, rfl⟩ := FdTable.setAt_eq_ok hset
    exact hinc.putFd (get_sysClose_self c j) 0

/-- Setting the flags keeps the counts. -/
theorem sysFcntlSetFd (h : c.proc.Counted owed) (fd : ℤ) (flags : UInt32) :
    (sysFcntlSetFd c fd flags).2.proc.Counted owed := by
  rw [PosixKernel.sysFcntlSetFd]
  rcases c.proc.fdTable.get fd with e | entry
  · exact h
  · exact h.congr fun _ => total_modify_of_eq _ _ fun _ => rfl

/-! ### Creating descriptors -/

/-- The description an open leads to is owed one descriptor. -/
theorem openEffect {r : ℕ × UInt32} (h : c.proc.Counted owed)
    (heff : OpenEffect H c (.ok r) c') : c'.proc.Counted (r.1 :: owed) := by
  cases heff with
  | shared fd entry fdFlags hlook =>
    obtain ⟨i, rfl, he⟩ := FdTable.lookup_eq_some.mp hlook
    obtain ⟨o, ho⟩ := h.live he
    exact h.incRef ho
  | created o fdFlags c₁ hacq =>
    have hnew : o.refCount = 1 ∧ c₁.proc.SameCore c.proc ∧ c.proc.SameCore c₁.proc := by
      cases hacq <;> exact ⟨rfl, rfl, rfl⟩
    have h₁ := h.sameCore hnew.2.2
    have hof := hnew.2.2.ofdTable
    have := h₁.alloc hnew.1
    rw [hof] at this
    show CountedWith c₁.proc.fdTable.entries (c₁.proc.ofdTable.alloc o).2 _
    rwa [hof]

/-- **An open that succeeds** keeps the counts exact. -/
theorem sysOpen {path : Bytes} {oflags mode : UInt32} {fd : ℤ} (h : c.proc.Counted owed)
    (hok : sysOpen H E c path oflags mode = (.ok fd, c')) : c'.proc.Counted owed := by
  have heff := openTarget_effect (H := H) E c path oflags mode
  rw [PosixKernel.sysOpen] at hok
  generalize openTarget H E c path oflags mode = r at heff hok
  rcases r with ⟨e | r, c₁⟩
  · cases congrArg Prod.fst hok
  · exact allocFd (h.openEffect heff) hok

variable {fds : ℤ × ℤ}

/-- Two descriptors pay what both are owed. -/
theorem allocFds {a b : ℕ} {fa fb : UInt32} {u : Ctx → Ctx}
    {v : ℤ → Ctx → Ctx} (h : c.proc.Counted (a :: b :: owed))
    (hok : (match PosixKernel.allocFd c a fa with
      | (.error e, c) => (.error e, u c)
      | (.ok fd₀, c) =>
        match PosixKernel.allocFd c b fb with
        | (.error e, c) => (.error e, v fd₀ c)
        | (.ok fd₁, c) => (.ok (fd₀, fd₁), c) : Except Errno (ℤ × ℤ) × Ctx) = (.ok fds, c')) :
    c'.proc.Counted owed := by
  rcases hfirst : PosixKernel.allocFd c a fa with ⟨e | fd₀, c₁⟩
  · rw [hfirst] at hok
    cases congrArg Prod.fst hok
  rw [hfirst] at hok
  rcases hsecond : PosixKernel.allocFd c₁ b fb with ⟨e | fd₁, c₂⟩
  · simp only [hsecond] at hok
    cases congrArg Prod.fst hok
  simp only [hsecond] at hok
  cases hok
  exact allocFd (allocFd h hfirst) hsecond

/-- **A pipe that is created** keeps the counts exact. -/
theorem sysPipe (h : c.proc.Counted owed) (hok : sysPipe c = (.ok fds, c')) :
    c'.proc.Counted owed := by
  have hplaced : (allocPipe c (.new DEFAULT_PIPE_CAPACITY)).2.proc.Counted owed := by
    rw [allocPipe]
    split <;> exact h
  rw [PosixKernel.sysPipe.eq_def] at hok
  split at hok
  · cases hok
    exact h
  generalize allocPipe c (.new DEFAULT_PIPE_CAPACITY) = placed at hplaced hok
  have hboth := ((hplaced.alloc (o := pipeOfd placed.1 O_RDONLY) rfl).alloc
    (o := pipeOfd placed.1 O_WRONLY) rfl).perm (.swap _ _ _)
  exact allocFds (u := fun c => c.updProc fun p => { p with ofdTable := _ })
    (v := fun fd c => c.updProc fun p => { p with fdTable := _, ofdTable := _ }) hboth hok

/-- **A pair of sockets that is created** keeps the counts exact. -/
theorem sysSocketpair {domain sockType : UInt32} (h : c.proc.Counted owed)
    (hok : sysSocketpair c domain sockType = (.ok fds, c')) : c'.proc.Counted owed := by
  rw [PosixKernel.sysSocketpair] at hok
  split at hok
  · cases congrArg Prod.fst hok
  split at hok
  · cases congrArg Prod.fst hok
  have hboth := fun a b : OpenFileDesc => fun (ha : a.refCount = 1) (hb : b.refCount = 1) =>
    ((h.alloc ha).alloc hb).perm (.swap _ _ _)
  exact allocFds (u := id) (v := fun _ => id) (hboth _ _ rfl rfl) hok

end CountedWith

/-! ### Forking -/

/-- The counts only depend on the two tables. -/
theorem Process.RefCountsExact.congr {q : Process} (h : p.RefCountsExact)
    (hfd : q.fdTable = p.fdTable) (hofd : q.ofdTable = p.ofdTable) : q.RefCountsExact := by
  refine ⟨?_, ?_⟩
  · rw [hfd, hofd]
    exact h.counts
  · rw [hfd, hofd]
    exact h.live

/-- The descriptors that a fork leaves behind, by the description they point at. -/
def lostRefs (f : SlotTable FdEntry) (i : ℕ) : ℕ :=
  f.total fun e => if e.survivesFork then 0 else if e.ofdRef = i then 1 else 0

/-- The image keeps the references but those it loses. -/
theorem refsTo_eq_add_lostRefs (h : p.Fits) (i : ℕ) : refsTo p.fdTable.entries i =
      refsTo (fdTableImage p.fdTable).entries i + lostRefs p.fdTable.entries i := by
  have himage : refsTo (fdTableImage p.fdTable).entries i = p.fdTable.entries.total fun e =>
      if e.survivesFork then if e.ofdRef = i then 1 else 0 else 0 := by
    refine total_congr fun j => ?_
    rw [h.get_fdTableImage]
    rcases p.fdTable.entries.get j with _ | e
    · rfl
    by_cases he : e.survivesFork = true
    · rw [Option.filter_some_pos he, weight_some, weight_some, if_pos he]
    · rw [Option.filter_some_neg (by simpa using he), weight_some, if_neg he]
      rfl
  rw [himage, lostRefs, ← total_add]
  refine total_congr fun j => ?_
  rcases p.fdTable.entries.get j with _ | e
  · rfl
  · simp only [weight_some]
    cases e.survivesFork <;> simp

/-- **The counts of a forked child** are exact only if no descriptor of the parent was
marked close-on-fork. -/
theorem refCountsExact_forkedChild (hfits : p.Fits) (h : p.RefCountsExact) (childPid : ℕ) :
    (forkedChild p childPid).RefCountsExact ↔
      ∀ i e, p.fdTable.entries.get i = some e → e.survivesFork = true := by
  have hcount : ∀ i, weight OpenFileDesc.refCount
      ((forkedChild p childPid).ofdTable.get i) =
        refsTo (fdTableImage p.fdTable).entries i + lostRefs p.fdTable.entries i := by
    intro i
    rw [← refsTo_eq_add_lostRefs hfits, ← Nat.add_zero (refsTo p.fdTable.entries i),
      ← List.count_nil (a := i), ← refCountsExact_iff.mp h i]
    show weight _ ((ofdTableImage childPid p.ofdTable).get i) = _
    rw [hfits.get_ofdTableImage]
    rcases p.ofdTable.get i with _ | o <;> rfl
  rw [refCountsExact_iff]
  constructor
  · intro hchild i e he
    have hlost := (hchild e.ofdRef).symm.trans (hcount e.ofdRef)
    have hzero : lostRefs p.fdTable.entries e.ofdRef = 0 := by
      exact (Nat.add_left_cancel hlost).symm
    by_contra hmarked
    have := total_eq_zero_iff.mp hzero i e he
    rw [if_neg hmarked, if_pos rfl] at this
    cases this
  intro hclean i
  have hzero : lostRefs p.fdTable.entries i = 0 :=
    total_eq_zero_iff.mpr fun j e he => by rw [if_pos (hclean j e he)]
  rw [hcount, hzero, List.count_nil]
  rfl

/-! ### Runs -/

/-- Every process has exact counts. -/
def System.RefCountsExact (s : System) : Prop :=
  ∀ pid p, s.procs.get pid = some p → p.RefCountsExact

/-- No descriptor of a process is marked close-on-fork. -/
def Process.NoCloFork (p : Process) : Prop :=
  ∀ e ∈ p.fdTable.entries.entries, e.2.survivesFork = true

instance (p : Process) : Decidable p.NoCloFork := by unfold Process.NoCloFork; infer_instance

/-- The calls on descriptors: opening, duplicating, closing, creating pipes and pairs of
sockets, and marking a descriptor. -/
def Call.isDescriptorCall : Call → Bool
  | .open .. | .close _ | .dup _ | .dup2 .. | .fcntlSetFd .. | .pipe | .socketpair .. => true
  | _ => false

/-- Successful calls on descriptors by any process, and forks of processes without a
descriptor marked close-on-fork. -/
def descriptorStep (s : System) (a : Action) (r : Except Errno Reply) : Prop :=
  match a with
  | .create _ => True
  | .call _ call => call.isDescriptorCall = true ∧ r.isOk = true
  | .fork parentPid _ => ∀ p ∈ s.procs.get parentPid, p.NoCloFork
  | _ => False

instance (s : System) (a : Action) (r : Except Errno Reply) : Decidable (descriptorStep s a r) :=
  match a with
  | .create _ => instDecidableTrue
  | .call .. => inferInstanceAs (Decidable (_ ∧ _))
  | .fork .. => inferInstanceAs (Decidable (∀ p ∈ s.procs.get _, _))
  | .spawn .. | .exec _ | .exit .. | .die .. | .remove _ => instDecidableFalse

/-- A call on descriptors that succeeds keeps the counts of its process exact. -/
theorem refCountsExact_call {H : HostIO} {E : ProcfsEnv} {c c' : Ctx} {call : Call}
    {r : Except Errno Reply} (h : c.proc.RefCountsExact) (hcall : call.isDescriptorCall = true)
    (hrun : call.run H E c = some (r, c')) (hok : r.isOk = true) : c'.proc.RefCountsExact := by
  rw [refCountsExact_iff] at h ⊢
  cases call with
  | «open» path oflags mode =>
    cases hrun
    rcases hres : sysOpen H E c path oflags mode with ⟨e | fd, c'⟩
    · rw [hres] at hok
      cases hok
    · exact h.sysOpen hres
  | close fd =>
    cases hrun
    exact h.sysClose fd
  | dup fd =>
    cases hrun
    exact h.sysDup fd
  | dup2 oldfd newfd =>
    cases hrun
    exact h.sysDup2 oldfd newfd
  | fcntlSetFd fd flags =>
    cases hrun
    exact h.sysFcntlSetFd fd flags
  | pipe =>
    cases hrun
    rcases hres : sysPipe c with ⟨e | fds, c'⟩
    · rw [hres] at hok
      cases hok
    · exact h.sysPipe hres
  | socketpair domain sockType =>
    cases hrun
    rcases hres : sysSocketpair c domain sockType with ⟨e | fds, c'⟩
    · rw [hres] at hok
      cases hok
    · exact h.sysSocketpair hres
  | _ => cases hcall

/-- A new process is counted. -/
theorem refCountsExact_new (pid : ℕ) : (Process.new pid).RefCountsExact := by
  rw [refCountsExact_iff]
  intro i
  rcases i with _ | _ | _ | i <;> rfl

/-- A fork is counted exactly when no reference is lost. -/
theorem refCountsExact_fork {s s' : System} {parentPid childPid : ℕ} {parent : Process}
    (hs : s.RefCountsExact) (hfits : s.Fits) (hparent : s.procs.get parentPid = some parent)
    (hfork : s.forkProcess parentPid childPid = (.ok (), s')) :
    s'.RefCountsExact ↔ parent.NoCloFork := by
  obtain ⟨parent', hparent', hfree, rfl⟩ := System.forkProcess_eq_ok hfork
  cases hparent.symm.trans hparent'
  have hne : childPid ≠ parentPid := by
    rintro rfl
    rw [hparent] at hfree
    cases hfree
  have hexact := hs parentPid parent hparent
  have hchild := refCountsExact_forkedChild (hfits.process hparent) hexact childPid
  have hclean : parent.NoCloFork ↔
      ∀ i e, parent.fdTable.entries.get i = some e → e.survivesFork = true := by
    simp [Process.NoCloFork, mem_entries]
  rw [hclean, ← hchild]
  constructor
  · intro h
    refine h childPid _ ?_
    rw [System.get_forked hparent hfree, if_neg hne, if_pos rfl]
  intro h pid p hp
  rw [System.get_forked hparent hfree] at hp
  split at hp
  · cases hp
    exact hexact.congr rfl rfl
  split at hp
  · cases hp
    exact h
  · exact hs pid p hp

/-- Every descriptor step keeps the counts. -/
theorem refCountsExact_step {M : Machine} {s s' : System} {a : Action} {r : Except Errno Reply}
    (hs : s.RefCountsExact) (hfits : s.Fits) (hstep : s.step M a = some (r, s'))
    (hadm : descriptorStep s a r) : s'.RefCountsExact := by
  cases a with
  | create =>
    obtain rfl := returned_eq hstep
    intro q p hp
    rcases System.get_createProcess hp with h | ⟨n, argv, rfl⟩
    · exact hs q p h
    · exact (refCountsExact_new n).congr rfl rfl
  | call pid =>
    rw [System.step] at hstep
    rcases System.onProcess_eq_some hstep with ⟨-, -, rfl⟩ | ⟨p, c, hp, hrun, rfl⟩
    · exact hs
    intro q p' hp'
    rw [System.get_commit] at hp'
    split at hp'
    · cases hp'
      exact refCountsExact_call (c := ⟨s.kernel, p⟩) (hs pid p hp) hadm.1 hrun hadm.2
    · exact hs q p' hp'
  | fork parentPid childPid =>
    obtain rfl := returned_eq hstep
    rcases hfork : s.forkProcess parentPid childPid with ⟨e | u, s'⟩
    · rwa [System.forkProcess_eq_error hfork]
    · obtain ⟨parent, hparent, -⟩ := System.forkProcess_eq_ok hfork
      exact (refCountsExact_fork hs hfits hparent hfork).mpr (hadm parent hparent)
  | _ => cases hadm

/-- The counts stay exact along a run of such steps. -/
theorem refCountsExact_of_run {M : Machine} {s : System}
    (hrun : System.Run M descriptorStep .boot s) : s.RefCountsExact ∧ s.Fits := by
  refine hrun.invariant (I := fun s => s.RefCountsExact ∧ s.Fits) ⟨?_, by decide⟩ ?_
  · intro pid p hp
    cases hp
  · intro s a r s' hI hstep hadm hfits
    exact ⟨refCountsExact_step hI.1 hI.2 hstep hadm, hfits⟩

/-- **Reference counts along runs.** In every state that successful calls on descriptors
and forks lead to, the counts of all processes are exact, as long as no forking process
had a descriptor marked close-on-fork; and a further fork keeps them exact exactly if the
parent has no such descriptor. -/
theorem refCounts_exact_run (M : Machine) (s : System)
    (hrun : System.Run M descriptorStep .boot s) : s.RefCountsExact ∧
      ∀ parentPid childPid parent s', s.procs.get parentPid = some parent →
        s.step M (.fork parentPid childPid) = some (.ok .done, s') →
        (s'.RefCountsExact ↔ parent.NoCloFork) := by
  have hinv := refCountsExact_of_run hrun
  refine ⟨hinv.1, fun parentPid childPid parent s' hparent hstep => ?_⟩
  obtain ⟨hok, rfl⟩ := Prod.mk.inj (Option.some.inj hstep)
  rcases hfork : s.forkProcess parentPid childPid with ⟨e | u, s'⟩
  · rw [hfork] at hok
    cases hok
  · exact refCountsExact_fork hinv.1 hinv.2 hparent hfork

/-- A process that has opened a device and duplicated the descriptor can fork, and the
counts stay exact. -/
theorem refCounts_exact_run_opened : ∃ s s', System.Run (.on .barren) descriptorStep .boot s ∧
      s.step (.on .barren) (.fork 2 3) = some (.ok .done, s') ∧ s'.RefCountsExact := by
  obtain ⟨s, hs, parent, hparent, hclean, hfree, hlen⟩ :
      ∃ s ∈ System.perform (.on .barren) descriptorStep .boot
          [.create 2, .call 2 (.open (ascii "/dev/null") O_RDWR 0), .call 2 (.dup 3)],
        ∃ p ∈ s.procs.get 2, p.NoCloFork ∧ (s.procs.get 3).isNone = true ∧
          12 + (forkBody p).flatten.length ≤ FORK_BUF_LEN.toNat := by
    decide +kernel
  have hrun := System.run_of_perform hs
  have hstep : s.step (.on .barren) (.fork 2 3) = some (.ok .done, s.forked 2 3 parent) := by
    rw [System.step,
      System.forkProcess_of_fits hparent (Option.isNone_iff_eq_none.mp hfree) hlen]
    rfl
  exact ⟨s, _, hrun, hstep,
    ((refCounts_exact_run _ s hrun).2 2 3 parent _ hparent hstep).mpr hclean⟩

/-- A process opens a device with a descriptor marked close-on-fork and forks: the child
has a description that counts one reference and no descriptor on it. -/
theorem refCounts_inexact_after_fork :
    ∃ s s' child o, System.perform (.on .barren) descriptorStep .boot
        [.create 2, .call 2 (.open (ascii "/dev/null") O_CLOFORK 0)] = some s ∧
      s.step (.on .barren) (.fork 2 3) = some (.ok .done, s') ∧
      s'.procs.get 3 = some child ∧ child.ofdTable.get 3 = some o ∧ o.refCount = 1 ∧
      refsTo child.fdTable.entries 3 = 0 := by
  obtain ⟨s, hs, parent, hparent, hfree, hlen, hchild⟩ :
      ∃ s ∈ System.perform (.on .barren) descriptorStep .boot
          [.create 2, .call 2 (.open (ascii "/dev/null") O_CLOFORK 0)],
        ∃ p ∈ s.procs.get 2, (s.procs.get 3).isNone = true ∧
          12 + (forkBody p).flatten.length ≤ FORK_BUF_LEN.toNat ∧
          ∃ o ∈ (forkedChild p 3).ofdTable.get 3, o.refCount = 1 ∧
            refsTo (forkedChild p 3).fdTable.entries 3 = 0 := by
    decide +kernel
  rw [Option.isNone_iff_eq_none] at hfree
  obtain ⟨o, ho, hcount, hrefs⟩ := hchild
  refine ⟨s, s.forked 2 3 parent, forkedChild parent 3, o, hs, ?_, ?_, ho, hcount, hrefs⟩
  · rw [System.step, System.forkProcess_of_fits hparent hfree hlen]
    rfl
  · rw [System.get_forked hparent hfree]
    rfl

end PosixKernel
