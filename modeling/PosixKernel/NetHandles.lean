import PosixKernel.Connections

/-!
# Host Connections over Runs

The kernel takes a socket's slot in its process for the number of its connection, so that
sockets of different processes get the same number; and a shutdown of both directions closes
the connection, which closing the socket then does again. As long as no socket is connected
under a number that is in use, and no connection is shut down in both directions, sockets
with one number go back to one connect, and the connection is closed once, with the last of
them.

A run notes which connect each socket goes back to: a connect gives its socket a number of
its own, and a child inherits the numbers of its parent's sockets.

## Main results

* `System.NotedRun.invariant` — runs that keep a note beside the state;
* `System.netsSound_step` — every admitted step keeps the books of all connections;
* `System.netHandles_run` — sockets with one number go back to one connect, and a connection
  is open exactly as long as a socket carries it;
* `System.netHandles_shared_number` — what happens otherwise.
-/

namespace PosixKernel

namespace System

/-! ### Runs with a note -/

section Noted

variable {γ : Type} (M : Machine) (admitted : System → Action → Except Errno Reply → Prop)
  (note : γ → System → Action → Except Errno Reply → γ)

/-- An admitted step, with what is noted about it. -/
def NextNoted (x y : System × γ) : Prop :=
  ∃ a r, x.1.step M a = some (r, y.1) ∧ admitted x.1 a r ∧ y.1.Fits ∧ y.2 = note x.2 x.1 a r

/-- The runs of admitted steps, with what is noted about them. -/
def NotedRun : System × γ → System × γ → Prop := Relation.ReflTransGen (NextNoted M admitted note)

variable {M admitted note}

/-- **Invariants** of such runs. -/
theorem NotedRun.invariant {I : System → γ → Prop} {x y : System × γ}
    (hrun : NotedRun M admitted note x y) (hI : I x.1 x.2)
    (hstep : ∀ s g a r s', I s g → s.step M a = some (r, s') → admitted s a r → s'.Fits →
      I s' (note g s a r)) : I y.1 y.2 := by
  induction hrun with
  | refl => exact hI
  | tail _ hnext ih =>
    obtain ⟨a, r, hs, hadm, hfits, hnote⟩ := hnext
    rw [hnote]
    exact hstep _ _ a r _ ih hs hadm hfits

variable (M admitted note) in
/-- Perform actions in turn and note what they do. -/
def performNoted [∀ s a r, Decidable (admitted s a r)] (x : System × γ) :
    List Action → Option (System × γ)
  | [] => some x
  | a :: actions =>
    match x.1.step M a with
    | none => none
    | some (r, s') =>
      if admitted x.1 a r ∧ s'.Fits then performNoted (s', note x.2 x.1 a r) actions else none

/-- A computed run is a run. -/
theorem notedRun_of_perform [∀ s a r, Decidable (admitted s a r)] {x y : System × γ}
    {actions : List Action} (h : performNoted M admitted note x actions = some y) :
    NotedRun M admitted note x y := by
  induction actions generalizing x with
  | nil =>
    cases h
    exact .refl
  | cons a actions ih =>
    rw [performNoted] at h
    rcases hs : x.1.step M a with _ | ⟨r, t⟩
    · rw [hs] at h
      cases h
    simp only [hs] at h
    split at h
    next hok => exact .head ⟨a, r, hs, hok.1, hok.2, rfl⟩ (ih h)
    · cases h

end Noted

/-! ### The connections of all processes -/

/-- The connection of a socket of a process. -/
def netAt (s : System) (pid j : ℕ) : Option Int32 := (s.procs.get pid).bind (·.netAt j)

/-- Which connect every socket goes back to. -/
abbrev Origins := ℕ → ℕ → ℕ

/-- The slot of the socket that a call would connect through the host. -/
def connecting (M : Machine) (s : System) (pid : ℕ) (fd : ℤ) (addr : Bytes) : Option ℕ :=
  (s.procs.get pid).bind fun p => connectsOut M.host ⟨s.kernel, p⟩ fd addr

/-- What a step does to the origins: a connect through the host gives its socket a new one,
the place of the connect in the host's log; a child has those of its parent. -/
def noteOrigin (M : Machine) (origin : Origins) (s : System) :
    Action → Except Errno Reply → Origins
  | .call pid (.connect fd addr), _ =>
      match s.connecting M pid fd addr with
      | none => origin
      | some idx =>
        Function.update origin pid (Function.update (origin pid) idx (s.kernel.log.length + 1))
  | .fork parentPid childPid, .ok _ => Function.update origin childPid (origin parentPid)
  | .spawn parentPid _ _ _ _, .ok (.num child) =>
      Function.update origin child.toNat (origin parentPid)
  | _, _ => origin

/-- **The steps that keep connections apart**: a connect through the host finds its number
unused, and a shutdown of both directions is not made on a connection of the host. Closing
and duplicating descriptors, forking, spawning, exiting, dying and being removed are free. -/
def netStep (M : Machine) (s : System) : Action → Except Errno Reply → Prop
  | .call pid (.connect fd addr), _ =>
      ∀ idx ∈ s.connecting M pid fd addr, s.held (.net (netHandle idx)) = 0
  | .call pid (.shutdown fd how), _ => how = SHUT_RDWR → ∀ p ∈ s.procs.get pid,
      ∀ x ∈ (socketOf p fd).toOption, x.2.hostNetHandle = none
  | .call _ (.socket _ _ _), _ => True
  | .call _ call, _ => call.isMove = true
  | .exec _, _ => False
  | _, _ => True

instance (M : Machine) (s : System) (a : Action) (r : Except Errno Reply) :
    Decidable (netStep M s a r) := by
  unfold netStep
  split <;> infer_instance

/-- A connection has its socket's slot for a number, and sockets with one number go back to
one connect. -/
structure Lineage (s : System) (origin : Origins) : Prop where
  slot : ∀ pid j h, s.netAt pid j = some h → h = netHandle j
  same : ∀ pid pid' j, (s.netAt pid j).isSome → (s.netAt pid' j).isSome →
    origin pid j = origin pid' j

/-- The books of a connection: it is open exactly as long as a socket carries it. -/
def NetTurn (s : System) (h : Int32) : Prop :=
  OpenInTurn (s.kernel.count (.net h)) (s.held (.net h)) (s.kernel.opened (.net h))
    (s.kernel.closed (.net h))

/-- The books of all connections are in order. -/
structure NetsSound (s : System) (origin : Origins) : Prop where
  sane : s.Sane
  fits : s.Fits
  turns : ∀ h, s.NetTurn h
  lineage : s.Lineage origin

variable {M : Machine} {s s' : System} {pid : ℕ} {p : Process} {h : Int32} {origin : Origins}

/-! ### Who goes back to whom -/

/-- The handles after a call of one process. -/
theorem netAt_commit (s : System) (pid : ℕ) (c : Ctx) (q j : ℕ) :
    (s.commit pid c).netAt q j = if q = pid then c.proc.netAt j else s.netAt q j := by
  rw [netAt, get_commit]
  split <;> rfl

/-- The handles of a process. -/
theorem netAt_of_get (hp : s.procs.get pid = some p) (j : ℕ) : s.netAt pid j = p.netAt j := by
  rw [netAt, hp]
  rfl

/-- Every socket with a connection is a copy of one of the process that its own process came
from. -/
theorem Lineage.along (hs : s.Lineage origin) (g : ℕ → ℕ)
    (hfrom : ∀ q j n, s'.netAt q j = some n → s.netAt (g q) j = some n)
    {origin' : Origins} (horigin : ∀ q, origin' q = origin (g q)) : s'.Lineage origin' := by
  refine ⟨fun q j n hn => hs.slot (g q) j n (hfrom q j n hn), fun q q' j hq hq' => ?_⟩
  obtain ⟨n, hn⟩ := Option.isSome_iff_exists.mp hq
  obtain ⟨n', hn'⟩ := Option.isSome_iff_exists.mp hq'
  rw [horigin, horigin]
  exact hs.same _ _ j (by rw [hfrom q j n hn]; rfl) (by rw [hfrom q' j n' hn']; rfl)

/-- No socket got a connection. -/
theorem Lineage.shrink (hs : s.Lineage origin)
    (hfrom : ∀ q j n, s'.netAt q j = some n → s.netAt q j = some n) : s'.Lineage origin :=
  hs.along id hfrom fun _ => rfl

variable {c : Ctx}

/-- A process lost connections, or none. -/
theorem Lineage.commit (hs : s.Lineage origin) (hp : s.procs.get pid = some p)
    (hfrom : ∀ j n, c.proc.netAt j = some n → p.netAt j = some n) :
    (s.commit pid c).Lineage origin := by
  refine hs.shrink fun q j n hn => ?_
  rw [netAt_commit] at hn
  split at hn
  next hq =>
    rw [hq, netAt_of_get hp]
    exact hfrom j n hn
  · exact hn

/-- A child inherits the connections of its parent. -/
theorem Lineage.inherit (hs : s.Lineage origin) {parentPid childPid : ℕ}
    (hfrom : ∀ q j n, s'.netAt q j = some n →
      s.netAt (if q = childPid then parentPid else q) j = some n) :
    s'.Lineage (Function.update origin childPid (origin parentPid)) := by
  refine hs.along (fun q => if q = childPid then parentPid else q) hfrom fun q => ?_
  rw [Function.update_apply]
  split <;> rfl

/-- **A socket is connected** under a number that no other socket carries. -/
theorem Lineage.connect (hs : s.Lineage origin) (hp : s.procs.get pid = some p) {idx : ℕ}
    (hnets : c.proc.netAt = Function.update p.netAt idx (some (netHandle idx)))
    (hunused : ∀ q, s.netAt q idx = none) (place : ℕ) : (s.commit pid c).Lineage
      (Function.update origin pid (Function.update (origin pid) idx place)) := by
  have hnet : ∀ q j, (s.commit pid c).netAt q j =
      if q = pid ∧ j = idx then some (netHandle idx) else s.netAt q j := by
    intro q j
    rw [netAt_commit]
    by_cases hq : q = pid
    · rw [if_pos hq, hnets, Function.update_apply, hq, netAt_of_get hp]
      simp
    · rw [if_neg hq, if_neg fun h => hq h.1]
  refine ⟨fun q j n hn => ?_, fun q q' j hq hq' => ?_⟩
  · rw [hnet] at hn
    split at hn
    next hat => rw [hat.2, Option.some.inj hn]
    · exact hs.slot q j n hn
  rw [hnet] at hq hq'
  by_cases hj : j = idx
  · subst hj
    have hself : ∀ q, (if q = pid ∧ j = j then some (netHandle j) else s.netAt q j).isSome →
        q = pid := by
      intro q hq
      by_contra hne
      rw [if_neg fun h => hne h.1, hunused] at hq
      cases hq
    rw [hself q hq, hself q' hq']
  rw [if_neg fun h => hj h.2] at hq hq'
  have hkept : ∀ q, Function.update origin pid (Function.update (origin pid) idx place) q j =
      origin q j := by
    intro q
    rw [Function.update_apply]
    split
    next hq => rw [Function.update_of_ne hj, hq]
    · rfl
  rw [hkept, hkept]
  exact hs.same q q' j hq hq'

/-- A handle nobody holds is nowhere. -/
theorem netAt_eq_none (hfree : s.held (.net h) = 0) (pid j : ℕ) : s.netAt pid j ≠ some h := by
  intro hj
  obtain ⟨p, hp, hnet⟩ := Option.bind_eq_some_iff.mp hj
  have hpos := Process.holds_net_pos hnet
  have hle := holds_le_held hp (.net h)
  omega

/-! ### The books of a connection -/

variable (hs : s.NetTurn h)

include hs

/-- Nothing happened to a connection. -/
theorem NetTurn.congr (hheld : s'.held (.net h) = s.held (.net h))
    (hcount : s'.kernel.count (.net h) = s.kernel.count (.net h))
    (hopened : s'.kernel.opened (.net h) = s.kernel.opened (.net h))
    (hclosed : s'.kernel.closed (.net h) = s.kernel.closed (.net h)) : s'.NetTurn h := by
  rwa [NetTurn, hheld, hcount, hopened, hclosed]

variable (hp : s.procs.get pid = some p)

include hp

/-- **Descriptor calls** of a process. -/
theorem NetTurn.moves (hmoves : Moves M.host ⟨s.kernel, p⟩ c) : (s.commit pid c).NetTurn h := by
  have hflow := hmoves.openFlow (r := .net h) trivial
  rw [hmoves.opened_net] at hflow
  have hheld := held_commit hp c (.net h)
  have hle := holds_le_held hp (.net h)
  have hnew := OpenInTurn.flow hs hflow hle
  have heq : (s.commit pid c).held (.net h) =
      s.held (.net h) - p.holds (.net h) + c.proc.holds (.net h) := by omega
  rw [NetTurn, heq]
  show OpenInTurn (c.kernel.count (.net h)) _ (c.kernel.opened (.net h)) _
  rwa [hmoves.opened_net]

/-- What is the same for connections keeps the turn. -/
theorem NetTurn.same (hsame : Ctx.NetSame ⟨s.kernel, p⟩ c) : (s.commit pid c).NetTurn h := by
  have hheld := held_commit hp c (.net h)
  have hkept : c.proc.holds (.net h) = p.holds (.net h) := Process.holds_net_congr hsame.nets h
  exact hs.congr (by omega) (hsame.kernel.count h) (hsame.kernel.opened h) (hsame.kernel.closed h)

/-- **A connect through the host**, under a number that is not in use. -/
theorem NetTurn.opened {idx : ℕ} (hopened : Ctx.NetOpened ⟨s.kernel, p⟩ c idx)
    (hnone : p.netAt idx = none) (hfree : s.held (.net (netHandle idx)) = 0) :
    (s.commit pid c).NetTurn h := by
  have hheld := held_commit hp c (.net h)
  have hmore : c.proc.holds (.net h) = p.holds (.net h) + if netHandle idx = h then 1 else 0 :=
    Process.holds_net_update hopened.nets hnone h
  have hcount := hopened.count h
  have hopen := hopened.opened h
  have hclosed := hopened.closed h
  by_cases hh : netHandle idx = h
  · subst hh
    rw [if_pos rfl] at hmore hopen
    rw [NetTurn, hfree] at hs
    have hone : (s.commit pid c).held (.net (netHandle idx)) = 1 := by omega
    rw [NetTurn, hone]
    show OpenInTurn (c.kernel.count _) 1 (c.kernel.opened _) (c.kernel.closed _)
    rw [hcount, hopen, hclosed]
    exact hs.opening
  · rw [if_neg hh] at hmore hopen
    exact hs.congr (by omega) hcount hopen hclosed

/-- **A child** is counted for the connections that it inherits. -/
theorem NetTurn.insert {child : Process} {procs : SlotTable Process}
    (hchild : child.netAt = p.netAt)
    (hprocs : procs.total (·.holds (.net h)) = s.held (.net h) + child.holds (.net h)) :
    (System.mk (bumpInheritedResourceRefcounts s.kernel child) procs).NetTurn h := by
  have hlog : (bumpInheritedResourceRefcounts s.kernel child).log = s.kernel.log :=
    Kernel.log_foldl_take child.inherited s.kernel
  have hcount : (bumpInheritedResourceRefcounts s.kernel child).count (.net h) =
      s.kernel.count (.net h) + child.holds (.net h) := by
    rw [← child.count_inherited_of_ne (by simp)]
    exact (Kernel.meter_count (.net h)).foldl_take fun _ => trivial
  show OpenInTurn ((bumpInheritedResourceRefcounts s.kernel child).count (.net h))
    (procs.total (·.holds (.net h)))
    ((bumpInheritedResourceRefcounts s.kernel child).opened (.net h))
    ((bumpInheritedResourceRefcounts s.kernel child).closed (.net h))
  rw [hcount, hprocs, Kernel.opened_congr hlog, Kernel.closed_congr hlog]
  exact OpenInTurn.take hs (by rw [Process.holds_net_congr hchild]; exact holds_le_held hp _)

/-- **A process goes**, and gives its connections back. -/
theorem NetTurn.removed : (s.removed pid p).NetTurn h := by
  have hflow := Kernel.openFlow_foldl_drop (r := .net h) trivial p.returned s.kernel 0
  rw [Nat.zero_add, p.count_returned_net, Kernel.opened_foldl_drop] at hflow
  have hnew := OpenInTurn.flow hs hflow (holds_le_held hp _)
  have hclear := SlotTable.total_clear s.procs (·.holds (.net h)) pid
  rw [hp, SlotTable.weight_some] at hclear
  have heq : (s.removed pid p).held (.net h) = s.held (.net h) - p.holds (.net h) + 0 := by
    have hdef : (s.removed pid p).held (.net h) =
        (s.procs.clear pid).total (·.holds (.net h)) := rfl
    have hdef' : s.held (.net h) = s.procs.total (·.holds (.net h)) := rfl
    omega
  rw [NetTurn, heq]
  show OpenInTurn ((p.returned.foldl Kernel.drop s.kernel).count (.net h)) _
    ((p.returned.foldl Kernel.drop s.kernel).opened (.net h))
    ((p.returned.foldl Kernel.drop s.kernel).closed (.net h))
  rwa [Kernel.opened_foldl_drop]

omit hp

omit hs

/-! ### Steps -/

/-- A forked child has its parent's handles. -/
theorem netAt_forkedChild {parent : Process} (hfits : parent.Fits) (childPid : ℕ) :
    (forkedChild parent childPid).netAt = parent.netAt := by
  funext j
  show ((socketsImage parent.sockets).get j).bind _ = _
  rw [hfits.get_socketsImage, Process.netAt]
  rcases hs : parent.sockets.get j with _ | sock
  · rfl
  have hnet := (hfits.socket hs).2.2.2.2
  show netHandleImage sock.hostNetHandle = sock.hostNetHandle
  rcases hn : sock.hostNetHandle with _ | n
  · rfl
  · exact Option.filter_some_pos (by simpa using hnet n hn)

/-- So has a spawned one. -/
theorem netAt_spawnedChild (parent : Process) (parentPid childPid : ℕ) (argv envp : List Bytes)
    (attrs : SpawnAttrs) :
    (spawnedChild parent parentPid childPid argv envp attrs).netAt = parent.netAt := by
  funext j
  rw [Process.netAt, (spawnedChild_tables parent parentPid childPid argv envp attrs).2.2.2,
    SocketTable.get_clone, Process.netAt]
  rcases parent.sockets.get j with _ | sock <;> rfl

/-- A new process brings no handle. -/
theorem netsSound_create (hturns : ∀ h, s.NetTurn h) (hlineage : s.Lineage origin) (pid : ℕ) :
    (∀ h, (s.createProcess pid).2.NetTurn h) ∧ (s.createProcess pid).2.Lineage origin := by
  refine createProcess_induction (I := fun s => (∀ h, s.NetTurn h) ∧ s.Lineage origin)
    ⟨hturns, hlineage⟩ pid ?_
  rintro s n argv ⟨hturns, hlineage⟩ hfree -
  have hnone : ∀ j, { Process.new n with argv := argv }.netAt j = none := fun j => by
    simp [Process.netAt, Process.new, SlotTable.get, SlotTable.empty]
  refine ⟨fun h => (hturns h).congr ?_ rfl rfl rfl, hlineage.shrink fun q j m hm => ?_⟩
  · have hput := SlotTable.total_put_of_free (t := s.procs) (·.holds (.net h))
      { Process.new n with argv := argv } hfree
    have hzero : { Process.new n with argv := argv }.holds (.net h) = 0 := by
      rw [Process.holds_net, SlotTable.total_eq_zero_iff]
      intro j sock hsock
      simp [Process.new, SlotTable.get, SlotTable.empty] at hsock
    rwa [hzero, Nat.add_zero] at hput
  rw [netAt, SlotTable.get_put] at hm
  split at hm
  · cases hm.symm.trans (hnone j)
  · exact hm

/-- Moves keep the turns and the lineage. -/
theorem NetsSound.moves (hs : s.NetsSound origin) (hp : s.procs.get pid = some p)
    (hproceeds : Proceeds M.host ⟨s.kernel, p⟩ c) :
    (∀ h, (s.commit pid c).NetTurn h) ∧ (s.commit pid c).Lineage origin := by
  have hmoves := (hproceeds (hs.sane.ctx hp).ok).1
  exact ⟨fun h => (hs.turns h).moves hp hmoves, hs.lineage.commit hp fun _ _ => hmoves.netAt⟩

/-- So does what is the same for connections. -/
theorem NetsSound.same (hs : s.NetsSound origin) (hp : s.procs.get pid = some p)
    (hsame : Ctx.NetSame ⟨s.kernel, p⟩ c) :
    (∀ h, (s.commit pid c).NetTurn h) ∧ (s.commit pid c).Lineage origin :=
  ⟨fun h => (hs.turns h).same hp hsame,
    hs.lineage.commit hp fun j n hn => by rwa [hsame.nets] at hn⟩

variable {r : Except Errno Reply}

/-- **A call.** -/
theorem netsSound_call {call : Call} {p : Process} (hs : s.NetsSound origin)
    (hp : s.procs.get pid = some p) (hrun : call.run M.host (M.env s) ⟨s.kernel, p⟩ = some (r, c))
    (hadm : netStep M s (.call pid call) r) : (∀ h, (s.commit pid c).NetTurn h) ∧
      (s.commit pid c).Lineage (noteOrigin M origin s (.call pid call) r) := by
  by_cases hmove : call.isMove = true
  · have hnote : noteOrigin M origin s (.call pid call) r = origin := by
      cases call with
      | connect => cases hmove
      | _ => rfl
    rw [hnote]
    exact hs.moves hp (call.proceeds hmove hrun)
  cases call with
  | socket =>
    obtain rfl := returned_eq hrun
    exact hs.same hp (netSame_sysSocket _ _ _ _)
  | shutdown =>
    obtain rfl := returned_eq hrun
    refine hs.same hp (netSame_sysShutdown _ fun hhow idx sock hsock => ?_)
    refine hadm hhow p hp (idx, sock) ?_
    rw [hsock]
    rfl
  | connect fd addr =>
    obtain rfl := returned_eq hrun
    have hconnecting : s.connecting M pid fd addr =
        connectsOut M.host ⟨s.kernel, p⟩ fd addr := by
      rw [connecting, hp]
      rfl
    rcases hout : connectsOut M.host ⟨s.kernel, p⟩ fd addr with _ | idx
    · simp only [noteOrigin, hconnecting, hout]
      exact hs.same hp (netSame_sysConnect hout)
    simp only [noteOrigin, hconnecting, hout]
    have hfree : s.held (.net (netHandle idx)) = 0 := hadm idx (hconnecting.trans hout)
    have hopened := netOpened_sysConnect hout
    have hunused : ∀ q, s.netAt q idx = none := by
      intro q
      rcases hq : s.netAt q idx with _ | n
      · rfl
      · rw [hs.lineage.slot q idx n hq] at hq
        exact absurd hq (netAt_eq_none hfree q idx)
    have hnone : p.netAt idx = none := (netAt_of_get hp idx).symm.trans (hunused pid)
    exact ⟨fun h => (hs.turns h).opened hp hopened hnone hfree,
      hs.lineage.connect hp hopened.nets hunused _⟩
  | _ => exact absurd hadm hmove

/-- **A fork.** -/
theorem netsSound_fork {parentPid childPid : ℕ} {parent : Process} (hs : s.NetsSound origin)
    (hparent : s.procs.get parentPid = some parent) (hfree : s.procs.get childPid = none) :
    (∀ h, (s.forked parentPid childPid parent).NetTurn h) ∧
      (s.forked parentPid childPid parent).Lineage
        (Function.update origin childPid (origin parentPid)) := by
  have hchild := netAt_forkedChild (hs.fits.process hparent) childPid
  refine ⟨fun h => ?_, hs.lineage.inherit fun q j n hn => ?_⟩
  · refine (hs.turns h).insert hparent hchild ?_
    rw [SlotTable.total_modify_of_eq (m := Process.forkedOnce) _ _ fun _ => rfl,
      SlotTable.total_put_of_free _ _ hfree]
    rfl
  have hne : parentPid ≠ childPid := by
    rintro rfl
    rw [hparent] at hfree
    cases hfree
  rw [netAt, get_forked hparent hfree] at hn
  by_cases hq : q = parentPid
  · rw [if_pos hq] at hn
    rwa [hq, if_neg hne, netAt_of_get hparent]
  rw [if_neg hq] at hn
  by_cases hc : q = childPid
  · rw [if_pos hc, Option.bind_some, hchild] at hn
    rwa [if_pos hc, netAt_of_get hparent]
  · rw [if_neg hc] at hn
    rwa [if_neg hc]

/-- **A spawn**: the child gets the connections of its parent, and its file actions only take
them away. A child that is taken back returns them. -/
theorem netsSound_spawn {parentPid : ℕ} {argv envp : List Bytes} {actions : List FileAction}
    {attrs : SpawnAttrs} {parent child : Process}
    (hs : s.NetsSound origin) (hparent : s.procs.get parentPid = some parent)
    (hchild : child = spawnedChild parent parentPid s.allocateSpawnPid argv envp attrs)
    (hc : c = (applySpawnFileActions M.host (M.env (s.insertSpawned child))
      ⟨(s.insertSpawned child).kernel, child⟩ actions).2)
    (hend : (r = .ok (.num child.pid) ∧ s' = (s.insertSpawned child).commit child.pid c) ∨
      ∃ e, r = .error e ∧
        s' = ((s.insertSpawned child).commit child.pid c).removed child.pid c.proc) :
    (∀ h, s'.NetTurn h) ∧
      s'.Lineage (noteOrigin M origin s (.spawn parentPid argv envp actions attrs) r) := by
  have hfree := get_pid_spawned hchild
  have hnets : child.netAt = parent.netAt := by
    rw [hchild]
    exact netAt_spawnedChild parent parentPid s.allocateSpawnPid argv envp attrs
  obtain ⟨-, hget, hmoves⟩ := hs.sane.spawned hparent hchild hc
  have hinserted : ∀ h, (s.insertSpawned child).NetTurn h := by
    intro h
    refine (hs.turns h).insert hparent hnets ?_
    rw [SlotTable.total_put_of_free _ _ hfree]
    rfl
  have hacted : ∀ h, ((s.insertSpawned child).commit child.pid c).NetTurn h :=
    fun h => (hinserted h).moves hget hmoves
  rcases hend with ⟨rfl, rfl⟩ | ⟨e, rfl, rfl⟩
  · refine ⟨hacted, hs.lineage.inherit fun q j n hn => ?_⟩
    rw [netAt, get_spawned] at hn
    rw [Int.toNat_natCast]
    split at hn
    next hq =>
      rw [if_pos hq, netAt_of_get hparent, ← hnets]
      exact hmoves.netAt hn
    next hq => rwa [if_neg hq]
  refine ⟨fun h => (hacted h).removed (by rw [get_commit, if_pos rfl]),
    hs.lineage.shrink fun q j n hn => ?_⟩
  rwa [netAt, get_takenBack hfree] at hn

/-- **Every step that keeps connections apart** keeps the books of all connections. -/
theorem netsSound_step {a : Action} (hs : s.NetsSound origin) (hstep : s.step M a = some (r, s'))
    (hadm : netStep M s a r) (hfits : s'.Fits) : s'.NetsSound (noteOrigin M origin s a r) := by
  suffices hnew : (∀ h, s'.NetTurn h) ∧ s'.Lineage (noteOrigin M origin s a r) from
    ⟨sane_step hs.sane hs.fits hstep, hfits, hnew.1, hnew.2⟩
  cases took_of_step hstep with
  | @refused a e hnobody =>
    have hnote : noteOrigin M origin s a (.error e) = origin := by
      cases a with
      | call pid call =>
        cases call with
        | connect =>
          simp [noteOrigin, connecting, hnobody pid _ rfl]
        | _ => rfl
      | _ => rfl
    rw [hnote]
    exact ⟨hs.turns, hs.lineage⟩
  | created pid => exact netsSound_create hs.turns hs.lineage pid
  | called hp hrun => exact netsSound_call hs hp hrun hadm
  | execed => exact hadm.elim
  | exited hp status => exact hs.moves hp (proceeds_sysExit _ status)
  | died hp signum => exact hs.moves (M := M) hp (proceeds_dieBySignal _ signum)
  | forked hparent hfree => exact netsSound_fork hs hparent hfree
  | spawned hparent hchild hc hend => exact netsSound_spawn hs hparent hchild hc hend
  | @removed pid _ hp =>
    refine ⟨fun h => ((hs.turns h).removed hp).congr rfl rfl rfl rfl,
      hs.lineage.shrink fun q j n hn => ?_⟩
    obtain ⟨p, hp, hnet⟩ := Option.bind_eq_some_iff.mp hn
    exact (netAt_of_get (SlotTable.get_of_get_clear hp) j).trans hnet

/-- At first there is no handle. -/
theorem netsSound_boot : boot.NetsSound fun _ _ => 0 := by
  refine ⟨sane_boot, fun e he => absurd he (by simp [boot, SlotTable.entries, SlotTable.empty]),
    fun h => ⟨fun _ => ⟨rfl, rfl⟩, fun hpos => absurd hpos (Nat.lt_irrefl 0)⟩, ?_⟩
  exact ⟨fun pid j h hn => absurd hn (by simp [netAt, boot, SlotTable.get, SlotTable.empty]),
    fun _ _ _ _ _ => rfl⟩

/-- Handles within memory differ. -/
theorem netHandle_inj {i j : ℕ} (hi : i < MEMORY) (hj : j < MEMORY)
    (h : netHandle i = netHandle j) : i = j := by
  have hint : ∀ n, n < MEMORY → (netHandle n).toInt = n := by
    intro n hn
    simp only [MEMORY] at hn
    exact Int32.toInt_ofNat_of_lt (by omega)
  have heq := congrArg Int32.toInt h
  rw [hint i hi, hint j hj] at heq
  exact Int.ofNat.inj heq

/-- A socket that carries a connection has a slot that fits. -/
theorem lt_of_netAt (hfits : s.Fits) {j : ℕ} (hj : s.netAt pid j = some h) : j < MEMORY := by
  obtain ⟨p, hp, hnet⟩ := Option.bind_eq_some_iff.mp hj
  obtain ⟨sock, hsock, -⟩ := Option.bind_eq_some_iff.mp hnet
  exact ((hfits.process hp).2.2 (j, sock) (SlotTable.mem_entries.mpr hsock)).1

/-- **Connections are shared only by inheritance and closed once, with the last socket**, in
every run that keeps connections apart: two sockets with one number go back to the same
connect; as long as a socket carries a number, its connection has been closed as often as it
was made before; and when no socket carries it any more, it has been closed once more. -/
theorem netHandles_run
    (hrun : NotedRun M (netStep M) (noteOrigin M) (boot, fun _ _ => 0) (s, origin)) :
    (∀ pid pid' j j' h, s.netAt pid j = some h → s.netAt pid' j' = some h →
      origin pid j = origin pid' j') ∧
    ∀ h, (0 < s.held (.net h) → s.kernel.opened (.net h) = s.kernel.closed (.net h) + 1 ∧
        s.kernel.count (.net h) + 1 = s.held (.net h)) ∧
      (s.held (.net h) = 0 → s.kernel.opened (.net h) = s.kernel.closed (.net h)) := by
  have hsound : s.NetsSound origin :=
    hrun.invariant (I := NetsSound) netsSound_boot fun _ _ _ _ _ hs hstep hadm hfits =>
      netsSound_step hs hstep hadm hfits
  refine ⟨fun pid pid' j j' h hj hj' => ?_, fun h => ⟨(hsound.turns h).held, fun hfree =>
    ((hsound.turns h).free hfree).1⟩⟩
  have hslot := hsound.lineage.slot pid j h hj
  have hslot' := hsound.lineage.slot pid' j' h hj'
  obtain rfl := netHandle_inj (lt_of_netAt hsound.fits hj) (lt_of_netAt hsound.fits hj')
    (hslot.symm.trans hslot')
  exact hsound.lineage.same pid pid' j (by rw [hj]; rfl) (by rw [hj']; rfl)

/-- A child shares the connection of its parent: it goes back to the parent's connect, and
the connection is open until both have closed it. -/
theorem netHandles_run_shared : ∃ s origin, NotedRun (.on .reachable) (netStep (.on .reachable))
      (noteOrigin (.on .reachable)) (boot, fun _ _ => 0) (s, origin) ∧
    s.netAt 2 0 = some 0 ∧ s.netAt 3 0 = some 0 ∧ origin 2 0 = origin 3 0 ∧
    s.kernel.opened (.net 0) = s.kernel.closed (.net 0) + 1 := by
  obtain ⟨x, hx, hparent, hchild⟩ : ∃ x ∈ performNoted (.on .reachable)
      (netStep (.on .reachable)) (noteOrigin (.on .reachable)) (boot, fun _ _ => 0)
      [.create 2, .call 2 (.socket 2 1 0), .call 2 (.connect 3 [2, 0, 0, 80, 10, 0, 0, 1]),
        .call 2 (.dup 3), .spawn 2 [] [] [] .empty, .call 2 (.close 3)],
      x.1.netAt 2 0 = some 0 ∧ x.1.netAt 3 0 = some 0 := by decide +kernel
  have hrun := notedRun_of_perform hx
  obtain ⟨hsame, hbooks⟩ := netHandles_run (M := .on .reachable) hrun
  have hheld : 0 < x.1.held (.net 0) := by
    by_contra hnone
    exact netAt_eq_none (Nat.eq_zero_of_not_pos hnone) 2 0 hparent
  exact ⟨x.1, x.2, hrun, hparent, hchild, hsame 2 3 0 0 0 hparent hchild, ((hbooks 0).1 hheld).1⟩

/-- **Processes with one number.** Three processes connect a socket each; all get the number
0, although none was inherited, and the first of them to be closed closes that number on the
host while the others still carry it. -/
theorem netHandles_shared_number : ∃ s origin, NotedRun (.on .reachable) (fun _ _ _ => True)
      (noteOrigin (.on .reachable)) (boot, fun _ _ => 0) (s, origin) ∧
    s.netAt 3 0 = some 0 ∧ s.netAt 4 0 = some 0 ∧ origin 3 0 ≠ origin 4 0 ∧
    s.held (.net 0) = 2 ∧ s.kernel.closed (.net 0) = 1 := by
  obtain ⟨x, hx, hends⟩ : ∃ x ∈ performNoted (.on .reachable) (fun _ _ _ => True)
      (noteOrigin (.on .reachable)) (boot, fun _ _ => 0)
      [.create 2, .create 3, .create 4, .call 2 (.socket 2 1 0), .call 3 (.socket 2 1 0),
        .call 4 (.socket 2 1 0), .call 2 (.connect 3 [2, 0, 0, 80, 10, 0, 0, 1]),
        .call 3 (.connect 3 [2, 0, 0, 80, 10, 0, 0, 2]),
        .call 4 (.connect 3 [2, 0, 0, 80, 10, 0, 0, 3]), .call 2 (.close 3)],
      x.1.netAt 3 0 = some 0 ∧ x.1.netAt 4 0 = some 0 ∧ x.2 3 0 ≠ x.2 4 0 ∧
        x.1.held (.net 0) = 2 ∧ x.1.kernel.closed (.net 0) = 1 := by
    decide +kernel
  exact ⟨x.1, x.2, notedRun_of_perform hx, hends⟩

end System

end PosixKernel
